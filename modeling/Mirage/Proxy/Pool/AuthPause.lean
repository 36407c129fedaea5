import Mirage.Foundations.Run

/-!
# The pause after failed authentications

After five authentication failures in a row the builders of a pool rest for five
minutes.  `AuthPauseTracker` counts the failures and keeps the time at which the
pause began.  A pause which has run out is taken back by `check_paused` only;
`is_paused` looks at the time and leaves it.

A failure begins a pause only where none is kept, so one that ran out and that
nobody has checked stands in the way of the next.
-/

namespace Mirage.Proxy

open Mirage.Foundations

/-- Instants and durations are in nanoseconds. -/
def authPauseDuration : ℕ := 300000000000

def authFailuresThreshold : UInt32 := 5

structure AuthPauseTracker where
  consecutiveAuthFailures : UInt32
  pausedAt : Option ℕ
  deriving DecidableEq, Repr

namespace AuthPauseTracker

def new : AuthPauseTracker := ⟨0, none⟩

/-- Whether the call has begun a pause, and the tracker afterwards -/
def recordAuthFailure (tracker : AuthPauseTracker) (now : ℕ) : Bool × AuthPauseTracker :=
  let tracker :=
    { tracker with consecutiveAuthFailures := tracker.consecutiveAuthFailures + 1 }
  if tracker.consecutiveAuthFailures ≥ authFailuresThreshold ∧ tracker.pausedAt.isNone then
    (true, { tracker with pausedAt := some now })
  else (false, tracker)

def recordNonAuthFailure (tracker : AuthPauseTracker) : AuthPauseTracker :=
  { tracker with consecutiveAuthFailures := 0 }

def recordSuccess (tracker : AuthPauseTracker) : Bool × AuthPauseTracker :=
  (tracker.pausedAt.isSome, ⟨0, none⟩)

def purge (tracker : AuthPauseTracker) : Bool × AuthPauseTracker :=
  (tracker.pausedAt.isSome, ⟨0, none⟩)

/-- Whether a pause lasts and whether one has just run out, and the tracker afterwards -/
def checkPaused (tracker : AuthPauseTracker) (now : ℕ) : (Bool × Bool) × AuthPauseTracker :=
  match tracker.pausedAt with
  | some start =>
      if now - start ≥ authPauseDuration then ((false, true), ⟨0, none⟩)
      else ((true, false), tracker)
  | none => ((false, false), tracker)

def isPaused (tracker : AuthPauseTracker) (now : ℕ) : Bool :=
  match tracker.pausedAt with
  | some start => now - start < authPauseDuration
  | none => false

end AuthPauseTracker

inductive AuthCall where
  | recordAuthFailure
  | recordNonAuthFailure
  | recordSuccess
  | purge
  | checkPaused
  | isPaused
  deriving DecidableEq, Repr

/-- A call and its time -/
structure AuthEvent where
  call : AuthCall
  now : ℕ
  deriving DecidableEq, Repr

namespace AuthPauseTracker

def step (tracker : AuthPauseTracker) (event : AuthEvent) : AuthPauseTracker :=
  match event.call with
  | .recordAuthFailure => (tracker.recordAuthFailure event.now).2
  | .recordNonAuthFailure => tracker.recordNonAuthFailure
  | .recordSuccess => tracker.recordSuccess.2
  | .purge => tracker.purge.2
  | .checkPaused => (tracker.checkPaused event.now).2
  | .isPaused => tracker

/-- The event is a failure which brings the count to the threshold, or further. -/
def ReachesThreshold (tracker : AuthPauseTracker) (event : AuthEvent) : Prop :=
  event.call = .recordAuthFailure ∧
    authFailuresThreshold ≤ tracker.consecutiveAuthFailures + 1

/-- At the threshold the pause is on. -/
def Arms (tracker : AuthPauseTracker) (event : AuthEvent) : Prop :=
  tracker.ReachesThreshold event → (tracker.step event).isPaused event.now = true

/-- At the threshold no pause is kept that has run out. -/
def FindsNoneExpired (tracker : AuthPauseTracker) (event : AuthEvent) : Prop :=
  tracker.ReachesThreshold event →
    ∀ start, tracker.pausedAt = some start → event.now - start < authPauseDuration

variable {tracker : AuthPauseTracker} {event : AuthEvent}

theorem isPaused_eq_true {now : ℕ} :
    tracker.isPaused now = true ↔
      ∃ start, tracker.pausedAt = some start ∧ now - start < authPauseDuration := by
  rw [isPaused]
  split
  · rename_i start kept
    simp [kept]
  · rename_i none_kept
    simp [none_kept]

/-- A pause begins at the threshold if none is kept; one that is kept goes on. -/
theorem pausedAt_step (reached : tracker.ReachesThreshold event) :
    (tracker.step event).pausedAt = some (tracker.pausedAt.getD event.now) := by
  rcases reached with ⟨failure, enough⟩
  rw [step, failure]
  simp only [recordAuthFailure]
  cases kept : tracker.pausedAt with
  | none => simp [enough]
  | some start => simp

theorem arms_iff : tracker.Arms event ↔ tracker.FindsNoneExpired event := by
  apply imp_congr_right
  intro reached
  rw [isPaused_eq_true, pausedAt_step reached]
  cases tracker.pausedAt with
  | none => simp [authPauseDuration]
  | some start => simp

theorem checkPaused_eq_isPaused (tracker : AuthPauseTracker) (now : ℕ) :
    (tracker.checkPaused now).1.1 = tracker.isPaused now := by
  rw [checkPaused, isPaused]
  split
  · split
    · rename_i elapsed
      simpa using elapsed
    · rename_i lasting
      simpa using lasting
  · rfl

/-- Checking changes nothing that `is_paused` can see at the same time. -/
theorem isPaused_checkPaused (tracker : AuthPauseTracker) (now : ℕ) :
    (tracker.checkPaused now).2.isPaused now = tracker.isPaused now := by
  have same := tracker.checkPaused_eq_isPaused now
  rw [checkPaused] at *
  split
  · split
    · rename_i kept expired
      simp only [kept, expired, if_true] at same
      rw [← same]
      rfl
    · rfl
  · rfl

/-- Both queries give the same answer, in whichever order they are put. -/
def QueriesAgree (tracker : AuthPauseTracker) : Prop :=
  ∀ now, (tracker.checkPaused now).1.1 = tracker.isPaused now ∧
    (tracker.checkPaused now).2.isPaused now = tracker.isPaused now

/--
The queries agree throughout every run, and the pause is on at each failure which
reaches the threshold exactly if none of these finds a pause that has run out.
-/
theorem rearms_iff (events : List AuthEvent) :
    Throughout step QueriesAgree new events ∧
      (Along step Arms new events ↔ Along step FindsNoneExpired new events) := by
  constructor
  · have unguarded : Along step (fun _ _ => True) new events := .of_forall fun _ _ => trivial
    refine throughout_of_along (fun _ => True) ?_ ?_ unguarded trivial
    · intro tracker _ now
      exact ⟨tracker.checkPaused_eq_isPaused now, tracker.isPaused_checkPaused now⟩
    · intros
      trivial
  · apply along_congr fun _ => True
    · intros
      exact arms_iff
    · intros
      trivial
    · trivial

/-- Six failures; the last comes as the pause of the first five runs out, which nobody checks. -/
def unchecked : List AuthEvent :=
  List.replicate 5 ⟨.recordAuthFailure, 0⟩ ++ [⟨.recordAuthFailure, authPauseDuration⟩]

theorem not_rearms_unchecked :
    (unchecked.map AuthEvent.now).Pairwise (· ≤ ·) ∧ ¬Along step Arms new unchecked ∧
      (run step new unchecked).consecutiveAuthFailures = 6 ∧
      (run step new unchecked).isPaused authPauseDuration = false := by
  refine ⟨by decide, ?_, by decide, by decide⟩
  intro along
  have last := (Along.append.mp along).2.1
  exact absurd (last ⟨rfl, by decide⟩) (by decide)

end AuthPauseTracker

end Mirage.Proxy
