import Mirage.Jni

/-!
# Watchdogs of earlier sessions

A watchdog looks at the generation once in a round.  When the round has been
judged it is committed: it probes, delays, switches and emits without looking
again.  It does nothing to a later session in a run in which no session is
stopped or replaced under a committed watchdog, and no watchdog commits itself
when its session is gone.  `stop` does not step the generation, and `start` steps
it only after the new session is installed, so the code prevents neither.
-/

namespace Mirage.Jni

open Mirage.Failover Mirage.Foundations

/-- The round has been judged, and an event for the shell or a switch is to follow. -/
def WatchPhase.committed : WatchPhase → Bool
  | .acting | .probing _ _ | .delaying _ | .switching _ | .built _ | .swapped _
  | .emitting _ _ => true
  | _ => false

namespace Kernel

/-- Whatever a watchdog did, it did while its own session was the installed one. -/
def Isolated (kernel : Kernel) : Prop :=
  ∀ deed ∈ kernel.deeds, deed.installed = some deed.home

/-- No watchdog of the installed session is committed. -/
def Uncommitted (kernel : Kernel) : Prop :=
  ∀ watchdog ∈ kernel.watchdogs, kernel.runtime = some watchdog.home →
    watchdog.phase.committed = false

instance (kernel : Kernel) : Decidable kernel.Uncommitted :=
  inferInstanceAs (Decidable (∀ watchdog ∈ kernel.watchdogs, _ → _))

/-- What the watchdog reads when it judges the round. -/
def reads (kernel : Kernel) (watchdog : Watchdog) (healthy : Bool) : Round :=
  ⟨watchdog.policy.enabled, kernel.hasInternet, healthy⟩

/-- The call is about to put a new session into the place of the installed one. -/
def installs (kernel : Kernel) (index : ℕ) (succeeds : Bool) : Bool :=
  kernel.calls[index]?.any fun call =>
    match call with
    | .startWrote _ => succeeds
    | _ => false

/--
A session is stopped or replaced where none of its watchdogs is committed, and a
round is found bad for the second time where its session is still installed.
-/
def Resting (kernel : Kernel) : KernelEvent → Prop
  | .stop => kernel.Uncommitted
  | .advance index succeeds => kernel.installs index succeeds = true → kernel.Uncommitted
  | .watch index reading =>
      ∀ watchdog ∈ kernel.watchdogs[index]?, watchdog.phase = .attached →
        watchdog.failures ≠ 0 → (kernel.reads watchdog reading.healthy).bad = true →
        kernel.runtime = some watchdog.home
  | _ => True

instance decidableResting (kernel : Kernel) : ∀ event, Decidable (kernel.Resting event)
  | .stop => inferInstanceAs (Decidable kernel.Uncommitted)
  | .advance index succeeds =>
      inferInstanceAs (Decidable (kernel.installs index succeeds = true → kernel.Uncommitted))
  | .watch index reading =>
      inferInstanceAs (Decidable (∀ watchdog ∈ kernel.watchdogs[index]?,
        watchdog.phase = .attached → watchdog.failures ≠ 0 →
          (kernel.reads watchdog reading.healthy).bad = true →
          kernel.runtime = some watchdog.home))
  | .start _ | .setNode _ | .setPolicy _ | .setNodeList _ | .onNetworkChanged _ => .isTrue trivial

structure Attended (kernel : Kernel) : Prop where
  isolated : kernel.Isolated
  attends : ∀ watchdog ∈ kernel.watchdogs, watchdog.phase.committed = true →
    kernel.runtime = some watchdog.home

theorem attended_new : Kernel.new.Attended :=
  ⟨by simp [Isolated, new], by simp [new]⟩

variable {parses : String → Bool} {kernel : Kernel}

/-- The only step of a call which changes the installed session is the one that installs. -/
theorem advance_runtime {index : ℕ} {succeeds : Bool} {call : Call}
    (found : kernel.calls[index]? = some call) :
    (kernel.advance parses index succeeds call).runtime = kernel.runtime ∨
      kernel.installs index succeeds = true := by
  cases call with
  | startEntered uri => simp only [advance]; split <;> exact Or.inl rfl
  | startWrote uri =>
      cases succeeds with
      | false => exact Or.inl rfl
      | true => exact Or.inr (by simp [installs, found])
  | startBumped session gen => simp only [advance, spawnWatchdog]; split <;> exact Or.inl rfl
  | _ => exact Or.inl rfl

/-- A judgement commits the watchdog only after a second bad round. -/
theorem bad_of_judge_committed {watchdog : Watchdog} {round : Round}
    (commits : (watchdog.judge round).phase.committed = true) :
    watchdog.failures ≠ 0 ∧ round.bad = true := by
  revert commits
  unfold Watchdog.judge
  split
  · simp [Watchdog.rest, WatchPhase.committed]
  · split
    · simp [Watchdog.rest, WatchPhase.committed]
    · split
      · simp [Watchdog.rest, WatchPhase.committed]
      · split
        · simp [Watchdog.rest, WatchPhase.committed]
        · intro _
          exact ⟨by omega, by simp_all [Round.bad]⟩

/-- A watchdog becomes committed only by the judgement of a round. -/
theorem committed_of_next {reading : Reading} {watchdog : Watchdog}
    (commits : (kernel.next parses reading watchdog).phase.committed = true) :
    watchdog.phase.committed = true ∨
      watchdog.phase = .attached ∧ watchdog.failures ≠ 0 ∧
        (kernel.reads watchdog reading.healthy).bad = true := by
  cases phase : watchdog.phase with
  | attached =>
      simp only [next, phase] at commits
      exact Or.inr ⟨rfl, bad_of_judge_committed commits⟩
  | top => simp [next, phase, WatchPhase.committed] at commits
  | sleeping wait =>
      simp only [next, phase] at commits
      split at commits <;> simp [Watchdog.exit, WatchPhase.committed] at commits
  | woken =>
      cases installed : kernel.runtime <;>
        simp [next, phase, installed, Watchdog.exit, WatchPhase.committed] at commits
  | exited => simp [next, phase, WatchPhase.committed] at commits
  | acting | probing | delaying | switching | built | swapped | emitting => exact Or.inl rfl

/-- A committed watchdog does not rest before it has acted. -/
theorem committed_goesOn {reading : Reading} {watchdog : Watchdog}
    (committed : watchdog.phase.committed = true) :
    watchdog.act?.isSome = true ∨
      (kernel.next parses reading watchdog).phase.committed = true := by
  cases phase : watchdog.phase with
  | acting =>
      right
      simp only [next, phase, Watchdog.choose]
      split
      · rfl
      · split <;> rfl
  | probing candidates current =>
      right
      simp only [next, phase, Watchdog.probed]
      split
      · rfl
      · split
        · rfl
        · rw [phase]
          rfl
  | switching uri =>
      right
      simp only [next, phase, Watchdog.build]
      split <;> rfl
  | delaying uri => exact Or.inr (by simp [next, phase, WatchPhase.committed])
  | built uri => exact Or.inr (by simp [next, phase, WatchPhase.committed])
  | swapped uri => exact Or.inl (by simp [Watchdog.act?, phase])
  | emitting kind uri => exact Or.inl (by simp [Watchdog.act?, phase])
  | top | sleeping | woken | attached | exited => simp [phase, WatchPhase.committed] at committed

theorem committed_of_acts {watchdog : Watchdog} {act : Act} (acts : watchdog.act? = some act) :
    watchdog.phase.committed = true := by
  unfold Watchdog.act? at acts
  split at acts <;> rename_i phase
  · rw [phase]; rfl
  · rw [phase]; rfl
  · rw [phase]; rfl
  · cases acts

theorem attended_watch {index : ℕ} {reading : Reading} {watchdog : Watchdog}
    (attended : kernel.Attended) (found : kernel.watchdogs[index]? = some watchdog)
    (resting : watchdog.phase = .attached → watchdog.failures ≠ 0 →
      (kernel.reads watchdog reading.healthy).bad = true → kernel.runtime = some watchdog.home) :
    (kernel.watch parses index reading watchdog).Attended := by
  have attends := attended.attends watchdog (List.mem_of_getElem? found)
  unfold watch
  split
  · exact attended
  · rcases perform_frame kernel watchdog with ⟨-, runtime, -, watchdogs⟩
    constructor
    · intro deed there
      rcases mem_perform_deeds there with before | ⟨acts, home, installed, -, -⟩
      · exact attended.isolated deed before
      · rw [installed, home]
        exact attends (committed_of_acts acts)
    · intro other there commits
      change other ∈ (kernel.perform watchdog).watchdogs.set index _ at there
      change (kernel.perform watchdog).runtime = some other.home
      rw [watchdogs] at there
      rw [runtime]
      rcases List.mem_or_eq_of_mem_set there with before | rfl
      · exact attended.attends other before commits
      · rw [next_home]
        rcases committed_of_next commits with committed | ⟨attached, counted, bad⟩
        · exact attends committed
        · exact resting attached counted bad

theorem attended_advance {index : ℕ} {succeeds : Bool} {call : Call} (attended : kernel.Attended)
    (found : kernel.calls[index]? = some call)
    (resting : kernel.installs index succeeds = true → kernel.Uncommitted) :
    (kernel.advance parses index succeeds call).Attended := by
  have isolated : (kernel.advance parses index succeeds call).Isolated := by
    unfold Isolated
    rw [(advance_frame parses kernel index succeeds call).2]
    exact attended.isolated
  have old : ∀ watchdog ∈ kernel.watchdogs, watchdog.phase.committed = true →
      (kernel.advance parses index succeeds call).runtime = some watchdog.home := by
    intro watchdog there committed
    have installed := attended.attends watchdog there committed
    rcases advance_runtime found with same | replaces
    · rw [same]
      exact installed
    · rw [resting replaces watchdog there installed] at committed
      cases committed
  refine ⟨isolated, ?_⟩
  rcases advance_watchdogs parses kernel index succeeds call with same | ⟨_, gen, home, _, _, added⟩
  · rw [same]
    exact old
  · rw [added]
    intro watchdog there committed
    rcases List.mem_append.mp there with before | new
    · exact old watchdog before committed
    · rw [List.mem_singleton.mp new] at committed
      cases committed

theorem attended_step {event : KernelEvent} (attended : kernel.Attended)
    (resting : kernel.Resting event) : (kernel.step parses event).Attended := by
  cases event with
  | stop =>
      refine ⟨attended.isolated, fun watchdog there committed => ?_⟩
      rw [resting watchdog there (attended.attends watchdog there committed)] at committed
      cases committed
  | advance index succeeds =>
      simp only [step]
      cases found : kernel.calls[index]? with
      | none => exact attended
      | some call => exact attended_advance attended found resting
  | watch index reading =>
      simp only [step]
      cases found : kernel.watchdogs[index]? with
      | none => exact attended
      | some watchdog => exact attended_watch attended found (resting watchdog found)
  | start | setNode | setPolicy | setNodeList | onNetworkChanged =>
      exact ⟨attended.isolated, attended.attends⟩

end Kernel

/--
A watchdog of a session which was stopped or replaced does nothing to the system
in every run in which no session goes away under a committed watchdog, and none
commits itself when its session is gone.
-/
theorem stale_watchdog_isolated (parses : String → Bool) {events : List KernelEvent}
    (resting : Along (Kernel.step parses) Kernel.Resting Kernel.new events) :
    Throughout (Kernel.step parses) Kernel.Isolated Kernel.new events :=
  throughout_of_along Kernel.Attended Kernel.Attended.isolated Kernel.attended_step resting
    Kernel.attended_new

/-- A session whose watchdog has just judged a first bad round is stopped and replaced. -/
theorem stale_watchdog_isolated_restart :
    Throughout (Kernel.step fun _ => true) Kernel.Isolated Kernel.new
      ([KernelEvent.start "a", .setPolicy (some ⟨none, none, none, none, some true⟩),
          .setNodeList (some ["a", "c"]), .onNetworkChanged true] ++
        List.replicate 6 (KernelEvent.advance 0 true) ++
        List.replicate 5 (KernelEvent.watch 0 ⟨false, none, true⟩) ++ [KernelEvent.stop] ++
        List.replicate 2 (KernelEvent.advance 1 true) ++ [KernelEvent.start "b"] ++
        List.replicate 6 (KernelEvent.advance 2 true) ++
        List.replicate 6 (KernelEvent.watch 0 ⟨false, some "c", true⟩)) :=
  stale_watchdog_isolated (fun _ => true) (by decide +kernel)

/--
A watchdog which is probing is overtaken by a stop and a start: it then swaps the
engine of its old stack, overwrites the current URI of the new session and tells
the shell of the switch.
-/
theorem stale_watchdog_acts :
    let probing : List KernelEvent :=
      [KernelEvent.start "a", .setPolicy (some ⟨none, none, none, none, some true⟩),
          .setNodeList (some ["a", "c"]), .onNetworkChanged true] ++
        List.replicate 6 (KernelEvent.advance 0 true) ++
        List.replicate 9 (KernelEvent.watch 0 ⟨false, none, true⟩)
    let restart : List KernelEvent :=
      [KernelEvent.stop] ++ List.replicate 2 (KernelEvent.advance 1 true) ++
        [KernelEvent.start "b"] ++ List.replicate 6 (KernelEvent.advance 2 true)
    let events := probing ++ restart ++
      List.replicate 5 (KernelEvent.watch 0 ⟨false, some "c", true⟩)
    let kernel := run (Kernel.step fun _ => true) Kernel.new events
    kernel.deeds.map Deed.act =
        [.swapped 0 "c", .wroteCurrent "c", .emitted .switched "c"] ∧
      kernel.deeds.map Deed.installed = [some 1, some 1, some 1] ∧
      kernel.installedUri = some "b" ∧ kernel.currentNodeUri = some "c" ∧
      ¬ kernel.Isolated := by
  refine ⟨by decide +kernel, by decide +kernel, by decide +kernel, by decide +kernel, ?_⟩
  intro isolated
  have own := isolated ⟨.emitted .switched "c", 0, some 1, true,
    [⟨true, true, false⟩, ⟨true, true, false⟩]⟩ (by decide +kernel)
  cases own

end Mirage.Jni
