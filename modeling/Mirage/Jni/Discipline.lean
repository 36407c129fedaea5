import Mirage.Jni

/-!
# When the watchdog switches

The watchdog counts failures across rounds, on a policy which it read before its
sleep.  It switches only after two bad rounds in a row, and never while the
policy is disabled, in a run in which no round with a disabled policy meets a
count that is not zero, and the policy is not disabled under a watchdog that may
still switch in its present round.  It waits for at least five seconds if the
sum of interval and back-off fits into `u32`.
-/

namespace Mirage.Jni

open Mirage.Failover Mirage.Foundations

namespace WatchPhase

/-- The policy has been read for a round which has not been judged yet. -/
def counts : WatchPhase → Bool
  | .sleeping _ | .woken | .attached => true
  | _ => false

/-- The round has been judged, and the watchdog is on its way to a switch. -/
def acts : WatchPhase → Bool
  | .acting | .probing _ _ | .switching _ | .built _ => true
  | _ => false

end WatchPhase

/-- The last two rounds were bad. -/
def lastTwoBad (rounds : List Round) : Prop :=
  ∃ last previous rest, rounds = last :: previous :: rest ∧ last.bad = true ∧ previous.bad = true

namespace Watchdog

/-- The watchdog may switch in its present round. -/
def armed (watchdog : Watchdog) : Bool :=
  watchdog.phase.acts ||
    watchdog.phase.counts && watchdog.policy.enabled && watchdog.failures != 0

/-- `current` is the policy which is in force. -/
structure Keeps (current : FailoverPolicy) (watchdog : Watchdog) : Prop where
  few : watchdog.failures ≤ 1
  counted : watchdog.failures ≠ 0 →
    ∃ last rest, watchdog.rounds = last :: rest ∧ last.bad = true
  twice : watchdog.phase.acts = true → lastTwoBad watchdog.rounds
  waits : ∀ wait, watchdog.phase = .sleeping wait →
    wait.toNat = watchdog.policy.waitSum watchdog.backoff
  permitted : watchdog.armed = true → current.enabled = true

/-- Before the round is judged, only an enabled policy can lead to a switch. -/
theorem enabled_of_armed {watchdog : Watchdog} (quiet : watchdog.phase.acts = false)
    (armed : watchdog.armed = true) : watchdog.policy.enabled = true := by
  rw [Watchdog.armed, quiet, Bool.false_or, Bool.and_eq_true, Bool.and_eq_true] at armed
  exact armed.1.2

theorem keeps_new (current : FailoverPolicy) (gen : UInt64) (home : ℕ) :
    (new gen home).Keeps current where
  few := by simp [new]
  counted := by simp [new]
  twice := by simp [new, WatchPhase.acts]
  waits := by simp [new]
  permitted armed := absurd armed Bool.false_ne_true

variable {current : FailoverPolicy} {watchdog : Watchdog}

/-- In a phase in which nothing is decided only the count of failures matters. -/
theorem Keeps.idle (keeps : watchdog.Keeps current) {next : Watchdog}
    (rounds : next.rounds = watchdog.rounds) (failures : next.failures = watchdog.failures)
    (quiet : next.phase.acts = false) (spared : next.phase.counts = false) :
    next.Keeps current where
  few := failures ▸ keeps.few
  counted := by rw [failures, rounds]; exact keeps.counted
  twice acts := by rw [quiet] at acts; cases acts
  waits wait sleeping := by rw [sleeping] at spared; cases spared
  permitted armed := by simp [Watchdog.armed, quiet, spared] at armed

/-- A step within a round, up to its judgement or from it on, towards the switch. -/
theorem Keeps.goesOn (keeps : watchdog.Keeps current) {phase : WatchPhase}
    (acts : phase.acts = watchdog.phase.acts) (counts : phase.counts = watchdog.phase.counts)
    (awake : ∀ wait, phase ≠ .sleeping wait) (state : Option ℕ) :
    Keeps current { watchdog with phase := phase, state := state } where
  few := keeps.few
  counted := keeps.counted
  twice here := keeps.twice (acts ▸ here)
  waits wait sleeping := absurd sleeping (awake wait)
  permitted armed := keeps.permitted (by simpa [Watchdog.armed, acts, counts] using armed)

/-- The round is over, and no failure is counted any more. -/
theorem keeps_of_reset {next : Watchdog} (failures : next.failures = 0)
    (quiet : next.phase.acts = false) (spared : next.phase.counts = false) :
    next.Keeps current where
  few := by omega
  counted counted := absurd failures counted
  twice acts := by rw [quiet] at acts; cases acts
  waits wait sleeping := by rw [sleeping] at spared; cases spared
  permitted armed := by simp [Watchdog.armed, quiet, spared] at armed

/-- The judgement of a round, if a disabled policy meets no count of failures. -/
theorem keeps_judge (keeps : watchdog.Keeps current) (attached : watchdog.phase = .attached)
    {online healthy : Bool}
    (fresh : watchdog.policy.enabled = false → watchdog.failures = 0) :
    (watchdog.judge ⟨watchdog.policy.enabled, online, healthy⟩).Keeps current := by
  unfold judge
  cases enabled : watchdog.policy.enabled with
  | false => exact keeps_of_reset (fresh enabled) rfl rfl
  | true =>
      cases online with
      | false => exact keeps_of_reset rfl rfl rfl
      | true =>
          cases healthy with
          | true => exact keeps_of_reset rfl rfl rfl
          | false =>
              have bad : (Round.mk true true false).bad = true := rfl
              simp only [Bool.not_true, Bool.false_eq_true, if_false]
              split
              · rename_i first
                refine ⟨by simpa [rest] using Nat.le_of_lt_succ first,
                  fun _ => ⟨_, _, rfl, bad⟩, ?_, ?_, ?_⟩
                · simp [rest, WatchPhase.acts]
                · simp [rest]
                · exact fun armed => absurd armed Bool.false_ne_true
              · rename_i second
                have counted : watchdog.failures ≠ 0 := by omega
                rcases keeps.counted counted with ⟨previous, older, rounds, badBefore⟩
                refine ⟨by simp, by simp, ?_, by simp, ?_⟩
                · intro _
                  exact ⟨_, previous, older, by rw [rounds], bad, badBefore⟩
                · intro _
                  apply keeps.permitted
                  rw [armed, attached, enabled, bne_iff_ne.mpr counted]
                  rfl

theorem keeps_requestLater (keeps : watchdog.Keeps current) (uri : String) :
    (watchdog.requestLater uri).Keeps current :=
  keeps.idle rfl rfl rfl rfl

theorem keeps_choose (keeps : watchdog.Keeps current) (acting : watchdog.phase = .acting)
    (nodes : List String) (uri : Option String) : (watchdog.choose nodes uri).Keeps current := by
  unfold choose
  split
  · exact keeps_requestLater keeps _
  · split
    · exact keeps.goesOn (by rw [acting]; rfl) (by rw [acting]; rfl) (by simp) watchdog.state
    · exact keeps.goesOn (by rw [acting]; rfl) (by rw [acting]; rfl) (by simp) watchdog.state

theorem keeps_probed (keeps : watchdog.Keeps current) {candidates : List String}
    {uri : Option String} (probing : watchdog.phase = .probing candidates uri)
    (best : Option String) : (watchdog.probed candidates uri best).Keeps current := by
  unfold probed
  split
  · exact keeps_requestLater keeps _
  · split
    · exact keeps.goesOn (by rw [probing]; rfl) (by rw [probing]; rfl) (by simp) watchdog.state
    · exact keeps

end Watchdog

namespace Kernel

/-- The policy is not disabled under an armed watchdog, and the other two conditions of a round. -/
def Orderly (kernel : Kernel) : KernelEvent → Prop
  | .setPolicy fields =>
      (Failover.setPolicy kernel.policy fields).1.enabled = false →
        ∀ watchdog ∈ kernel.watchdogs, watchdog.armed = false
  | .watch index _ =>
      ∀ watchdog ∈ kernel.watchdogs[index]?,
        (watchdog.phase = .top → kernel.policy.waitSum watchdog.backoff < UInt32.size) ∧
          (watchdog.phase = .attached → watchdog.policy.enabled = false → watchdog.failures = 0)
  | _ => True

instance decidableOrderly (kernel : Kernel) : ∀ event, Decidable (kernel.Orderly event)
  | .setPolicy fields =>
      inferInstanceAs (Decidable ((Failover.setPolicy kernel.policy fields).1.enabled = false →
        ∀ watchdog ∈ kernel.watchdogs, watchdog.armed = false))
  | .watch index _ =>
      inferInstanceAs (Decidable (∀ watchdog ∈ kernel.watchdogs[index]?,
        (watchdog.phase = .top → kernel.policy.waitSum watchdog.backoff < UInt32.size) ∧
          (watchdog.phase = .attached → watchdog.policy.enabled = false → watchdog.failures = 0)))
  | .start _ | .stop | .setNode _ | .advance .. | .setNodeList _ | .onNetworkChanged _ =>
      .isTrue trivial

variable {parses : String → Bool} {kernel : Kernel}

theorem keeps_next {reading : Reading} {watchdog : Watchdog}
    (keeps : watchdog.Keeps kernel.policy)
    (fits : watchdog.phase = .top → kernel.policy.waitSum watchdog.backoff < UInt32.size)
    (fresh : watchdog.phase = .attached → watchdog.policy.enabled = false →
      watchdog.failures = 0) :
    (kernel.next parses reading watchdog).Keeps kernel.policy := by
  unfold next
  split <;> rename_i phase
  · refine ⟨keeps.few, keeps.counted, by simp [WatchPhase.acts], ?_, ?_⟩
    · rintro wait sleeping
      cases sleeping
      exact (toNat_wait_eq_iff _ _).mpr (fits phase)
    · exact Watchdog.enabled_of_armed rfl
  · split
    · exact keeps.goesOn (by rw [phase]; rfl) (by rw [phase]; rfl) (by simp) watchdog.state
    · exact keeps.idle rfl rfl rfl rfl
  · cases kernel.runtime with
    | none => exact keeps.idle rfl rfl rfl rfl
    | some session =>
        exact keeps.goesOn (by rw [phase]; rfl) (by rw [phase]; rfl) (by simp) (some session)
  · exact Watchdog.keeps_judge keeps phase (fresh phase)
  · exact Watchdog.keeps_choose keeps phase _ _
  · exact Watchdog.keeps_probed keeps phase _
  · exact keeps.idle rfl rfl rfl rfl
  · unfold Watchdog.build
    split
    · exact keeps.goesOn (by rw [phase]; rfl) (by rw [phase]; rfl) (by simp) watchdog.state
    · exact keeps.idle rfl rfl rfl rfl
  · exact keeps.idle rfl rfl rfl rfl
  · exact keeps.idle rfl rfl rfl rfl
  · exact keeps.idle rfl rfl rfl rfl
  · exact keeps

/--
A switch has come after two bad rounds in a row while the policy was enabled, and
every wait is the sum that it is meant to be, of five seconds at least.
-/
def SwitchesOrderly (kernel : Kernel) : Prop :=
  (∀ deed ∈ kernel.deeds, ∀ session uri, deed.act = .swapped session uri →
      deed.enabled = true ∧ lastTwoBad deed.rounds) ∧
    ∀ watchdog ∈ kernel.watchdogs, ∀ wait, watchdog.phase = .sleeping wait →
      5 ≤ wait.toNat ∧ wait.toNat = watchdog.policy.waitSum watchdog.backoff

structure Disciplined (kernel : Kernel) : Prop where
  switches : ∀ deed ∈ kernel.deeds, ∀ session uri, deed.act = .swapped session uri →
    deed.enabled = true ∧ lastTwoBad deed.rounds
  keeps : ∀ watchdog ∈ kernel.watchdogs, watchdog.Keeps kernel.policy

theorem Disciplined.orderly (disciplined : kernel.Disciplined) : kernel.SwitchesOrderly := by
  refine ⟨disciplined.switches, fun watchdog there wait sleeping => ?_⟩
  have sum := (disciplined.keeps watchdog there).waits wait sleeping
  refine ⟨?_, sum⟩
  rw [sum]
  exact five_le_waitSum _ _

theorem disciplined_new : Kernel.new.Disciplined :=
  ⟨by simp [new], by simp [new]⟩

theorem disciplined_advance (disciplined : kernel.Disciplined) (index : ℕ) (succeeds : Bool)
    (call : Call) : (kernel.advance parses index succeeds call).Disciplined := by
  rcases advance_frame parses kernel index succeeds call with ⟨policy, deeds⟩
  refine ⟨by rw [deeds]; exact disciplined.switches, ?_⟩
  rw [policy]
  rcases advance_watchdogs parses kernel index succeeds call with same | ⟨_, gen, home, _, _, added⟩
  · rw [same]
    exact disciplined.keeps
  · rw [added]
    intro watchdog there
    rcases List.mem_append.mp there with old | new
    · exact disciplined.keeps watchdog old
    · rw [List.mem_singleton.mp new]
      exact Watchdog.keeps_new _ _ _

/-- A watchdog swaps the engine only in the phase in which it is armed. -/
theorem acts_of_swaps {watchdog : Watchdog} {session : ℕ} {uri : String}
    (swaps : watchdog.act? = some (.swapped session uri)) : watchdog.phase.acts = true := by
  unfold Watchdog.act? at swaps
  split at swaps <;> rename_i phase
  · rw [phase]
    rfl
  all_goals simp at swaps

theorem disciplined_watch {index : ℕ} {reading : Reading} {watchdog : Watchdog}
    (disciplined : kernel.Disciplined) (found : kernel.watchdogs[index]? = some watchdog)
    (fits : watchdog.phase = .top → kernel.policy.waitSum watchdog.backoff < UInt32.size)
    (fresh : watchdog.phase = .attached → watchdog.policy.enabled = false →
      watchdog.failures = 0) :
    (kernel.watch parses index reading watchdog).Disciplined := by
  have keeps := disciplined.keeps watchdog (List.mem_of_getElem? found)
  unfold watch
  split
  · exact disciplined
  · rcases perform_frame kernel watchdog with ⟨policy, -, -, watchdogs⟩
    constructor
    · intro deed there session uri swapped
      rcases mem_perform_deeds there with before | ⟨acts, -, -, enabled, rounds⟩
      · exact disciplined.switches deed before session uri swapped
      · rw [swapped] at acts
        have acting := acts_of_swaps acts
        rw [enabled, rounds]
        exact ⟨keeps.permitted (by simp [Watchdog.armed, acting]), keeps.twice acting⟩
    · intro other there
      change other ∈ (kernel.perform watchdog).watchdogs.set index _ at there
      change other.Keeps (kernel.perform watchdog).policy
      rw [watchdogs] at there
      rw [policy]
      rcases List.mem_or_eq_of_mem_set there with before | rfl
      · exact disciplined.keeps other before
      · exact keeps_next keeps fits fresh

theorem disciplined_step {event : KernelEvent} (disciplined : kernel.Disciplined)
    (orderly : kernel.Orderly event) : (kernel.step parses event).Disciplined := by
  cases event with
  | advance index succeeds =>
      simp only [step]
      cases found : kernel.calls[index]? with
      | none => exact disciplined
      | some call => exact disciplined_advance disciplined index succeeds call
  | watch index reading =>
      simp only [step]
      cases found : kernel.watchdogs[index]? with
      | none => exact disciplined
      | some watchdog =>
          rcases orderly watchdog found with ⟨fits, fresh⟩
          exact disciplined_watch disciplined found fits fresh
  | setPolicy fields =>
      refine ⟨disciplined.switches, fun watchdog there => ?_⟩
      have keeps := disciplined.keeps watchdog there
      refine { keeps with permitted := fun armed => ?_ }
      by_contra disabled
      rw [orderly (Bool.eq_false_of_not_eq_true disabled) watchdog there] at armed
      cases armed
  | start | stop | setNode | setNodeList | onNetworkChanged =>
      exact ⟨disciplined.switches, disciplined.keeps⟩

end Kernel

/--
The watchdog switches only after two bad rounds in a row and under an enabled
policy, and waits for five seconds at least, in every run whose policies and
rounds meet the conditions of `Orderly`.
-/
theorem switching_orderly (parses : String → Bool) {events : List KernelEvent}
    (orderly : Along (Kernel.step parses) Kernel.Orderly Kernel.new events) :
    Throughout (Kernel.step parses) Kernel.SwitchesOrderly Kernel.new events :=
  throughout_of_along Kernel.Disciplined Kernel.Disciplined.orderly Kernel.disciplined_step orderly
    Kernel.disciplined_new

/-- Two bad rounds in a row and the switch that follows, under the policy sent at the start. -/
theorem switching_orderly_twice_bad :
    Throughout (Kernel.step fun _ => true) Kernel.SwitchesOrderly Kernel.new
      ([KernelEvent.start "a", .setPolicy (some ⟨some "next", none, none, none, some true⟩),
          .setNodeList (some ["a", "b"]), .onNetworkChanged true] ++
        List.replicate 6 (KernelEvent.advance 0 true) ++
        List.replicate 13 (KernelEvent.watch 0 ⟨false, none, true⟩)) :=
  switching_orderly (fun _ => true) (by decide +kernel)

/--
A round under a disabled policy between two bad ones, a policy which is disabled
after it was read for the round, and a sum of interval and back-off that wraps.
-/
theorem switching_not_orderly :
    let policy (enabled : Bool) (interval : UInt32) : KernelEvent :=
      .setPolicy (some ⟨some "next", some interval, some 5, none, some enabled⟩)
    let started : List KernelEvent :=
      [KernelEvent.start "a", policy true 15, .setNodeList (some ["a", "b"]),
          .onNetworkChanged true] ++
        List.replicate 6 (KernelEvent.advance 0 true)
    let rounds (count : ℕ) : List KernelEvent :=
      List.replicate count (.watch 0 ⟨false, none, true⟩)
    let skipped :=
      started ++ rounds 4 ++ [policy false 15] ++ rounds 4 ++ [policy true 15] ++ rounds 7
    let late := started ++ rounds 6 ++ [policy false 15] ++ rounds 5
    let wrapped := started ++ [policy true 4294967295] ++ rounds 1
    ¬ (run (Kernel.step fun _ => true) Kernel.new skipped).SwitchesOrderly ∧
      ¬ (run (Kernel.step fun _ => true) Kernel.new late).SwitchesOrderly ∧
      ¬ (run (Kernel.step fun _ => true) Kernel.new wrapped).SwitchesOrderly := by
  refine ⟨?_, ?_, ?_⟩
  · rintro ⟨switches, -⟩
    have orderly := switches ⟨.swapped 0 "b", 0, some 0, true,
      [⟨true, true, false⟩, ⟨false, true, false⟩, ⟨true, true, false⟩]⟩
      (by decide +kernel) 0 "b" rfl
    rcases orderly.2 with ⟨last, previous, rest, rounds, -, bad⟩
    simp only [List.cons.injEq] at rounds
    rw [← rounds.2.1] at bad
    cases bad
  · rintro ⟨switches, -⟩
    have orderly := switches ⟨.swapped 0 "b", 0, some 0, false,
      [⟨true, true, false⟩, ⟨true, true, false⟩]⟩ (by decide +kernel) 0 "b" rfl
    cases orderly.1
  · rintro ⟨-, waits⟩
    have wait := waits ⟨1, 0, ⟨"next", 4294967295, 5, 3000, true⟩, 0, 0, none, .sleeping 4, []⟩
      (by decide +kernel) 4 rfl
    exact absurd wait.1 (by decide)

end Mirage.Jni
