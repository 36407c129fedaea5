import Mirage.Jni

/-!
# Who drops a runtime last

A watchdog runs on the runtime of its session and keeps a reference to it until
it ends.  It ends when it wakes to another generation or finds no session
installed.  The runtime is never dropped by a task exactly if, at each such end,
someone else still holds a reference: the installed session, a call which is not
over, or another watchdog.  After a `stop` which has returned nobody does.
-/

namespace Mirage.Jni

open Mirage.Failover Mirage.Foundations

/-- Outside a round a watchdog has no clone of the installed session. -/
def Watchdog.Detached (watchdog : Watchdog) : Prop :=
  match watchdog.phase with
  | .top | .sleeping _ | .woken | .exited => watchdog.state = none
  | _ => True

namespace Kernel

/-- Someone other than the watchdog holds a reference to the runtime of the session. -/
def heldElsewhere (kernel : Kernel) (index session : ℕ) : Bool :=
  kernel.runtime == some session ||
    kernel.calls.any (fun call => call.session? == some session) ||
    (kernel.watchdogs.eraseIdx index).any (fun watchdog => watchdog.holds session)

/-- A second bad round in a row goes on to act, any other round is over when it is judged. -/
def roundEnds (kernel : Kernel) (healthy : Bool) (watchdog : Watchdog) : Bool :=
  watchdog.failures == 0 ||
    !(Round.mk watchdog.policy.enabled kernel.hasInternet healthy).bad

/--
The sessions whose runtimes the watchdog gives up with its next step: its own
when it ends, and a clone of another one at the end of a round.
-/
def leaves (kernel : Kernel) (reading : Reading) (watchdog : Watchdog) : List ℕ :=
  match watchdog.phase with
  | .sleeping _ => if kernel.watchdogGen = watchdog.gen then [] else [watchdog.home]
  | .woken => if kernel.runtime = none then [watchdog.home] else []
  | .attached =>
      if kernel.roundEnds reading.healthy watchdog then
        watchdog.state.toList.filter (· != watchdog.home)
      else []
  | .emitting _ _ => watchdog.state.toList.filter (· != watchdog.home)
  | _ => []

/-- What a watchdog gives up is held by someone else. -/
def Sheltered (kernel : Kernel) : KernelEvent → Prop
  | .watch index reading =>
      ∀ watchdog ∈ kernel.watchdogs[index]?, ∀ session ∈ kernel.leaves reading watchdog,
        kernel.heldElsewhere index session = true
  | _ => True

theorem panicked_update {base : Kernel} {index : ℕ} {old new : Watchdog}
    (found : base.watchdogs[index]? = some old) :
    (base.update index old new).panicked = false ↔
      base.panicked = false ∧ ∀ session ∈ old.home :: old.state.toList,
        new.holds session = false → base.heldElsewhere index session = true := by
  have held (session : ℕ) :
      { base with watchdogs := base.watchdogs.set index new }.held session =
        (new.holds session || base.heldElsewhere index session) := by
    simp only [Kernel.held, heldElsewhere, any_set found]
    exact Bool.or_left_comm _ _ _
  simp only [update, held, Bool.or_eq_false_iff, List.any_eq_false, Bool.not_eq_true,
    Bool.not_eq_false']
  apply and_congr_right
  intro _
  apply forall₂_congr
  intro session _
  cases new.holds session <;> simp

end Kernel

namespace Watchdog

variable {watchdog next : Watchdog}

theorem detached_new (gen : UInt64) (home : ℕ) : (new gen home).Detached := rfl

/-- A step which is not the end of a round or of the watchdog drops nothing. -/
theorem holds_of_kept (home : next.home = watchdog.home) (runs : next.exited = false)
    (state : next.state = watchdog.state) {session : ℕ}
    (held : session ∈ watchdog.home :: watchdog.state.toList) : next.holds session = true := by
  rcases List.mem_cons.mp held with rfl | clone
  · simp [holds, runs, home]
  · simp [holds, runs, state, Option.mem_toList.mp clone]

/-- The end of a round drops the clone of the session, which matters if it is another one. -/
theorem dropped_clone (home : next.home = watchdog.home) (runs : next.exited = false)
    (alone : next.state = none) (session : ℕ) :
    session ∈ watchdog.state.toList.filter (· != watchdog.home) ↔
      session ∈ watchdog.home :: watchdog.state.toList ∧ next.holds session = false := by
  by_cases own : session = watchdog.home
  · simp [own, holds, runs, alone, home]
  · simp [own, Ne.symm own, holds, runs, alone, home]

theorem dropped_exit (attached : watchdog.state = none) (session : ℕ) :
    session ∈ [watchdog.home] ↔
      session ∈ watchdog.home :: watchdog.state.toList ∧
        watchdog.exit.holds session = false := by
  simp [attached, exit, holds, exited]

/-- A round which is not the second bad one in a row is over. -/
theorem judge_rests (watchdog : Watchdog) {round : Round}
    (ends : (watchdog.failures == 0 || !round.bad) = true) :
    (watchdog.judge round).state = none ∧ (watchdog.judge round).phase = .top := by
  unfold judge
  split
  · exact ⟨rfl, rfl⟩
  · split
    · exact ⟨rfl, rfl⟩
    · split
      · exact ⟨rfl, rfl⟩
      · split
        · exact ⟨rfl, rfl⟩
        · simp_all [Round.bad]

theorem judge_acts (watchdog : Watchdog) {round : Round}
    (acts : (watchdog.failures == 0 || !round.bad) = false) :
    (watchdog.judge round).state = watchdog.state ∧
      (watchdog.judge round).phase = .acting := by
  have counted : ¬ watchdog.failures + 1 < 2 := by
    simp at acts
    omega
  have bad : round.enabled = true ∧ round.online = true ∧ round.healthy = false := by
    simpa [Round.bad, and_assoc] using (Bool.or_eq_false_iff.mp acts).2
  simp [judge, bad, counted]

/-- Whatever is chosen, the round goes on with its session. -/
theorem choose_goesOn (watchdog : Watchdog) (nodes : List String) (current : Option String) :
    (watchdog.choose nodes current).state = watchdog.state ∧
      (watchdog.choose nodes current).exited = false ∧
      (watchdog.choose nodes current).Detached := by
  unfold choose
  split
  · exact ⟨rfl, rfl, trivial⟩
  · split <;> exact ⟨rfl, rfl, trivial⟩

theorem probed_goesOn {candidates : List String} {current : Option String}
    (probing : watchdog.phase = .probing candidates current) (best : Option String) :
    (watchdog.probed candidates current best).state = watchdog.state ∧
      (watchdog.probed candidates current best).exited = false ∧
      (watchdog.probed candidates current best).Detached := by
  unfold probed
  split
  · exact ⟨rfl, rfl, trivial⟩
  · split
    · exact ⟨rfl, rfl, trivial⟩
    · exact ⟨rfl, by simp [exited, probing], by simp [Detached, probing]⟩

theorem build_goesOn (watchdog : Watchdog) (uri : String) (builds : Bool) :
    (watchdog.build uri builds).state = watchdog.state ∧
      (watchdog.build uri builds).exited = false ∧ (watchdog.build uri builds).Detached := by
  unfold build
  split <;> exact ⟨rfl, rfl, trivial⟩

end Watchdog

namespace Kernel

variable {parses : String → Bool} {kernel : Kernel}

/-- What a watchdog holds before its step and not after it is what it gives up. -/
theorem mem_leaves_iff (parses : String → Bool) {reading : Reading} {watchdog : Watchdog}
    (detached : watchdog.Detached) (runs : watchdog.exited = false) (session : ℕ) :
    session ∈ kernel.leaves reading watchdog ↔
      session ∈ watchdog.home :: watchdog.state.toList ∧
        (kernel.next parses reading watchdog).holds session = false := by
  have keeps (nothing : kernel.leaves reading watchdog = [])
      (same : (kernel.next parses reading watchdog).state = watchdog.state)
      (goesOn : (kernel.next parses reading watchdog).exited = false) :
      session ∈ kernel.leaves reading watchdog ↔
        session ∈ watchdog.home :: watchdog.state.toList ∧
          (kernel.next parses reading watchdog).holds session = false := by
    rw [nothing]
    refine iff_of_false List.not_mem_nil ?_
    rintro ⟨held, dropped⟩
    rw [Watchdog.holds_of_kept (next_home ..) goesOn same held] at dropped
    cases dropped
  cases phase : watchdog.phase with
  | top =>
      exact keeps (by simp [leaves, phase]) (by simp [next, phase])
        (by simp [next, phase, Watchdog.exited])
  | sleeping wait =>
      have alone : watchdog.state = none := by simpa [Watchdog.Detached, phase] using detached
      by_cases current : kernel.watchdogGen = watchdog.gen
      · exact keeps (by simp [leaves, phase, current]) (by simp [next, phase, current])
          (by simp [next, phase, current, Watchdog.exited])
      · simp only [leaves, next, phase, current, if_false]
        exact Watchdog.dropped_exit alone session
  | woken =>
      have alone : watchdog.state = none := by simpa [Watchdog.Detached, phase] using detached
      cases installed : kernel.runtime with
      | none =>
          simp only [leaves, next, phase, installed, if_true]
          exact Watchdog.dropped_exit alone session
      | some current =>
          have nothing : kernel.leaves reading watchdog = [] := by simp [leaves, phase, installed]
          rw [nothing]
          refine iff_of_false List.not_mem_nil ?_
          rintro ⟨held, dropped⟩
          have own : session = watchdog.home := by simpa [alone] using held
          simp [next, phase, installed, Watchdog.holds, Watchdog.exited, own] at dropped
  | attached =>
      cases ends : kernel.roundEnds reading.healthy watchdog with
      | true =>
          rcases watchdog.judge_rests ends with ⟨alone, finished⟩
          simp only [leaves, phase, ends, if_true]
          apply Watchdog.dropped_clone (next_home ..)
          · simp [next, phase, Watchdog.exited, finished]
          · simpa only [next, phase] using alone
      | false =>
          rcases watchdog.judge_acts ends with ⟨same, acting⟩
          refine keeps (by simp [leaves, phase, ends]) ?_ ?_
          · simpa only [next, phase] using same
          · simp [next, phase, Watchdog.exited, acting]
  | acting =>
      rcases watchdog.choose_goesOn kernel.nodes kernel.currentNodeUri with ⟨same, goesOn, _⟩
      refine keeps (by simp [leaves, phase]) ?_ ?_
      · simpa only [next, phase] using same
      · simpa only [next, phase] using goesOn
  | probing candidates current =>
      rcases Watchdog.probed_goesOn phase reading.best with ⟨same, goesOn, _⟩
      refine keeps (by simp [leaves, phase]) ?_ ?_
      · simpa only [next, phase] using same
      · simpa only [next, phase] using goesOn
  | switching uri =>
      rcases watchdog.build_goesOn uri (parses uri && reading.builds) with ⟨same, goesOn, _⟩
      refine keeps (by simp [leaves, phase]) ?_ ?_
      · simpa only [next, phase] using same
      · simpa only [next, phase] using goesOn
  | delaying uri | built uri | swapped uri =>
      exact keeps (by simp [leaves, phase]) (by simp [next, phase])
        (by simp [next, phase, Watchdog.exited])
  | emitting kind uri =>
      simp only [leaves, next, phase]
      apply Watchdog.dropped_clone <;> rfl
  | exited => simp [Watchdog.exited, phase] at runs

theorem detached_next {reading : Reading} {watchdog : Watchdog}
    (detached : watchdog.Detached) : (kernel.next parses reading watchdog).Detached := by
  unfold Watchdog.Detached at detached
  cases phase : watchdog.phase with
  | top => simpa [next, phase, Watchdog.Detached] using detached
  | sleeping wait =>
      simp only [next, phase] at detached ⊢
      split
      · exact detached
      · rfl
  | woken => cases installed : kernel.runtime <;> simp [next, phase, installed, Watchdog.Detached,
      Watchdog.exit]
  | attached =>
      cases ends : kernel.roundEnds reading.healthy watchdog with
      | true =>
          rcases watchdog.judge_rests ends with ⟨alone, finished⟩
          simpa only [next, phase, Watchdog.Detached, finished] using alone
      | false =>
          have acting := (watchdog.judge_acts ends).2
          simp only [next, phase, Watchdog.Detached, acting]
  | acting =>
      simp only [next, phase]
      exact (watchdog.choose_goesOn _ _).2.2
  | probing candidates current =>
      simp only [next, phase]
      exact (Watchdog.probed_goesOn phase reading.best).2.2
  | switching uri =>
      simp only [next, phase]
      exact (watchdog.build_goesOn uri _).2.2
  | delaying uri | built uri | swapped uri => simp [next, phase, Watchdog.Detached]
  | emitting kind uri => simp [next, phase, Watchdog.Detached, Watchdog.rest]
  | exited => simpa [next, phase, Watchdog.Detached] using detached

def AllDetached (kernel : Kernel) : Prop := ∀ watchdog ∈ kernel.watchdogs, watchdog.Detached

theorem allDetached_step (event : KernelEvent) (detached : kernel.AllDetached) :
    (kernel.step parses event).AllDetached := by
  cases event with
  | advance index succeeds =>
      simp only [step]
      cases found : kernel.calls[index]? with
      | none => exact detached
      | some call =>
          simp only [Option.elim_some, AllDetached]
          rcases advance_watchdogs parses kernel index succeeds call with
            same | ⟨_, gen, home, _, _, added⟩
          · rw [same]
            exact detached
          · rw [added]
            intro watchdog there
            rcases List.mem_append.mp there with before | new
            · exact detached watchdog before
            · rw [List.mem_singleton.mp new]
              exact Watchdog.detached_new gen home
  | watch index reading =>
      simp only [step]
      cases found : kernel.watchdogs[index]? with
      | none => exact detached
      | some watchdog =>
          simp only [Option.elim_some, watch]
          split
          · exact detached
          · intro other there
            change other ∈ (kernel.perform watchdog).watchdogs.set index _ at there
            rw [(perform_frame kernel watchdog).2.2.2] at there
            rcases List.mem_or_eq_of_mem_set there with before | rfl
            · exact detached other before
            · exact detached_next (detached watchdog (List.mem_of_getElem? found))
  | start | stop | setNode | setPolicy | setNodeList | onNetworkChanged => exact detached

theorem advance_panicked (index : ℕ) (succeeds : Bool) (call : Call) :
    (kernel.advance parses index succeeds call).panicked = kernel.panicked := by
  cases call with
  | startEntered uri => simp only [advance]; split <;> rfl
  | startWrote uri => simp only [advance]; split <;> rfl
  | startBumped session gen => simp only [advance, spawnWatchdog]; split <;> rfl
  | _ => rfl

theorem perform_panicked (watchdog : Watchdog) :
    (kernel.perform watchdog).panicked = kernel.panicked := by
  unfold perform
  cases watchdog.act? with
  | none => rfl
  | some act => cases act <;> rfl

/-- No task has dropped the last reference to a runtime. -/
def Intact (kernel : Kernel) : Prop := kernel.panicked = false

/-- One step panics in a task exactly if a watchdog gives up what nobody else holds. -/
theorem intact_step (event : KernelEvent) (detached : kernel.AllDetached) :
    (kernel.step parses event).Intact ↔ kernel.Intact ∧ kernel.Sheltered event := by
  unfold Intact
  cases event with
  | advance index succeeds =>
      simp only [step, Sheltered, and_true]
      cases found : kernel.calls[index]? with
      | none => rfl
      | some call => rw [Option.elim_some, advance_panicked]
  | watch index reading =>
      simp only [step, Sheltered]
      cases found : kernel.watchdogs[index]? with
      | none => simp
      | some watchdog =>
          have apart := detached watchdog (List.mem_of_getElem? found)
          simp only [Option.elim_some, watch, Option.mem_def, Option.some.injEq, forall_eq']
          cases ended : watchdog.exited with
          | true =>
              have exited : watchdog.phase = .exited := by simpa [Watchdog.exited] using ended
              simp [leaves, exited]
          | false =>
              rcases perform_frame kernel watchdog with ⟨-, runtime, calls, watchdogs⟩
              have elsewhere (session : ℕ) : (kernel.perform watchdog).heldElsewhere index session =
                  kernel.heldElsewhere index session := by
                simp only [heldElsewhere, runtime, calls, watchdogs]
              simp only [Bool.false_eq_true, if_false]
              rw [panicked_update (by rw [watchdogs, found]), perform_panicked]
              simp only [elsewhere]
              apply and_congr_right
              intro _
              constructor
              · intro all session given
                rcases (mem_leaves_iff parses apart ended session).mp given with ⟨held, dropped⟩
                exact all session held dropped
              · intro sheltered session held dropped
                exact sheltered session
                  ((mem_leaves_iff parses apart ended session).mpr ⟨held, dropped⟩)
  | start | stop | setNode | setPolicy | setNodeList | onNetworkChanged =>
      exact (and_iff_left trivial).symm

end Kernel

end Mirage.Jni
