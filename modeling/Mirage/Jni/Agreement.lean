import Mirage.Jni

/-!
# The current URI and the installed engine

`setNode`, `start` and the watchdog each write the current URI and the engine in
two separate steps.  While one of them is between its two steps the other value
is owed.  If every second step finds what the first one left, and no `setNode`
fails after its write, then the two agree whenever nothing is owed.

The code checks none of this: a `setNode` which finds no session, or which runs
next to another writer, leaves the current URI of an engine that is not there.
-/

namespace Mirage.Jni

open Mirage.Failover Mirage.Foundations

/-- The call has changed the current URI, and the engine is still to follow. -/
def Call.owes : Call → Bool
  | .startWrote _ => true
  | .setNodeWrote _ changed | .setNodeAttached _ changed _ | .setNodeBuilt _ changed _ => changed
  | _ => false

/-- The URI which the watchdog still has to write: it has swapped the engine already. -/
def Watchdog.owed? (watchdog : Watchdog) : Option String :=
  match watchdog.phase with
  | .swapped uri => some uri
  | _ => none

def Watchdog.owes (watchdog : Watchdog) : Bool := watchdog.owed?.isSome

namespace Kernel

/-- If an engine is installed, the current URI is the one it was built from. -/
def Agrees (kernel : Kernel) : Prop :=
  kernel.runtime.isSome = true → kernel.currentNodeUri = kernel.installedUri

instance (kernel : Kernel) : Decidable kernel.Agrees :=
  inferInstanceAs (Decidable (_ → _))

/-- No call is in progress and no watchdog is in the middle of its switch. -/
def Quiescent (kernel : Kernel) : Prop :=
  (∀ call ∈ kernel.calls, call.ended = true) ∧
    ∀ watchdog ∈ kernel.watchdogs, watchdog.owes = false

instance (kernel : Kernel) : Decidable kernel.Quiescent :=
  inferInstanceAs (Decidable (_ ∧ _))

/-- A failed `setNode` has changed nothing, and in quiescence the two copies agree. -/
def SetNodeAtomic (kernel : Kernel) : Prop :=
  .setNodeFailed true ∉ kernel.calls ∧ (kernel.Quiescent → kernel.Agrees)

/-- The step of a call which has written the current URI finds what it relies on. -/
def CallAgreeing (kernel : Kernel) (succeeds : Bool) : Call → Prop
  | .startWrote uri =>
      if succeeds then kernel.currentNodeUri = some uri else kernel.Agrees
  | .setNodeWrote _ changed => changed = true → kernel.runtime.isSome = true
  | .setNodeAttached _ changed _ => changed = true → succeeds = true
  | .setNodeBuilt uri _ session =>
      kernel.runtime.isSome = true →
        kernel.currentNodeUri =
          if kernel.runtime = some session then some uri else kernel.installedUri
  | _ => True

instance decidableCallAgreeing (kernel : Kernel) (succeeds : Bool) :
    ∀ call, Decidable (kernel.CallAgreeing succeeds call)
  | .startWrote uri =>
      inferInstanceAs (Decidable
        (if succeeds then kernel.currentNodeUri = some uri else kernel.Agrees))
  | .setNodeWrote _ changed =>
      inferInstanceAs (Decidable (changed = true → kernel.runtime.isSome = true))
  | .setNodeAttached _ changed _ =>
      inferInstanceAs (Decidable (changed = true → succeeds = true))
  | .setNodeBuilt uri _ session =>
      inferInstanceAs (Decidable (kernel.runtime.isSome = true → kernel.currentNodeUri =
        if kernel.runtime = some session then some uri else kernel.installedUri))
  | .startChecked _ | .startEntered _ | .startInstalled _ | .startBumped .. | .startTail _
  | .startFailed | .stopTaken _ | .stopDropped | .setNodeParsed _ | .setNodeFailed _ | .returned =>
      .isTrue trivial

def Agreeing (kernel : Kernel) : KernelEvent → Prop
  | .advance index succeeds =>
      ∀ call ∈ kernel.calls[index]?, kernel.CallAgreeing succeeds call
  | .watch index _ =>
      ∀ watchdog ∈ kernel.watchdogs[index]?, ∀ uri ∈ watchdog.owed?,
        kernel.runtime.isSome = true → kernel.installedUri = some uri
  | _ => True

instance decidableAgreeing (kernel : Kernel) : ∀ event, Decidable (kernel.Agreeing event)
  | .advance index succeeds =>
      inferInstanceAs (Decidable (∀ call ∈ kernel.calls[index]?, kernel.CallAgreeing succeeds call))
  | .watch index _ =>
      inferInstanceAs (Decidable (∀ watchdog ∈ kernel.watchdogs[index]?, ∀ uri ∈ watchdog.owed?,
        kernel.runtime.isSome = true → kernel.installedUri = some uri))
  | .start _ | .stop | .setNode _ | .setPolicy _ | .setNodeList _ | .onNetworkChanged _ =>
      .isTrue trivial

def Owing (kernel : Kernel) : Prop :=
  (∃ call ∈ kernel.calls, call.owes = true) ∨ ∃ watchdog ∈ kernel.watchdogs, watchdog.owes = true

/-- A session is installed only after it was created, and a disagreement is owed by someone. -/
structure Settled (kernel : Kernel) : Prop where
  created : ∀ session ∈ kernel.runtime, session < kernel.engines.length
  noFailure : .setNodeFailed true ∉ kernel.calls
  agrees : kernel.Agrees ∨ kernel.Owing

theorem Settled.atomic {kernel : Kernel} (settled : kernel.Settled) : kernel.SetNodeAtomic := by
  refine ⟨settled.noFailure, fun quiescent => settled.agrees.resolve_right ?_⟩
  rintro (⟨call, there, owes⟩ | ⟨watchdog, there, owes⟩)
  · have ended := quiescent.1 call there
    cases call <;> simp [Call.ended, Call.owes] at ended owes
  · rw [quiescent.2 watchdog there] at owes
    cases owes

section Steps

variable {kernel base : Kernel} {index : ℕ}

theorem agrees_of_same (runtime : base.runtime = kernel.runtime)
    (current : base.currentNodeUri = kernel.currentNodeUri)
    (engines : base.engines = kernel.engines) (agrees : kernel.Agrees) : base.Agrees := by
  unfold Agrees installedUri
  rw [runtime, current, engines]
  exact agrees

theorem agrees_of_none (stopped : kernel.runtime = none) : kernel.Agrees := by
  intro running
  rw [stopped] at running
  cases running

/--
A call steps: then the two copies agree, the call owes something, or it owed
nothing and has not destroyed the agreement.
-/
theorem Settled.setCall {old new : Call} (settled : kernel.Settled)
    (found : kernel.calls[index]? = some old) (sameCalls : base.calls = kernel.calls)
    (sameWatchdogs : kernel.watchdogs ⊆ base.watchdogs)
    (created : ∀ session ∈ base.runtime, session < base.engines.length)
    (fine : new ≠ .setNodeFailed true)
    (agrees : base.Agrees ∨ new.owes = true ∨
      old.owes = false ∧ (kernel.Agrees → base.Agrees)) :
    (base.setCall index new).Settled where
  created := created
  noFailure there := by
    rcases List.mem_or_eq_of_mem_set there with before | now
    · exact settled.noFailure (sameCalls ▸ before)
    · exact fine now.symm
  agrees := by
    have inside : index < base.calls.length := by
      rw [sameCalls]
      exact (List.getElem?_eq_some_iff.mp found).1
    rcases agrees with agrees | owes | ⟨free, kept⟩
    · exact Or.inl agrees
    · exact Or.inr (Or.inl ⟨new, List.mem_set inside new, owes⟩)
    · refine settled.agrees.imp kept fun owing => ?_
      rcases owing with ⟨call, there, owes⟩ | ⟨watchdog, there, owes⟩
      · have different : call ≠ old := by
          rintro rfl
          rw [free] at owes
          cases owes
        rw [← sameCalls] at found there
        exact Or.inl ⟨call, mem_set_of_ne found there different new, owes⟩
      · exact Or.inr ⟨watchdog, sameWatchdogs there, owes⟩

theorem Settled.update {old new : Watchdog} (settled : kernel.Settled)
    (found : kernel.watchdogs[index]? = some old) (sameCalls : base.calls = kernel.calls)
    (sameWatchdogs : base.watchdogs = kernel.watchdogs)
    (created : ∀ session ∈ base.runtime, session < base.engines.length)
    (agrees : base.Agrees ∨ new.owes = true ∨
      old.owes = false ∧ (kernel.Agrees → base.Agrees)) :
    (base.update index old new).Settled where
  created := created
  noFailure there := settled.noFailure (sameCalls ▸ there)
  agrees := by
    have inside : index < base.watchdogs.length := by
      rw [sameWatchdogs]
      exact (List.getElem?_eq_some_iff.mp found).1
    rcases agrees with agrees | owes | ⟨free, kept⟩
    · exact Or.inl agrees
    · exact Or.inr (Or.inr ⟨new, List.mem_set inside new, owes⟩)
    · refine settled.agrees.imp kept fun owing => ?_
      rcases owing with ⟨call, there, owes⟩ | ⟨watchdog, there, owes⟩
      · exact Or.inl ⟨call, by rw [← sameCalls] at there; exact there, owes⟩
      · have different : watchdog ≠ old := by
          rintro rfl
          rw [free] at owes
          cases owes
        rw [← sameWatchdogs] at found there
        exact Or.inr ⟨watchdog, mem_set_of_ne found there different new, owes⟩

theorem Settled.call {new : Call} (settled : kernel.Settled) (sameCalls : base.calls = kernel.calls)
    (sameWatchdogs : base.watchdogs = kernel.watchdogs)
    (created : ∀ session ∈ base.runtime, session < base.engines.length)
    (fine : new ≠ .setNodeFailed true) (kept : kernel.Agrees → base.Agrees) :
    (base.call new).Settled where
  created := created
  noFailure there := by
    rcases List.mem_append.mp there with before | now
    · exact settled.noFailure (sameCalls ▸ before)
    · exact fine (List.mem_singleton.mp now).symm
  agrees := by
    refine settled.agrees.imp kept fun owing => ?_
    rcases owing with ⟨call, there, owes⟩ | ⟨watchdog, there, owes⟩
    · exact Or.inl ⟨call, List.mem_append_left _ (sameCalls ▸ there), owes⟩
    · exact Or.inr ⟨watchdog, by rw [← sameWatchdogs] at there; exact there, owes⟩

end Steps

variable {parses : String → Bool} {kernel : Kernel}

/-- After a swap into another session nothing has changed, after one into its own it must agree. -/
theorem agrees_setEngine {uri : String} {session : ℕ}
    (created : ∀ session ∈ kernel.runtime, session < kernel.engines.length)
    (current : kernel.runtime.isSome = true → kernel.currentNodeUri =
      if kernel.runtime = some session then some uri else kernel.installedUri) :
    (kernel.setEngine session uri).Agrees := by
  intro running
  change kernel.runtime.isSome = true at running
  change kernel.currentNodeUri = (kernel.setEngine session uri).installedUri
  rw [current running]
  split
  · rename_i installed
    have inside := created session installed
    simp [installedUri, setEngine, installed, inside]
  · rename_i other
    cases installed : kernel.runtime with
    | none => simp [installed] at running
    | some found =>
        have different : session ≠ found := fun same => other (by rw [installed, same])
        simp [installedUri, setEngine, installed, different]

theorem settled_advance {index : ℕ} {succeeds : Bool} {call : Call} (settled : kernel.Settled)
    (found : kernel.calls[index]? = some call) (agreeing : kernel.CallAgreeing succeeds call) :
    (kernel.advance parses index succeeds call).Settled := by
  have plain {base : Kernel} {new : Call} (free : call.owes = false)
      (same : base.calls = kernel.calls)
      (watchdogs : kernel.watchdogs ⊆ base.watchdogs) (runtime : base.runtime = kernel.runtime)
      (current : base.currentNodeUri = kernel.currentNodeUri)
      (engines : base.engines = kernel.engines) (fine : new ≠ .setNodeFailed true) :
      (base.setCall index new).Settled :=
    settled.setCall found same watchdogs (by rw [runtime, engines]; exact settled.created) fine
      (Or.inr (Or.inr ⟨free, agrees_of_same runtime current engines⟩))
  cases call with
  | startChecked uri => exact plain rfl rfl (List.Subset.refl _) rfl rfl rfl (by simp)
  | startEntered uri =>
      simp only [advance]
      split
      · exact settled.setCall found rfl (List.Subset.refl _) settled.created (by simp)
          (Or.inr (Or.inl rfl))
      · exact plain rfl rfl (List.Subset.refl _) rfl rfl rfl (by simp)
  | startWrote uri =>
      simp only [advance]
      simp only [CallAgreeing] at agreeing
      split
      · rename_i installs
        rw [if_pos installs] at agreeing
        refine settled.setCall found rfl (List.Subset.refl _) ?_ (by simp) (Or.inl ?_)
        · simp [install]
        · intro _
          simp [installedUri, install, agreeing]
      · rename_i fails
        rw [if_neg fails] at agreeing
        exact settled.setCall found rfl (List.Subset.refl _) settled.created (by simp)
          (Or.inl agreeing)
  | startInstalled session => exact plain rfl rfl (List.Subset.refl _) rfl rfl rfl (by simp)
  | startBumped session gen =>
      simp only [advance, spawnWatchdog]
      split
      · exact plain rfl rfl (List.subset_append_left _ _) rfl rfl rfl (by simp)
      · exact plain rfl rfl (List.Subset.refl _) rfl rfl rfl (by simp)
  | startTail session => exact plain rfl rfl (List.Subset.refl _) rfl rfl rfl (by simp)
  | stopTaken session => exact plain rfl rfl (List.Subset.refl _) rfl rfl rfl (by simp)
  | stopDropped => exact plain rfl rfl (List.Subset.refl _) rfl rfl rfl (by simp)
  | setNodeParsed uri =>
      refine settled.setCall found rfl (List.Subset.refl _) settled.created (by simp) ?_
      by_cases same : kernel.currentNodeUri = some uri
      · exact Or.inr (Or.inr ⟨rfl, agrees_of_same rfl same.symm rfl⟩)
      · exact Or.inr (Or.inl (by simp [Call.owes, same]))
  | setNodeWrote uri changed =>
      simp only [advance]
      cases running : kernel.runtime with
      | none =>
          have unchanged : changed = false := by
            simpa [CallAgreeing, running] using agreeing
          exact settled.setCall found rfl (List.Subset.refl _) settled.created
            (by simp [unchanged]) (Or.inl (agrees_of_none running))
      | some session =>
          refine settled.setCall found rfl (List.Subset.refl _) settled.created (by simp) ?_
          cases changed
          · exact Or.inr (Or.inr ⟨rfl, id⟩)
          · exact Or.inr (Or.inl rfl)
  | setNodeAttached uri changed session =>
      simp only [advance]
      cases changed
      · exact plain rfl rfl (List.Subset.refl _) rfl rfl rfl (by split <;> simp)
      · rw [if_pos (agreeing rfl)]
        exact settled.setCall found rfl (List.Subset.refl _) settled.created (by simp)
          (Or.inr (Or.inl rfl))
  | setNodeBuilt uri changed session =>
      refine settled.setCall found rfl (List.Subset.refl _) ?_ (by simp) (Or.inl ?_)
      · simpa [setEngine] using settled.created
      · exact agrees_setEngine settled.created agreeing
  | startFailed | setNodeFailed | returned => exact settled

theorem settled_watch {index : ℕ} {reading : Reading} {watchdog : Watchdog}
    (settled : kernel.Settled) (found : kernel.watchdogs[index]? = some watchdog)
    (agreeing : ∀ uri ∈ watchdog.owed?,
      kernel.runtime.isSome = true → kernel.installedUri = some uri) :
    (kernel.watch parses index reading watchdog).Settled := by
  have plain {base : Kernel} {new : Watchdog} (free : watchdog.owes = false)
      (calls : base.calls = kernel.calls) (watchdogs : base.watchdogs = kernel.watchdogs)
      (runtime : base.runtime = kernel.runtime)
      (current : base.currentNodeUri = kernel.currentNodeUri)
      (engines : base.engines = kernel.engines) : (base.update index watchdog new).Settled :=
    settled.update found calls watchdogs (by rw [runtime, engines]; exact settled.created)
      (Or.inr (Or.inr ⟨free, agrees_of_same runtime current engines⟩))
  unfold watch
  split
  · exact settled
  · cases phase : watchdog.phase with
    | built uri =>
        have owes : (kernel.next parses reading watchdog).owes = true := by
          simp [next, phase, Watchdog.owes, Watchdog.owed?]
        cases session : watchdog.state with
        | none =>
            have idle : watchdog.act? = none := by simp [Watchdog.act?, phase, session]
            rw [perform, idle]
            exact settled.update found rfl rfl settled.created (Or.inr (Or.inl owes))
        | some target =>
            have swaps : watchdog.act? = some (.swapped target uri) := by
              simp [Watchdog.act?, phase, session]
            rw [perform, swaps]
            refine settled.update found rfl rfl ?_ (Or.inr (Or.inl owes))
            simpa [apply, record, setEngine] using settled.created
    | swapped uri =>
        rw [perform, Watchdog.act?, phase]
        refine settled.update found rfl rfl settled.created (Or.inl fun running => ?_)
        exact (agreeing uri (by simp [Watchdog.owed?, phase]) running).symm
    | emitting kind uri =>
        rw [perform, Watchdog.act?, phase]
        exact plain (by simp [Watchdog.owes, Watchdog.owed?, phase]) rfl rfl rfl rfl rfl
    | top | sleeping | woken | attached | acting | probing | delaying | switching | exited =>
        rw [perform, Watchdog.act?, phase]
        exact plain (by simp [Watchdog.owes, Watchdog.owed?, phase]) rfl rfl rfl rfl rfl

theorem settled_new : Kernel.new.Settled :=
  ⟨by simp [new], by simp [new], Or.inl (agrees_of_none rfl)⟩

/-- One step, if it finds what it relies on. -/
theorem settled_step {event : KernelEvent} (settled : kernel.Settled)
    (agreeing : kernel.Agreeing event) : (kernel.step parses event).Settled := by
  cases event with
  | start uri =>
      exact settled.call rfl rfl settled.created (by split <;> simp) id
  | stop =>
      exact settled.call rfl rfl (by simp) (by simp) fun _ => agrees_of_none rfl
  | setNode uri => exact settled.call rfl rfl settled.created (by split <;> simp) id
  | advance index succeeds =>
      simp only [step]
      cases found : kernel.calls[index]? with
      | none => exact settled
      | some call => exact settled_advance settled found (agreeing call found)
  | watch index reading =>
      simp only [step]
      cases found : kernel.watchdogs[index]? with
      | none => exact settled
      | some watchdog => exact settled_watch settled found (agreeing watchdog found)
  | setPolicy | setNodeList | onNetworkChanged =>
      exact ⟨settled.created, settled.noFailure, settled.agrees⟩

end Kernel

/--
In every run in which the second step of each writer finds what its first step
left, and no `setNode` fails after its write, a failed `setNode` has changed
nothing and in quiescence the current URI is the installed engine's.
-/
theorem setNode_atomic (parses : String → Bool) {events : List KernelEvent}
    (agreeing : Along (Kernel.step parses) Kernel.Agreeing Kernel.new events) :
    Throughout (Kernel.step parses) Kernel.SetNodeAtomic Kernel.new events :=
  throughout_of_along Kernel.Settled Kernel.Settled.atomic Kernel.settled_step agreeing
    Kernel.settled_new

/-- A start, a change of node and a switch by the watchdog, one after the other. -/
theorem setNode_atomic_sequential :
    Throughout (Kernel.step fun _ => true) Kernel.SetNodeAtomic Kernel.new
      ([KernelEvent.start "a", .setPolicy (some ⟨some "next", none, none, none, some true⟩),
          .setNodeList (some ["a", "b"]), .onNetworkChanged true] ++
        List.replicate 6 (KernelEvent.advance 0 true) ++ [KernelEvent.setNode "a"] ++
        List.replicate 4 (KernelEvent.advance 1 true) ++
        List.replicate 12 (KernelEvent.watch 0 ⟨false, none, true⟩)) :=
  setNode_atomic (fun _ => true) (by decide +kernel)

/--
`setNode` writes the current URI, finds no session and fails; the `start` which
it ran next to then installs the engine of another URI.
-/
theorem setNode_not_atomic :
    let events : List KernelEvent :=
      [KernelEvent.start "a", .advance 0 true, .advance 0 true, .setNode "b", .advance 1 true,
        .advance 1 true] ++ List.replicate 4 (KernelEvent.advance 0 true)
    let kernel := run (Kernel.step fun _ => true) Kernel.new events
    kernel.Quiescent ∧ .setNodeFailed true ∈ kernel.calls ∧
      kernel.currentNodeUri = some "b" ∧ kernel.installedUri = some "a" ∧
      ¬ kernel.SetNodeAtomic := by
  refine ⟨by decide +kernel, by decide +kernel, by decide +kernel, by decide +kernel, ?_⟩
  rintro ⟨noFailure, -⟩
  exact noFailure (by decide +kernel)

end Mirage.Jni
