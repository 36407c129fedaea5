import Mirage.Foundations.Selection
import Mirage.Shell.CoreController

/-!
# Deferred actions

An action put into `pendingOnConnect` is found by the next connection only if it
is there before that connection takes its snapshot.  `Timely` is the condition
on the single access which puts it there.  Along runs whose accesses meet it
every action is run exactly once.
-/

namespace Mirage.Shell

open Mirage.Foundations

section Modify

variable {calls : List DeferredCall} {change : DeferredCall → DeferredCall} {index : ℕ}
  {call found : DeferredCall}

/-- Of the calls after one has changed, that one is known and the others were there. -/
theorem getElem?_modify_cases {other : ℕ} (at_index : calls[index]? = some call)
    (here : (calls.modify index change)[other]? = some found) :
    index = other ∧ found = change call ∨ index ≠ other ∧ calls[other]? = some found := by
  rcases exists_of_getElem?_modify here with ⟨rfl, old, there, changed⟩ | ⟨other_call, there⟩
  · rw [at_index, Option.some.injEq] at there
    exact Or.inl ⟨rfl, there ▸ changed⟩
  · exact Or.inr ⟨Ne.symm other_call, there⟩

theorem mem_modify_cases (at_index : calls[index]? = some call)
    (member : found ∈ calls.modify index change) : found = change call ∨ found ∈ calls := by
  rcases List.mem_iff_getElem?.mp member with ⟨other, here⟩
  exact (getElem?_modify_cases at_index here).imp And.right
    fun elsewhere => List.mem_of_getElem? elsewhere.2

/-- What holds of all calls still does if it holds of the changed one. -/
theorem forall_modify {good : DeferredCall → Prop} (all : ∀ call ∈ calls, good call)
    (at_index : calls[index]? = some call) (changed : good (change call)) :
    ∀ call ∈ calls.modify index change, good call := by
  intro found member
  rcases mem_modify_cases at_index member with rfl | old
  · exact changed
  · exact all found old

end Modify

namespace CoreController

/--
The moment of a put.  No connection is between its snapshot and its `clear`, a
connection which has yet to take its snapshot is under way exactly if the service
has been connected since the call, and no later action is overwritten.
-/
def Timely (controller : CoreController) : ControllerEvent → Prop
  | .enqueue index =>
      ∀ call ∈ controller.calls[index]?, call.phase = .enqueueing →
        (call.dropped = false →
          controller.binding.isClearing = false ∧ call.due = controller.binding.early) ∧
        ∀ earlier ∈ controller.pendingOnConnect.lookup call.key,
          ∀ older ∈ controller.calls[earlier]?,
            older.dropped = true ∨ controller.binding.isClearing = true
  | _ => True

instance (controller : CoreController) (event : ControllerEvent) :
    Decidable (Timely controller event) := by
  unfold Timely
  cases event <;> infer_instance

/-- An action which has been put into `pendingOnConnect` and has not run. -/
structure Waiting (call : DeferredCall) : Prop where
  done : call.phase = .done
  fresh : call.runs = 0

/-- What has become of an action whose call has returned. -/
inductive Settled (controller : CoreController) (index : ℕ) (call : DeferredCall) : Prop where
  | ran (once : call.runs = 1) (due : call.due = true)
  | found (taken : index ∈ controller.binding.batch)
  | waits (here : controller.pendingOnConnect.lookup call.key = some index)
      (fresh : call.runs = 0) (due : call.due = controller.binding.early)
      (safe : controller.binding.isClearing = false)

/-- The invariant of the runs whose puts are timely. -/
structure Orderly (controller : CoreController) : Prop where
  due_of_service : controller.service = true → ∀ call ∈ controller.calls, call.due = true
  owner : ∀ key index, controller.pendingOnConnect.lookup key = some index →
    ∃ call, controller.calls[index]? = some call ∧ call.key = key ∧ Waiting call
  batch_nodup : controller.binding.batch.Nodup
  batch_call : ∀ index ∈ controller.binding.batch,
    ∃ call, controller.calls[index]? = some call ∧ Waiting call ∧
      (call.dropped = false → call.due = true)
  apart : controller.binding.isClearing = false → ∀ index ∈ controller.binding.batch, ∀ key,
    controller.pendingOnConnect.lookup key ≠ some index
  underway : ∀ call ∈ controller.calls, call.phase ≠ .done → call.runs = 0
  running : ∀ call ∈ controller.calls, call.phase = .running → call.due = true
  settled : ∀ index call, controller.calls[index]? = some call → call.dropped = false →
    call.phase = .done → Settled controller index call

/-- A step after which what `Settled` reads is the same. -/
theorem Settled.congr {controller other : CoreController} {index : ℕ} {call changed : DeferredCall}
    (settled : Settled controller index call)
    (same_binding : other.binding = controller.binding)
    (same_pending : other.pendingOnConnect.lookup call.key =
      controller.pendingOnConnect.lookup call.key)
    (same_key : changed.key = call.key) (same_runs : changed.runs = call.runs)
    (same_due : changed.due = call.due) : Settled other index changed := by
  cases settled with
  | ran once due => exact .ran (same_runs.trans once) (same_due.trans due)
  | found taken => exact .found (by rwa [same_binding])
  | waits here fresh due safe =>
      refine .waits ?_ (same_runs.trans fresh) ?_ (by rwa [same_binding])
      · rw [same_key, same_pending, here]
      · rw [same_due, same_binding, due]

namespace Orderly

variable {controller : CoreController}

theorem new : Orderly CoreController.new where
  due_of_service := by simp [CoreController.new]
  owner := by simp [CoreController.new]
  batch_nodup := List.nodup_nil
  batch_call := by simp [CoreController.new, Binding.batch]
  apart := by simp [CoreController.new, Binding.batch]
  underway := by simp [CoreController.new]
  running := by simp [CoreController.new]
  settled := by simp [CoreController.new]

theorem delivered (orderly : Orderly controller) : Delivered controller where
  once := by
    intro call member kept
    rcases List.mem_iff_getElem?.mp member with ⟨index, here⟩
    by_cases returned : call.phase = .done
    · cases orderly.settled index call here kept returned with
      | ran once due => exact ⟨once.le, fun _ => due⟩
      | found taken =>
          rcases orderly.batch_call index taken with ⟨other, there, waiting, _⟩
          obtain rfl : other = call := by rw [here] at there; exact (Option.some.inj there).symm
          simp [waiting.fresh]
      | waits _ fresh _ _ => simp [fresh]
    · simp [orderly.underway call member returned]
  not_lost := by
    rintro ⟨idle, returned⟩ call member kept due
    rcases List.mem_iff_getElem?.mp member with ⟨index, here⟩
    cases orderly.settled index call here kept (returned call member) with
    | ran once _ => exact once
    | found taken => simp [idle, Binding.batch] at taken
    | waits _ _ early _ => simp [idle, Binding.early, due] at early

section Calls

/-- A step which drops the calls with a key, and their entry, if `pending` is without it. -/
theorem drop (orderly : Orderly controller) (key : String) (pending : FiniteMap String ℕ)
    (entry_kept : ∀ other index, pending.lookup other = some index →
      controller.pendingOnConnect.lookup other = some index)
    (others_kept : ∀ other, other ≠ key →
      pending.lookup other = controller.pendingOnConnect.lookup other) :
    Orderly { controller with
      pendingOnConnect := pending
      calls := controller.calls.map (.drop key) } := by
  have mapped : ∀ {index : ℕ} {call : DeferredCall}, controller.calls[index]? = some call →
      (controller.calls.map (DeferredCall.drop key))[index]? = some (call.drop key) := by
    intro index call here
    rw [List.getElem?_map, here, Option.map_some]
  constructor
  case due_of_service =>
    intro connected call member
    rcases List.mem_map.mp member with ⟨old, there, rfl⟩
    exact orderly.due_of_service connected old there
  case owner =>
    intro other index here
    rcases orderly.owner other index (entry_kept other index here) with
      ⟨call, at_index, same_key, waiting⟩
    exact ⟨call.drop key, mapped at_index, same_key, waiting.done, waiting.fresh⟩
  case batch_nodup => exact orderly.batch_nodup
  case batch_call =>
    intro index taken
    rcases orderly.batch_call index taken with ⟨call, at_index, waiting, due⟩
    refine ⟨call.drop key, mapped at_index, ⟨waiting.done, waiting.fresh⟩, fun kept => ?_⟩
    exact due (Bool.or_eq_false_iff.mp kept).1
  case apart =>
    intro safe index taken other here
    exact orderly.apart safe index taken other (entry_kept other index here)
  case underway =>
    intro call member
    rcases List.mem_map.mp member with ⟨old, there, rfl⟩
    exact orderly.underway old there
  case running =>
    intro call member
    rcases List.mem_map.mp member with ⟨old, there, rfl⟩
    exact orderly.running old there
  case settled =>
    intro index call here kept returned
    rw [List.getElem?_map] at here
    rcases Option.map_eq_some_iff.mp here with ⟨old, at_index, rfl⟩
    have kept := Bool.or_eq_false_iff.mp kept
    have different : old.key ≠ key := by simpa using kept.2
    exact (orderly.settled index old at_index kept.1 returned).congr rfl
      (others_kept old.key different) rfl rfl rfl

theorem runWhenConnected (orderly : Orderly controller) (key : String) :
    Orderly (controller.runWhenConnected key) := by
  have dropped := orderly.drop key controller.pendingOnConnect (fun _ _ => id) (fun _ _ => rfl)
  have extended : ∀ {index : ℕ} {call : DeferredCall},
      (controller.calls.map (DeferredCall.drop key))[index]? = some call →
        (controller.runWhenConnected key).calls[index]? = some call := by
    intro index call here
    exact (List.getElem?_append_left (List.getElem?_eq_some_iff.mp here).1).trans here
  have found : ∀ {index : ℕ} {call : DeferredCall},
      (controller.runWhenConnected key).calls[index]? = some call →
        (controller.calls.map (DeferredCall.drop key))[index]? = some call ∨
          call = ⟨key, .testingBound, false, controller.service, 0⟩ := by
    intro index call here
    simp only [CoreController.runWhenConnected, List.getElem?_append] at here
    split at here
    · exact Or.inl here
    · exact Or.inr (List.mem_singleton.mp (List.mem_of_getElem? here))
  have members : ∀ {call : DeferredCall}, call ∈ (controller.runWhenConnected key).calls →
      call ∈ controller.calls.map (DeferredCall.drop key) ∨
        call = ⟨key, .testingBound, false, controller.service, 0⟩ := by
    intro call member
    rcases List.mem_iff_getElem?.mp member with ⟨index, here⟩
    exact (found here).imp_left List.mem_of_getElem?
  constructor
  case due_of_service =>
    intro connected call member
    rcases members member with old | rfl
    · exact dropped.due_of_service connected call old
    · exact connected
  case owner =>
    intro other index here
    rcases dropped.owner other index here with ⟨call, at_index, waiting⟩
    exact ⟨call, extended at_index, waiting⟩
  case batch_nodup => exact dropped.batch_nodup
  case batch_call =>
    intro index taken
    rcases dropped.batch_call index taken with ⟨call, at_index, waiting⟩
    exact ⟨call, extended at_index, waiting⟩
  case apart => exact dropped.apart
  case underway =>
    intro call member
    rcases members member with old | rfl
    · exact dropped.underway call old
    · exact fun _ => rfl
  case running =>
    intro call member
    rcases members member with old | rfl
    · exact dropped.running call old
    · exact fun impossible => nomatch impossible
  case settled =>
    intro index call here kept returned
    rcases found here with old | rfl
    · exact (dropped.settled index call old kept returned).congr rfl rfl rfl rfl rfl
    · cases returned

/--
A call which has not returned takes a step.  The entries and the batch hold only
calls which have returned, so they are not affected.
-/
theorem modify (orderly : Orderly controller) {index : ℕ} {call : DeferredCall}
    (at_index : controller.calls[index]? = some call) (under_way : call.phase ≠ .done)
    {change : DeferredCall → DeferredCall} (same_due : (change call).due = call.due)
    (still_underway : (change call).phase ≠ .done → (change call).runs = 0)
    (may_run : (change call).phase = .running → call.due = true)
    (ran : (change call).phase = .done → (change call).runs = 1 ∧ call.due = true) :
    Orderly (controller.modify index change) := by
  have there : call ∈ controller.calls := List.mem_of_getElem? at_index
  have returned : ∀ {other : ℕ} {waiting : DeferredCall},
      controller.calls[other]? = some waiting → Waiting waiting →
        (controller.modify index change).calls[other]? = some waiting := by
    intro other waiting at_other waits
    have different : index ≠ other := by
      rintro rfl
      rw [at_index, Option.some.injEq] at at_other
      subst waiting
      exact under_way waits.done
    exact (List.getElem?_modify_ne _ _ different).trans at_other
  constructor
  case due_of_service =>
    intro connected
    apply forall_modify (orderly.due_of_service connected) at_index
    exact same_due.trans (orderly.due_of_service connected call there)
  case owner =>
    intro key other here
    rcases orderly.owner key other here with ⟨waiting, at_other, same_key, waits⟩
    exact ⟨waiting, returned at_other waits, same_key, waits⟩
  case batch_nodup => exact orderly.batch_nodup
  case batch_call =>
    intro other taken
    rcases orderly.batch_call other taken with ⟨waiting, at_other, waits, due⟩
    exact ⟨waiting, returned at_other waits, waits, due⟩
  case apart => exact orderly.apart
  case underway =>
    exact forall_modify orderly.underway at_index still_underway
  case running =>
    exact forall_modify orderly.running at_index fun runs => same_due.trans (may_run runs)
  case settled =>
    intro other new here kept done
    rcases getElem?_modify_cases at_index here with ⟨_, rfl⟩ | ⟨_, old⟩
    · rcases ran done with ⟨once, due⟩
      exact .ran once (same_due.trans due)
    · exact (orderly.settled other new old kept done).congr rfl rfl rfl rfl rfl

theorem enqueue (orderly : Orderly controller) {index : ℕ} {call : DeferredCall}
    (at_index : controller.calls[index]? = some call) (phase : call.phase = .enqueueing)
    (timely : Timely controller (.enqueue index)) :
    Orderly { controller.modify index (.goTo .done) with
      pendingOnConnect := controller.pendingOnConnect.insert call.key index } := by
  have there : call ∈ controller.calls := List.mem_of_getElem? at_index
  have fresh : call.runs = 0 := orderly.underway call there (by simp [phase])
  rcases timely call at_index phase with ⟨in_time, overwrites⟩
  have here_now : (controller.calls.modify index (.goTo .done))[index]? =
      some (call.goTo .done) := by
    rw [List.getElem?_modify_eq, at_index]
    rfl
  have returned : ∀ {other : ℕ} {waiting : DeferredCall},
      controller.calls[other]? = some waiting → Waiting waiting →
        index ≠ other ∧ (controller.calls.modify index (.goTo .done))[other]? = some waiting := by
    intro other waiting at_other waits
    have different : index ≠ other := by
      rintro rfl
      rw [at_index, Option.some.injEq] at at_other
      subst waiting
      rw [waits.done] at phase
      cases phase
    exact ⟨different, (List.getElem?_modify_ne _ _ different).trans at_other⟩
  constructor
  case due_of_service =>
    intro connected
    apply forall_modify (orderly.due_of_service connected) at_index
    exact orderly.due_of_service connected call there
  case owner =>
    intro key other here
    by_cases same : key = call.key
    · subst key
      rw [AList.lookup_insert, Option.some.injEq] at here
      subst other
      exact ⟨call.goTo .done, here_now, rfl, rfl, fresh⟩
    · rw [AList.lookup_insert_ne same] at here
      rcases orderly.owner key other here with ⟨waiting, at_other, same_key, waits⟩
      exact ⟨waiting, (returned at_other waits).2, same_key, waits⟩
  case batch_nodup => exact orderly.batch_nodup
  case batch_call =>
    intro other taken
    rcases orderly.batch_call other taken with ⟨waiting, at_other, waits, due⟩
    exact ⟨waiting, (returned at_other waits).2, waits, due⟩
  case apart =>
    intro safe other taken key here
    rcases orderly.batch_call other taken with ⟨waiting, at_other, waits, _⟩
    by_cases same : key = call.key
    · subst key
      rw [AList.lookup_insert, Option.some.injEq] at here
      exact (returned at_other waits).1 here
    · rw [AList.lookup_insert_ne same] at here
      exact orderly.apart safe other taken key here
  case underway =>
    exact forall_modify orderly.underway at_index fun impossible => absurd rfl impossible
  case running =>
    apply forall_modify orderly.running at_index
    intro impossible
    cases impossible
  case settled =>
    intro other new here kept done
    rcases getElem?_modify_cases at_index here with ⟨rfl, rfl⟩ | ⟨different, at_other⟩
    · rcases in_time kept with ⟨safe, due⟩
      exact .waits (AList.lookup_insert _) fresh due safe
    · cases orderly.settled other new at_other kept done with
      | ran once due => exact .ran once due
      | found taken => exact .found taken
      | waits entry zero due safe =>
          refine .waits ?_ zero due safe
          have different : new.key ≠ call.key := by
            intro same
            rw [same] at entry
            -- the overwritten action would be one which has not been dropped
            rcases overwrites other entry new at_other with gone | clearing
            · rw [kept] at gone
              cases gone
            · rw [safe] at clearing
              cases clearing
          exact (AList.lookup_insert_ne different).trans entry

theorem stepCall (orderly : Orderly controller) {index : ℕ} {call : DeferredCall}
    (at_index : controller.calls[index]? = some call) (event : ControllerEvent)
    (timely : ∀ place, event = .enqueue place → Timely controller (.enqueue index)) :
    Orderly (controller.stepCall index call event) := by
  have there : call ∈ controller.calls := List.mem_of_getElem? at_index
  cases event with
  | testBound _ =>
      simp only [CoreController.stepCall]
      split
      · rename_i phase
        have zero := orderly.underway call there (by simp [phase])
        refine orderly.modify at_index (by simp [phase]) rfl (fun _ => zero) ?_ ?_
        · cases controller.bound <;> simp [DeferredCall.goTo]
        · cases controller.bound <;> simp [DeferredCall.goTo]
      · exact orderly
  | testService _ =>
      simp only [CoreController.stepCall]
      split
      · rename_i phase
        have zero := orderly.underway call there (by simp [phase])
        refine orderly.modify at_index (by simp [phase]) rfl (fun _ => zero) ?_ ?_
        · cases connected : controller.service with
          | false => simp [DeferredCall.goTo]
          | true => exact fun _ => orderly.due_of_service connected call there
        · cases controller.service <;> simp [DeferredCall.goTo]
      · exact orderly
  | run _ =>
      simp only [CoreController.stepCall]
      split
      · rename_i phase
        have zero := orderly.underway call there (by simp [phase])
        have due := orderly.running call there phase
        refine orderly.modify at_index (by simp [phase]) rfl ?_ (fun _ => due) (fun _ => ?_)
        · exact fun impossible => absurd rfl impossible
        · exact ⟨by simp [DeferredCall.ran, zero], due⟩
      · exact orderly
  | enqueue place =>
      simp only [CoreController.stepCall]
      split
      · rename_i phase
        exact orderly.enqueue at_index phase (timely place rfl)
      · exact orderly
  | _ => exact orderly

end Calls

section Connecting

/-- The service is connected.  Every call is due, and what waits will be looked for. -/
theorem assignService (orderly : Orderly controller) (idle : controller.binding = .idle) :
    Orderly { controller with
      service := true
      binding := .assigned
      calls := controller.calls.map .nowDue } := by
  constructor
  case due_of_service =>
    intro _ call member
    rcases List.mem_map.mp member with ⟨old, _, rfl⟩
    rfl
  case owner =>
    intro key index here
    rcases orderly.owner key index here with ⟨call, at_index, same_key, waits⟩
    refine ⟨call.nowDue, ?_, same_key, waits.done, waits.fresh⟩
    rw [List.getElem?_map, at_index, Option.map_some]
  case batch_nodup => exact List.nodup_nil
  case batch_call => exact fun _ taken => nomatch taken
  case apart => exact fun _ _ taken => nomatch taken
  case underway =>
    intro call member
    rcases List.mem_map.mp member with ⟨old, there, rfl⟩
    exact orderly.underway old there
  case running =>
    intro call member _
    rcases List.mem_map.mp member with ⟨old, _, rfl⟩
    rfl
  case settled =>
    intro index call here kept returned
    rw [List.getElem?_map] at here
    rcases Option.map_eq_some_iff.mp here with ⟨old, at_index, rfl⟩
    cases orderly.settled index old at_index kept returned with
    | ran once _ => exact .ran once rfl
    | found taken => simp [idle, Binding.batch] at taken
    | waits entry fresh _ _ => exact .waits entry fresh rfl rfl

/-- A step within a connection which leaves the batch, the entries and the calls. -/
theorem rebind (orderly : Orderly controller) {service bound : Bool} {disconnecting : ℕ}
    {binding : Binding} (connected : service = true → controller.service = true)
    (same_batch : binding.batch = controller.binding.batch)
    (same_clearing : binding.isClearing = controller.binding.isClearing)
    (looked_for : binding.early = controller.binding.early ∨
      ∀ key, controller.pendingOnConnect.lookup key = none) :
    Orderly ⟨service, bound, controller.pendingOnConnect, binding, disconnecting,
      controller.calls⟩ := by
  constructor
  case due_of_service => exact fun here => orderly.due_of_service (connected here)
  case owner => exact orderly.owner
  case batch_nodup =>
    rw [same_batch]
    exact orderly.batch_nodup
  case batch_call =>
    rw [same_batch]
    exact orderly.batch_call
  case apart =>
    rw [same_batch, same_clearing]
    exact orderly.apart
  case underway => exact orderly.underway
  case running => exact orderly.running
  case settled =>
    intro index call here kept returned
    cases orderly.settled index call here kept returned with
    | ran once due => exact .ran once due
    | found taken => exact .found (by rwa [same_batch])
    | waits entry fresh due safe =>
        rcases looked_for with same_early | empty
        · exact .waits entry fresh (by rw [same_early, due]) (by rw [same_clearing, safe])
        · rw [empty call.key] at entry
          cases entry

/-- The actions of the snapshot. -/
theorem mem_snapshot {pending : FiniteMap String ℕ} {index : ℕ} :
    index ∈ pending.entries.map Sigma.snd ↔ ∃ key, pending.lookup key = some index := by
  simp only [List.mem_map, Sigma.exists]
  constructor
  · rintro ⟨key, value, member, rfl⟩
    exact ⟨key, AList.mem_lookup_iff.mpr member⟩
  · rintro ⟨key, here⟩
    exact ⟨key, index, AList.mem_lookup_iff.mp here, rfl⟩

/-- An action is in the snapshot once: its entry is that of its key. -/
theorem snapshot_nodup (orderly : Orderly controller) :
    (controller.pendingOnConnect.entries.map Sigma.snd).Nodup := by
  refine List.Nodup.map_on ?_ controller.pendingOnConnect.nodupKeys.nodup
  rintro ⟨key, index⟩ member ⟨other, _⟩ other_member rfl
  have here := AList.mem_lookup_iff.mpr member
  have there := AList.mem_lookup_iff.mpr other_member
  rcases orderly.owner _ _ here with ⟨call, at_index, rfl, _⟩
  rcases orderly.owner _ _ there with ⟨same, at_same, rfl, _⟩
  rw [at_index, Option.some.injEq] at at_same
  rw [at_same]

theorem snapshot (orderly : Orderly controller) (binding : controller.binding = .nonempty) :
    Orderly { controller with
      binding := .clearing (controller.pendingOnConnect.entries.map Sigma.snd) } := by
  constructor
  case due_of_service => exact orderly.due_of_service
  case owner => exact orderly.owner
  case batch_nodup => exact orderly.snapshot_nodup
  case batch_call =>
    intro index taken
    rcases mem_snapshot.mp taken with ⟨key, here⟩
    rcases orderly.owner key index here with ⟨call, at_index, rfl, waits⟩
    refine ⟨call, at_index, waits, fun kept => ?_⟩
    cases orderly.settled index call at_index kept waits.done with
    | ran _ due => exact due
    | found taken => simp [binding, Binding.batch] at taken
    | waits _ _ due _ => simpa [binding, Binding.early] using due
  case apart => exact fun impossible => nomatch impossible
  case underway => exact orderly.underway
  case running => exact orderly.running
  case settled =>
    intro index call here kept returned
    cases orderly.settled index call here kept returned with
    | ran once due => exact .ran once due
    | found taken => simp [binding, Binding.batch] at taken
    | waits entry _ _ _ => exact .found (mem_snapshot.mpr ⟨call.key, entry⟩)

theorem clear (orderly : Orderly controller) {batch : List ℕ}
    (binding : controller.binding = .clearing batch) :
    Orderly { controller with pendingOnConnect := ∅, binding := .draining batch } := by
  have same : controller.binding.batch = batch := by rw [binding]; rfl
  constructor
  case due_of_service => exact orderly.due_of_service
  case owner => simp
  case batch_nodup => exact same ▸ orderly.batch_nodup
  case batch_call => exact same ▸ orderly.batch_call
  case apart => simp
  case underway => exact orderly.underway
  case running => exact orderly.running
  case settled =>
    intro index call here kept returned
    cases orderly.settled index call here kept returned with
    | ran once due => exact .ran once due
    | found taken => exact .found (same ▸ taken)
    | waits _ _ _ safe => simp [binding, Binding.isClearing] at safe

theorem runNext (orderly : Orderly controller) {index : ℕ} {batch : List ℕ}
    (binding : controller.binding = .draining (index :: batch)) :
    Orderly { controller.modify index .ran with binding := .draining batch } := by
  have same : controller.binding.batch = index :: batch := by
    rw [binding]
    rfl
  have nodup : (index :: batch).Nodup := same ▸ orderly.batch_nodup
  rcases List.nodup_cons.mp nodup with ⟨only_once, rest_nodup⟩
  have taken : index ∈ controller.binding.batch := by simp [same]
  rcases orderly.batch_call index taken with ⟨call, at_index, waits, due⟩
  have there : call ∈ controller.calls := List.mem_of_getElem? at_index
  have elsewhere : ∀ {other : ℕ} {waiting : DeferredCall}, index ≠ other →
      controller.calls[other]? = some waiting →
        (controller.calls.modify index .ran)[other]? = some waiting :=
    fun different => (List.getElem?_modify_ne _ _ different).trans
  have free : controller.binding.isClearing = false := by
    rw [binding]
    rfl
  constructor
  case due_of_service =>
    intro connected
    apply forall_modify (orderly.due_of_service connected) at_index
    exact orderly.due_of_service connected call there
  case owner =>
    intro key other here
    rcases orderly.owner key other here with ⟨waiting, at_other, same_key, waits⟩
    have different : index ≠ other := by
      rintro rfl
      exact orderly.apart free index taken key here
    exact ⟨waiting, elsewhere different at_other, same_key, waits⟩
  case batch_nodup => exact rest_nodup
  case batch_call =>
    intro other member
    have different : index ≠ other := fun equal => only_once (equal ▸ member)
    have in_batch : other ∈ controller.binding.batch := by
      rw [same]
      exact List.mem_cons_of_mem _ member
    rcases orderly.batch_call other in_batch with ⟨waiting, at_other, waits, due⟩
    exact ⟨waiting, elsewhere different at_other, waits, due⟩
  case apart =>
    intro _ other member key
    refine orderly.apart free other ?_ key
    rw [same]
    exact List.mem_cons_of_mem _ member
  case underway =>
    exact forall_modify orderly.underway at_index fun impossible => absurd rfl impossible
  case running =>
    apply forall_modify orderly.running at_index
    intro impossible
    cases impossible
  case settled =>
    intro other new here kept done
    rcases getElem?_modify_cases at_index here with ⟨rfl, rfl⟩ | ⟨different, at_other⟩
    · exact .ran (by simp [DeferredCall.ran, waits.fresh]) (due kept)
    · cases orderly.settled other new at_other kept done with
      | ran once due => exact .ran once due
      | found in_batch =>
          rw [same, List.mem_cons] at in_batch
          exact .found (in_batch.resolve_left (Ne.symm different))
      | waits entry fresh due _ =>
          rw [binding] at due
          exact .waits entry fresh due rfl

end Connecting

theorem stepBinding (orderly : Orderly controller) (event : ControllerEvent) :
    Orderly (controller.stepBinding event) := by
  unfold CoreController.stepBinding
  split
  · rename_i idle
    exact orderly.assignService idle
  · rename_i binding
    refine orderly.rebind id ?_ ?_ (Or.inl ?_) <;> rw [binding] <;> rfl
  · rename_i binding
    split
    · rename_i empty
      refine orderly.rebind id ?_ ?_ (Or.inr fun key => ?_)
      · rw [binding]; rfl
      · rw [binding]; rfl
      · cases here : controller.pendingOnConnect.lookup key with
        | none => rfl
        | some index =>
            have member := AList.mem_lookup_iff.mp here
            rw [List.isEmpty_iff.mp empty] at member
            cases member
    · refine orderly.rebind id ?_ ?_ (Or.inl ?_) <;> rw [binding] <;> rfl
  · rename_i binding
    exact orderly.snapshot binding
  · rename_i binding
    exact orderly.clear binding
  · rename_i binding
    exact orderly.runNext binding
  · rename_i binding
    refine orderly.rebind id ?_ ?_ (Or.inl ?_) <;> rw [binding] <;> rfl
  · exact orderly

theorem stepAt (orderly : Orderly controller) {index : ℕ} (event : ControllerEvent)
    (timely : ∀ place, event = .enqueue place → Timely controller (.enqueue index)) :
    Orderly (controller.stepAt index event) := by
  unfold CoreController.stepAt
  split
  · rename_i call at_index
    exact orderly.stepCall at_index event timely
  · exact orderly

theorem cancelPending (orderly : Orderly controller) (key : String) :
    Orderly (controller.step (.cancelPending key)) := by
  refine orderly.drop key (controller.pendingOnConnect.erase key) ?_ ?_
  · intro other index here
    by_cases same : other = key
    · subst other
      rw [AList.lookup_erase] at here
      cases here
    · rwa [AList.lookup_erase_ne same] at here
  · exact fun other different => AList.lookup_erase_ne different

theorem step (orderly : Orderly controller) {event : ControllerEvent}
    (timely : Timely controller event) : Orderly (controller.step event) := by
  cases event with
  | runWhenConnected key => exact orderly.runWhenConnected key
  | testBound index => exact orderly.stepAt _ fun _ impossible => nomatch impossible
  | testService index => exact orderly.stepAt _ fun _ impossible => nomatch impossible
  | run index => exact orderly.stepAt _ fun _ impossible => nomatch impossible
  | enqueue index => exact orderly.stepAt _ fun _ _ => timely
  | cancelPending key => exact orderly.cancelPending key
  | disconnectService =>
      exact orderly.rebind (fun impossible => nomatch impossible) rfl rfl (Or.inl rfl)
  | disconnectBound =>
      simp only [CoreController.step]
      split
      · exact orderly.rebind id rfl rfl (Or.inl rfl)
      · exact orderly
  | assignService => exact orderly.stepBinding _
  | assignBound => exact orderly.stepBinding _
  | testPending => exact orderly.stepBinding _
  | snapshot => exact orderly.stepBinding _
  | clear => exact orderly.stepBinding _
  | runNext => exact orderly.stepBinding _

end Orderly

/-- Along runs whose puts are timely no action is lost, and none is run twice or too early. -/
theorem delivered_of_timely (events : List ControllerEvent)
    (timely : Along CoreController.step Timely CoreController.new events) :
    Throughout CoreController.step Delivered CoreController.new events :=
  throughout_of_along Orderly Orderly.delivered (fun orderly => orderly.step) timely Orderly.new

/-- One action is put before the connection, which finds it, and the next is run at once. -/
theorem delivered_pushNodes :
    Throughout CoreController.step Delivered CoreController.new
      [.runWhenConnected "pushNodes", .testBound 0, .enqueue 0, .assignService, .assignBound,
        .testPending, .snapshot, .clear, .runNext, .runNext, .runWhenConnected "pushNodes",
        .testBound 1, .testService 1, .run 1] :=
  delivered_of_timely _ (by decide +kernel)

/-- The connection finds nothing to do between the test of the call and its put. -/
theorem not_delivered_pushNodes :
    ¬Throughout CoreController.step Delivered CoreController.new
      [.runWhenConnected "pushNodes", .testBound 0, .assignService, .assignBound, .testPending,
        .enqueue 0] := by
  intro throughout
  have lost := throughout.run.not_lost (by decide +kernel) ⟨"pushNodes", .done, false, true, 0⟩
    (by decide +kernel) rfl rfl
  cases lost

end CoreController

end Mirage.Shell
