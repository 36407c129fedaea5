import Mirage.Foundations.MutualMaps
import Mirage.Foundations.Run

/-!
# Actions which wait for the service

`runWhenConnected` runs its action at once if the service is bound, and leaves it
in `pendingOnConnect` otherwise, where the next connection finds it.  The calls
come from any thread.  The service connects on the main thread and is lost on
the main thread or on that of the binder, so all of these interleave.

An event is one access to a shared field.  Of a call it is recorded whether it
has been cancelled or replaced, whether the service has been connected since,
and how often its action has run.
-/

namespace Mirage.Shell

open Mirage.Foundations

/-- Where a call of `runWhenConnected` is. -/
inductive DeferredPhase where
  | testingBound
  | testingService
  | running
  | enqueueing
  | done
  deriving DecidableEq, Repr

structure DeferredCall where
  key : String
  phase : DeferredPhase
  dropped : Bool
  due : Bool
  runs : ℕ
  deriving DecidableEq, Repr

/-- Where `onServiceConnected` is; `batch` are the actions which it has found and not yet run. -/
inductive Binding where
  | idle
  | assigned
  | unchecked
  | nonempty
  | clearing (batch : List ℕ)
  | draining (batch : List ℕ)
  deriving DecidableEq, Repr

namespace Binding

def batch : Binding → List ℕ
  | .clearing batch | .draining batch => batch
  | _ => []

/-- A connection which has yet to look for actions. -/
def early : Binding → Bool
  | .assigned | .unchecked | .nonempty => true
  | _ => false

def isClearing : Binding → Bool
  | .clearing _ => true
  | _ => false

end Binding

/-- `disconnecting` counts the threads which have dropped the service and not yet `bound`. -/
structure CoreController where
  service : Bool
  bound : Bool
  pendingOnConnect : FiniteMap String ℕ
  binding : Binding
  disconnecting : ℕ
  calls : List DeferredCall

inductive ControllerEvent where
  | runWhenConnected (key : String)
  | testBound (index : ℕ)
  | testService (index : ℕ)
  | run (index : ℕ)
  | enqueue (index : ℕ)
  | cancelPending (key : String)
  | assignService
  | assignBound
  | testPending
  | snapshot
  | clear
  | runNext
  | disconnectService
  | disconnectBound
  deriving DecidableEq, Repr

namespace DeferredCall

/-- A call with this key is cancelled, or replaced by a later one. -/
def drop (key : String) (call : DeferredCall) : DeferredCall :=
  { call with dropped := call.dropped || call.key == key }

def goTo (phase : DeferredPhase) (call : DeferredCall) : DeferredCall :=
  { call with phase }

def ran (call : DeferredCall) : DeferredCall :=
  { call with phase := .done, runs := call.runs + 1 }

def nowDue (call : DeferredCall) : DeferredCall :=
  { call with due := true }

end DeferredCall

namespace CoreController

def new : CoreController where
  service := false
  bound := false
  pendingOnConnect := ∅
  binding := .idle
  disconnecting := 0
  calls := []

def runWhenConnected (controller : CoreController) (key : String) : CoreController :=
  { controller with
    calls := controller.calls.map (.drop key) ++
      [⟨key, .testingBound, false, controller.service, 0⟩] }

def modify (controller : CoreController) (index : ℕ) (change : DeferredCall → DeferredCall) :
    CoreController :=
  { controller with calls := controller.calls.modify index change }

/-- A step of the call at `index`. -/
def stepCall (controller : CoreController) (index : ℕ) (call : DeferredCall) :
    ControllerEvent → CoreController
  | .testBound _ =>
      if call.phase = .testingBound then
        controller.modify index
          (.goTo (if controller.bound then .testingService else .enqueueing))
      else controller
  | .testService _ =>
      if call.phase = .testingService then
        controller.modify index (.goTo (if controller.service then .running else .enqueueing))
      else controller
  | .run _ => if call.phase = .running then controller.modify index .ran else controller
  | .enqueue _ =>
      if call.phase = .enqueueing then
        { controller.modify index (.goTo .done) with
          pendingOnConnect := controller.pendingOnConnect.insert call.key index }
      else controller
  | _ => controller

def stepAt (controller : CoreController) (index : ℕ) (event : ControllerEvent) : CoreController :=
  match controller.calls[index]? with
  | some call => controller.stepCall index call event
  | none => controller

/-- A step of `onServiceConnected`. -/
def stepBinding (controller : CoreController) (event : ControllerEvent) : CoreController :=
  match controller.binding, event with
  | .idle, .assignService =>
      { controller with
        service := true
        binding := .assigned
        calls := controller.calls.map .nowDue }
  | .assigned, .assignBound => { controller with bound := true, binding := .unchecked }
  | .unchecked, .testPending =>
      { controller with
        binding := if controller.pendingOnConnect.entries.isEmpty then .idle else .nonempty }
  | .nonempty, .snapshot =>
      { controller with
        binding := .clearing (controller.pendingOnConnect.entries.map Sigma.snd) }
  | .clearing batch, .clear =>
      { controller with pendingOnConnect := ∅, binding := .draining batch }
  | .draining (index :: batch), .runNext =>
      { controller.modify index .ran with binding := .draining batch }
  | .draining [], .runNext => { controller with binding := .idle }
  | _, _ => controller

def step (controller : CoreController) (event : ControllerEvent) : CoreController :=
  match event with
  | .runWhenConnected key => controller.runWhenConnected key
  | .testBound index | .testService index | .run index | .enqueue index =>
      controller.stepAt index event
  | .cancelPending key =>
      { controller with
        pendingOnConnect := controller.pendingOnConnect.erase key
        calls := controller.calls.map (.drop key) }
  | .disconnectService =>
      { controller with service := false, disconnecting := controller.disconnecting + 1 }
  | .disconnectBound =>
      if 0 < controller.disconnecting then
        { controller with bound := false, disconnecting := controller.disconnecting - 1 }
      else controller
  | .assignService | .assignBound | .testPending | .snapshot | .clear | .runNext =>
      controller.stepBinding event

/-- No call and no connection is under way. -/
def Quiet (controller : CoreController) : Prop :=
  controller.binding = .idle ∧ ∀ call ∈ controller.calls, call.phase = .done

instance (controller : CoreController) : Decidable controller.Quiet := by
  unfold Quiet
  infer_instance

/--
No action has run twice or before the service was connected, and once all is
quiet every action has run whose call has seen the service connected; except for
the calls which have been cancelled or replaced.
-/
structure Delivered (controller : CoreController) : Prop where
  once : ∀ call ∈ controller.calls, call.dropped = false →
    call.runs ≤ 1 ∧ (call.runs = 1 → call.due = true)
  not_lost : controller.Quiet → ∀ call ∈ controller.calls, call.dropped = false →
    call.due = true → call.runs = 1

end CoreController

end Mirage.Shell
