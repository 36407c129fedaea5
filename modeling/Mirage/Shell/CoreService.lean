import Mathlib.Data.Int.Notation
import Mathlib.Data.List.Basic
import Mirage.Foundations.Run

/-!
# The core service

The service which owns the TUN descriptor and drives the native engine, as one
machine: the commands which it receives, the calls over its binder, the events
of the kernel, its teardowns and the updates of its notification.  An event is
one step of one of these, or its arrival.

`startInternal` runs under the lock of the state from its verdict to its end, so
there is at most one of it, kept apart from the tasks.  A teardown holds the lock
only while it writes the state.  The commands, `ACTION_STOP` and `onDestroy` run
on the main thread, one after the other.
-/

namespace Mirage.Shell

open Mirage.Foundations

inductive ServiceState where
  | stopped
  | starting
  | running
  | stopping
  deriving DecidableEq, Repr

inductive StartVerdict where
  | proceed
  | alreadyRunning
  | rejectStopping
  deriving DecidableEq, Repr

namespace StateMachine

def acceptsStartCommand (state : ServiceState) : Bool :=
  state == .stopped || state == .stopping

def verdictForStart (state : ServiceState) (nativeRunning : Bool) : StartVerdict :=
  if state = .stopping then .rejectStopping
  else if state = .running ∧ nativeRunning = true then .alreadyRunning
  else .proceed

def shouldRunStop (state : ServiceState) : Bool :=
  state != .stopping && state != .stopped

def stateAfterStart (rc : ℤ) : ServiceState :=
  if rc = 0 then .running else .stopped

def shouldAcceptStopCommand (stopSeq activeSessionSeq : ℤ) : Bool :=
  stopSeq ≤ 0 || activeSessionSeq ≤ stopSeq

theorem verdictForStart_eq_rejectStopping {state : ServiceState} {nativeRunning : Bool} :
    verdictForStart state nativeRunning = .rejectStopping ↔ state = .stopping := by
  cases state <;> cases nativeRunning <;> decide

theorem verdictForStart_eq_alreadyRunning {state : ServiceState} {nativeRunning : Bool} :
    verdictForStart state nativeRunning = .alreadyRunning ↔
      state = .running ∧ nativeRunning = true := by
  cases state <;> cases nativeRunning <;> decide

theorem verdictForStart_eq_proceed {state : ServiceState} {nativeRunning : Bool} :
    verdictForStart state nativeRunning = .proceed ↔
      state ≠ .stopping ∧ (state = .running → nativeRunning = false) := by
  cases state <;> cases nativeRunning <;> decide

end StateMachine

/-- `FailoverControl.shouldHonorEvent` -/
def shouldHonorEvent (state : ServiceState) : Bool := state == .running

/--
What a task is.  The epoch of a restart is the number of stops which had been
accepted when the kernel emitted the event.
-/
inductive TaskKind where
  | command
  | binder
  | restart (epoch : ℕ)
  | stop
  | actionStop
  | destroy
  | notifier
  deriving DecidableEq, Repr

def TaskKind.onMain : TaskKind → Bool
  | .command | .actionStop | .destroy => true
  | _ => false

/--
Where a task is.  `accepted` to `cleared` are a teardown between its two writes
of the state; `clearing` and `writing` are `failAndStop`; `posting` is an update
of the notification which is about to be shown.
-/
inductive TaskPhase where
  | checking
  | stopping
  | loading
  | entering
  | starting
  | clearing
  | writing
  | posting
  | waiting
  | accepted
  | nativeStopped
  | closed
  | cleared
  | written
  | done
  deriving DecidableEq, Repr

structure Task where
  kind : TaskKind
  phase : TaskPhase
  deriving DecidableEq, Repr

namespace Task

def runs (task : Task) : Bool := task.phase != .done

/-- The task has written `Stopping`, and not `Stopped` yet. -/
def tearing (task : Task) : Bool :=
  match task.phase with
  | .accepted | .nativeStopped | .closed | .cleared => true
  | _ => false

/-- What a task goes on with when `startInternal` has returned to it. -/
def afterStart (task : Task) (succeeded : Bool) : Task :=
  match task.kind with
  | .command => { task with phase := if succeeded then .posting else .clearing }
  | _ => { task with phase := .done }

end Task

/-- How far the body of `startInternal` is. -/
inductive StartPhase where
  | establishing
  | established
  | nativeStarting
  | failing
  deriving DecidableEq, Repr

structure Start where
  task : ℕ
  caller : TaskKind
  phase : StartPhase
  deriving DecidableEq, Repr

/-- `startLocked` runs. -/
def Start.locked (start : Start) : Bool := start.phase != .failing

/--
`engine` is the descriptor which the native engine runs on, `nativeStarted` the
flag that `isRunning` reads.  `stops` counts the accepted stops, `userStart`
tells that a start was requested since the last of them, and `revived` that a
restart from before it has brought the engine up without such a request.
-/
structure CoreService where
  serviceState : ServiceState
  activeSessionSeq : ℤ
  tunFd : Option ℕ
  nextFd : ℕ
  engine : Option ℕ
  nativeStarted : Bool
  notification : Bool
  notifJob : Bool
  start : Option Start
  tasks : List Task
  stops : ℕ
  userStart : Bool
  revived : Bool
  deriving DecidableEq, Repr

/-- `advance` is the next step of a task, `proceed` that of the body of `startInternal`. -/
inductive ServiceEvent where
  | onStartCommand (startSeq : ℤ)
  | actionStop (stopSeq : ℤ)
  | binderStart
  | stop
  | onDestroy
  | restartRequested
  | notifTick
  | advance (task : ℕ) (succeeds : Bool)
  | proceed (succeeds : Bool)
  deriving DecidableEq, Repr

namespace CoreService

def new : CoreService where
  serviceState := .stopped
  activeSessionSeq := 0
  tunFd := none
  nextFd := 0
  engine := none
  nativeStarted := false
  notification := false
  notifJob := false
  start := none
  tasks := []
  stops := 0
  userStart := false
  revived := false

def mainBusy (service : CoreService) : Bool :=
  service.tasks.any fun task => task.kind.onMain && task.runs

def spawn (service : CoreService) (kind : TaskKind) (phase : TaskPhase) : CoreService :=
  { service with tasks := service.tasks ++ [⟨kind, phase⟩] }

def setTask (service : CoreService) (index : ℕ) (task : Task) : CoreService :=
  { service with tasks := service.tasks.set index task }

/-- `MirageNative.stop` -/
def nativeStop (service : CoreService) : CoreService :=
  { service with engine := none, nativeStarted := false }

/-- A command; while the service starts or runs, it only counts as the latest session. -/
def onStartCommand (service : CoreService) (startSeq : ℤ) : CoreService :=
  let requested :=
    { service with
      userStart := true
      activeSessionSeq := if 0 < startSeq then startSeq else service.activeSessionSeq }
  if StateMachine.acceptsStartCommand service.serviceState then
    { requested with notification := true }.spawn .command .loading
  else requested

def actionStop (service : CoreService) (stopSeq : ℤ) : CoreService :=
  if StateMachine.shouldAcceptStopCommand stopSeq service.activeSessionSeq then
    service.spawn .actionStop .waiting
  else service

/-- The restart is older than the last accepted stop, and the user has not asked for a start. -/
def stale (service : CoreService) : TaskKind → Bool
  | .restart epoch => decide (epoch < service.stops) && !service.userStart
  | _ => false

/-- The verdict of `startInternal`, under the lock. -/
def enter (service : CoreService) (index : ℕ) (task : Task) : CoreService :=
  match StateMachine.verdictForStart service.serviceState service.nativeStarted with
  | .rejectStopping => service.setTask index (task.afterStart false)
  | .alreadyRunning =>
      { service with revived := service.revived || service.stale task.kind }.setTask index
        (task.afterStart true)
  | .proceed =>
      { service with
        serviceState := .starting
        notifJob := false
        start := some ⟨index, task.kind, .establishing⟩ }.setTask index
          { task with phase := .starting }

/-- The end of a teardown's write of `Stopped`; a destroyed service starts its count anew. -/
def writeStopped (service : CoreService) (index : ℕ) (task : Task) : CoreService :=
  match task.kind with
  | .destroy =>
      { service with serviceState := .stopped, activeSessionSeq := 0 }.setTask index
        { task with phase := .written }
  | _ => { service with serviceState := .stopped }.setTask index { task with phase := .done }

def clearNotification (service : CoreService) : CoreService :=
  { service with notification := false }

/-- The step of a task which waits for the lock. -/
def lockedAdvance (service : CoreService) (index : ℕ) (task : Task) : CoreService :=
  match task.phase with
  | .checking =>
      service.setTask index
        { task with phase := if shouldHonorEvent service.serviceState then .stopping else .done }
  | .entering => service.enter index task
  | .waiting =>
      if task.kind = .destroy then
        { service with serviceState := .stopping }.setTask index { task with phase := .accepted }
      else if StateMachine.shouldRunStop service.serviceState then
        { service with
          serviceState := .stopping
          stops := service.stops + 1
          userStart := false }.setTask index { task with phase := .accepted }
      else service.setTask index { task with phase := .done }
  | .closed | .cleared => service.writeStopped index task
  | _ => service

/-- Whether the next step of the task needs the lock of the state. -/
def locks (task : Task) : Bool :=
  match task.phase with
  | .checking | .entering | .waiting | .cleared => true
  | .closed => task.kind == .destroy
  | _ => false

def advance (service : CoreService) (index : ℕ) (succeeds : Bool) (task : Task) : CoreService :=
  if locks task then
    if service.start.isSome then service else service.lockedAdvance index task
  else
    match task.phase with
    | .stopping => service.nativeStop.setTask index { task with phase := .entering }
    | .loading =>
        service.setTask index { task with phase := if succeeds then .entering else .clearing }
    | .clearing => service.clearNotification.setTask index { task with phase := .writing }
    -- `failAndStop` writes the state without the lock
    | .writing =>
        { service with serviceState := .stopped }.setTask index { task with phase := .done }
    | .posting =>
        { service with notification := true }.setTask index { task with phase := .done }
    | .accepted =>
        { service with notifJob := false }.nativeStop.setTask index
          { task with phase := .nativeStopped }
    | .nativeStopped =>
        { service with tunFd := none }.setTask index { task with phase := .closed }
    | .closed => service.clearNotification.setTask index { task with phase := .cleared }
    | .written => service.clearNotification.setTask index { task with phase := .done }
    | _ => service

/-- `startInternal` returns to its caller and releases the lock. -/
def returnTo (service : CoreService) (start : Start) (succeeded : Bool) : CoreService :=
  { service with
    start := none
    tasks := service.tasks.modify start.task (·.afterStart succeeded) }

def finishStart (service : CoreService) (start : Start) : CoreService :=
  { service with
    serviceState := StateMachine.stateAfterStart 0
    notifJob := true
    revived := service.revived || service.stale start.caller }.returnTo start true

def failStart (service : CoreService) (start : Start) : CoreService :=
  { service with
    serviceState := StateMachine.stateAfterStart (-1)
    start := some { start with phase := .failing } }

/-- A valid descriptor is used again. -/
def establish (service : CoreService) : CoreService :=
  match service.tunFd with
  | some _ => { service with notification := true }
  | none =>
      { service with
        tunFd := some service.nextFd
        nextFd := service.nextFd + 1
        notification := true }

/-- The next step of the body of `startInternal`. -/
def proceed (service : CoreService) (succeeds : Bool) (start : Start) : CoreService :=
  match start.phase with
  | .establishing =>
      if succeeds then
        { service.establish with start := some { start with phase := .established } }
      else service.failStart start
  -- `MirageNative.start` has nothing to do where an engine runs
  | .established =>
      if !succeeds then service.failStart start
      else if service.nativeStarted && service.engine.isSome then service.finishStart start
      else
        { service with
          nativeStarted := true
          start := some { start with phase := .nativeStarting } }
  | .nativeStarting =>
      if succeeds then { service with engine := service.tunFd }.finishStart start
      else { service with nativeStarted := false }.failStart start
  | .failing => { service.nativeStop with tunFd := none, notifJob := false }.returnTo start false

def step (service : CoreService) : ServiceEvent → CoreService
  | .onStartCommand startSeq =>
      if service.mainBusy then service else service.onStartCommand startSeq
  | .actionStop stopSeq => if service.mainBusy then service else service.actionStop stopSeq
  | .binderStart => { service with userStart := true }.spawn .binder .entering
  | .stop => service.spawn .stop .waiting
  | .onDestroy => if service.mainBusy then service else service.spawn .destroy .waiting
  | .restartRequested => service.spawn (.restart service.stops) .checking
  | .notifTick => if service.notifJob then service.spawn .notifier .posting else service
  | .advance index succeeds =>
      service.tasks[index]?.elim service (service.advance index succeeds)
  | .proceed succeeds => service.start.elim service (service.proceed succeeds)

end CoreService

end Mirage.Shell
