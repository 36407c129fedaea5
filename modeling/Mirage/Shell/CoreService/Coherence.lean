import Mirage.Shell.CoreService

/-!
# The state of the service and its tunnel

What `serviceState` says about the tasks, the descriptor and the native engine.
`startLocked` relies on `Stopping` to keep it apart from a teardown, so the
invariant is kept as long as `Stopped` is written only where no other teardown is
in progress.  `failAndStop`, which writes it without the lock, and two teardowns
which overlap do not always see to that.
-/

namespace Mirage.Shell

open Mirage.Foundations

namespace Task

/-- The teardown has stopped the native engine. -/
def pastNativeStop (task : Task) : Bool :=
  match task.phase with
  | .nativeStopped | .closed | .cleared => true
  | _ => false

/-- The teardown has closed the descriptor. -/
def pastClose (task : Task) : Bool :=
  match task.phase with
  | .closed | .cleared => true
  | _ => false

/-- How far the task is with a teardown. -/
def teardown (task : Task) : Bool × Bool × Bool :=
  (task.tearing, task.pastNativeStop, task.pastClose)

def entering (task : Task) : Bool := task.phase == .entering

/-- The next step of the task ends a teardown. -/
def endsTeardown (task : Task) : Bool :=
  match task.phase with
  | .closed => task.kind == .destroy
  | .cleared => true
  | _ => false

theorem teardown_afterStart (task : Task) (succeeded : Bool) :
    (task.afterStart succeeded).teardown = (false, false, false) := by
  unfold afterStart
  split <;> cases succeeded <;> rfl

theorem teardown_of_phase {task : Task} {phase : TaskPhase} (here : task.phase = phase) :
    task.teardown = (⟨.command, phase⟩ : Task).teardown := by
  subst here
  rfl

end Task

namespace CoreService

def Quiescent (service : CoreService) : Prop :=
  service.start = none ∧ ∀ task ∈ service.tasks, task.runs = false

instance (service : CoreService) : Decidable service.Quiescent :=
  inferInstanceAs (Decidable (_ ∧ _))

/-- The step of a task writes `Stopped` only where no other teardown is in progress. -/
def TaskExclusive (service : CoreService) (index : ℕ) (task : Task) : Prop :=
  (task.endsTeardown = true → service.start = none →
      (service.tasks.eraseIdx index).any Task.tearing = false) ∧
    (task.phase = .writing → service.serviceState = .stopped)

instance (service : CoreService) (index : ℕ) (task : Task) :
    Decidable (service.TaskExclusive index task) :=
  inferInstanceAs (Decidable (_ ∧ _))

def Exclusive (service : CoreService) : ServiceEvent → Prop
  | .advance index _ => ∀ task ∈ service.tasks[index]?, service.TaskExclusive index task
  | _ => True

/--
`noEngine` and `noTun` are about the teardowns in progress; `running` allows for
a restart which has stopped the engine and is about to start it again.
-/
structure Coherent (service : CoreService) : Prop where
  stoppingIff : service.serviceState = .stopping ↔ service.tasks.any Task.tearing = true
  linked : ∀ start ∈ service.start,
    service.tasks[start.task]? = some ⟨start.caller, .starting⟩
  lockState : ∀ start ∈ service.start,
    service.serviceState = if start.locked then .starting else .stopped
  idleState : service.start = none → service.serviceState ≠ .starting
  running : service.serviceState = .running → service.tunFd.isSome = true ∧
    (service.engine = service.tunFd ∨ service.engine = none ∧ service.nativeStarted = false ∧
      service.tasks.any Task.entering = true)
  stopped : service.serviceState = .stopped → service.start = none →
    service.tunFd = none ∧ service.engine = none ∧ service.nativeStarted = false
  starting : ∀ start ∈ service.start,
    (service.engine = none ∨ service.engine = service.tunFd) ∧
      (start.phase = .established ∨ start.phase = .nativeStarting → service.tunFd.isSome = true)
  flag : service.nativeStarted = true → service.engine.isSome = true ∨
    ∃ start ∈ service.start, start.phase = .nativeStarting
  noEngine : service.tasks.any Task.pastNativeStop = true →
    service.engine = none ∧ service.nativeStarted = false
  noTun : service.tasks.any Task.pastClose = true → service.tunFd = none

theorem coherent_new : CoreService.new.Coherent := by
  constructor <;> simp [new]

/-- The two services agree in all but the tasks and what is shown. -/
structure SameTunnel (service other : CoreService) : Prop where
  serviceState : other.serviceState = service.serviceState
  tunFd : other.tunFd = service.tunFd
  engine : other.engine = service.engine
  nativeStarted : other.nativeStarted = service.nativeStarted
  start : other.start = service.start

variable {service other : CoreService}

theorem not_tearing (coherent : service.Coherent) (state : service.serviceState ≠ .stopping) :
    service.tasks.any Task.tearing = false :=
  Bool.eq_false_iff.mpr fun tearing => state (coherent.stoppingIff.mpr tearing)

theorem any_pastNativeStop {tasks : List Task} (quiet : tasks.any Task.tearing = false) :
    tasks.any Task.pastNativeStop = false := by
  apply any_false_of_imp quiet
  intro task
  unfold Task.tearing Task.pastNativeStop
  cases task.phase <;> simp

theorem any_pastClose {tasks : List Task} (quiet : tasks.any Task.tearing = false) :
    tasks.any Task.pastClose = false := by
  apply any_false_of_imp quiet
  intro task
  unfold Task.tearing Task.pastClose
  cases task.phase <;> simp

theorem start_none_of_stopping (coherent : service.Coherent)
    (state : service.serviceState = .stopping) : service.start = none := by
  rw [Option.eq_none_iff_forall_not_mem]
  intro start running
  have locked := coherent.lockState start running
  rw [state] at locked
  split at locked <;> cases locked

theorem coherent_of_stopping (state : other.serviceState = .stopping)
    (tearing : other.tasks.any Task.tearing = true) (idle : other.start = none)
    (flag : other.nativeStarted = true → other.engine.isSome = true)
    (noEngine : other.tasks.any Task.pastNativeStop = true →
      other.engine = none ∧ other.nativeStarted = false)
    (noTun : other.tasks.any Task.pastClose = true → other.tunFd = none) : other.Coherent where
  stoppingIff := iff_of_true state tearing
  linked := by simp [idle]
  lockState := by simp [idle]
  idleState := by simp [state]
  running := by simp [state]
  stopped := by simp [state]
  starting := by simp [idle]
  flag started := Or.inl (flag started)
  noEngine := noEngine
  noTun := noTun

theorem coherent_of_stopped (state : other.serviceState = .stopped)
    (quiet : other.tasks.any Task.tearing = false) (idle : other.start = none)
    (tunFd : other.tunFd = none) (engine : other.engine = none)
    (nativeStarted : other.nativeStarted = false) : other.Coherent where
  stoppingIff := by simp [state, quiet]
  linked := by simp [idle]
  lockState := by simp [idle]
  idleState := by simp [state]
  running := by simp [state]
  stopped _ _ := ⟨tunFd, engine, nativeStarted⟩
  starting := by simp [idle]
  flag := by simp [nativeStarted]
  noEngine := by simp [any_pastNativeStop quiet]
  noTun := by simp [any_pastClose quiet]

theorem coherent_of_running (state : other.serviceState = .running)
    (quiet : other.tasks.any Task.tearing = false) (idle : other.start = none)
    (tunFd : other.tunFd.isSome = true) (engine : other.engine = other.tunFd) : other.Coherent where
  stoppingIff := by simp [state, quiet]
  linked := by simp [idle]
  lockState := by simp [idle]
  idleState := by simp [state]
  running _ := ⟨tunFd, Or.inl engine⟩
  stopped := by simp [state]
  starting := by simp [idle]
  flag _ := Or.inl (engine ▸ tunFd)
  noEngine := by simp [any_pastNativeStop quiet]
  noTun := by simp [any_pastClose quiet]

theorem coherent_of_start {start : Start} (running : other.start = some start)
    (state : other.serviceState = if start.locked then .starting else .stopped)
    (quiet : other.tasks.any Task.tearing = false)
    (linked : other.tasks[start.task]? = some ⟨start.caller, .starting⟩)
    (engine : other.engine = none ∨ other.engine = other.tunFd)
    (tunFd : start.phase = .established ∨ start.phase = .nativeStarting →
      other.tunFd.isSome = true)
    (flag : other.nativeStarted = true →
      other.engine.isSome = true ∨ start.phase = .nativeStarting) : other.Coherent where
  stoppingIff := by
    rw [state, quiet]
    split <;> simp
  linked := by simpa [running] using linked
  lockState := by simpa [running] using state
  idleState := by simp [running]
  running := by
    rw [state]
    split <;> simp
  stopped := by simp [running]
  starting := by simpa [running] using ⟨engine, tunFd⟩
  flag := by simpa [running] using flag
  noEngine := by simp [any_pastNativeStop quiet]
  noTun := by simp [any_pastClose quiet]

/-- A step of the tasks which leaves the tunnel and the teardowns as they are. -/
theorem Coherent.of_same (coherent : service.Coherent) (same : SameTunnel service other)
    (tearing : other.tasks.any Task.tearing = service.tasks.any Task.tearing)
    (pastNativeStop : other.tasks.any Task.pastNativeStop = service.tasks.any Task.pastNativeStop)
    (pastClose : other.tasks.any Task.pastClose = service.tasks.any Task.pastClose)
    (entering : service.tasks.any Task.entering = true → service.serviceState = .running →
      service.nativeStarted = false → other.tasks.any Task.entering = true)
    (linked : ∀ start ∈ service.start,
      other.tasks[start.task]? = some ⟨start.caller, .starting⟩) : other.Coherent where
  stoppingIff := by rw [same.serviceState, tearing, coherent.stoppingIff]
  linked := by simpa only [same.start] using linked
  lockState := by simpa only [same.start, same.serviceState] using coherent.lockState
  idleState := by simpa only [same.start, same.serviceState] using coherent.idleState
  running := by
    rw [same.serviceState, same.tunFd, same.engine, same.nativeStarted]
    intro state
    rcases coherent.running state with ⟨tunFd, engine | ⟨engine, flag, there⟩⟩
    · exact ⟨tunFd, Or.inl engine⟩
    · exact ⟨tunFd, Or.inr ⟨engine, flag, entering there state flag⟩⟩
  stopped := by
    simpa only [same.start, same.serviceState, same.tunFd, same.engine, same.nativeStarted]
      using coherent.stopped
  starting := by simpa only [same.start, same.tunFd, same.engine] using coherent.starting
  flag := by simpa only [same.start, same.engine, same.nativeStarted] using coherent.flag
  noEngine := by
    simpa only [pastNativeStop, same.engine, same.nativeStarted] using coherent.noEngine
  noTun := by simpa only [pastClose, same.tunFd] using coherent.noTun

section Steps

variable {index : ℕ} {task : Task}

/-- A start in progress stays linked to its task when another one steps. -/
theorem linked_set (coherent : service.Coherent) (found : service.tasks[index]? = some task)
    (elsewhere : task.phase ≠ .starting) (new : Task) :
    ∀ start ∈ service.start,
      (service.tasks.set index new)[start.task]? = some ⟨start.caller, .starting⟩ := by
  intro start running
  have linked := coherent.linked start running
  have different : index ≠ start.task := by
    rintro rfl
    rw [found, Option.some.injEq] at linked
    exact elsewhere (by rw [linked])
  rw [List.getElem?_set_ne different, linked]

theorem linked_append (coherent : service.Coherent) (new : Task) :
    ∀ start ∈ service.start,
      (service.tasks ++ [new])[start.task]? = some ⟨start.caller, .starting⟩ := by
  intro start running
  have linked := coherent.linked start running
  rw [List.getElem?_append_left (List.getElem?_eq_some_iff.mp linked).1, linked]

/-- A task starts whose first step is not the next of a teardown. -/
theorem Coherent.of_append (coherent : service.Coherent) (same : SameTunnel service other)
    {new : Task} (tasks : other.tasks = service.tasks ++ [new]) (begins : new.tearing = false) :
    other.Coherent := by
  have quiet : [new].any Task.tearing = false := by simpa using begins
  have notPast := any_pastNativeStop quiet
  have notClosed := any_pastClose quiet
  refine coherent.of_same same ?_ ?_ ?_ ?_ ?_
  · simp [tasks, begins]
  · rw [tasks, List.any_append, notPast, Bool.or_false]
  · rw [tasks, List.any_append, notClosed, Bool.or_false]
  · intro there _ _
    rw [tasks, List.any_append, there, Bool.true_or]
  · rw [tasks]
    exact linked_append coherent new

/-- A task steps within its part of a teardown, or outside of one. -/
theorem Coherent.of_set (coherent : service.Coherent) (same : SameTunnel service other)
    (found : service.tasks[index]? = some task) {new : Task}
    (tasks : other.tasks = service.tasks.set index new) (elsewhere : task.phase ≠ .starting)
    (teardown : new.teardown = task.teardown)
    (entering : task.entering = true → service.serviceState = .running →
      service.nativeStarted = false → new.entering = true) : other.Coherent := by
  simp only [Task.teardown, Prod.mk.injEq] at teardown
  rcases teardown with ⟨tearing, pastNativeStop, pastClose⟩
  refine coherent.of_same same ?_ ?_ ?_ ?_ ?_
  · rw [tasks, any_set_of_eq found tearing]
  · rw [tasks, any_set_of_eq found pastNativeStop]
  · rw [tasks, any_set_of_eq found pastClose]
  · intro there state flag
    rw [tasks]
    exact any_set_of_imp found (fun before => entering before state flag) there
  · rw [tasks]
    exact linked_set coherent found elsewhere new

/-- A step of a task outside of `startInternal` which does not bring a teardown further. -/
theorem Coherent.of_phase (coherent : service.Coherent) (same : SameTunnel service other)
    (found : service.tasks[index]? = some task) {phase next : TaskPhase}
    (here : task.phase = phase) (tasks : other.tasks = service.tasks.set index ⟨task.kind, next⟩)
    (elsewhere : phase ≠ .starting) (notEntering : phase ≠ .entering)
    (teardown : (⟨.command, next⟩ : Task).teardown = (⟨.command, phase⟩ : Task).teardown) :
    other.Coherent := by
  refine coherent.of_set same found tasks (here ▸ elsewhere) ?_ ?_
  · rw [Task.teardown_of_phase here]
    exact teardown
  · simp [Task.entering, here, notEntering]

theorem coherent_accept (coherent : service.Coherent) (found : service.tasks[index]? = some task)
    (phase : task.phase = .waiting) (idle : service.start = none) (stops : ℕ) (userStart : Bool) :
    ({ service with serviceState := .stopping, stops, userStart }.setTask index
      { task with phase := .accepted }).Coherent := by
  refine coherent_of_stopping rfl ?_ idle ?_ ?_ ?_
  · simp [setTask, any_set found, Task.tearing]
  · intro started
    rcases coherent.flag started with engine | ⟨start, running, _⟩
    · exact engine
    · simp [idle] at running
  · intro past
    apply coherent.noEngine
    rw [← past]
    exact (any_set_of_eq found (by simp [Task.pastNativeStop, phase])).symm
  · intro past
    apply coherent.noTun
    rw [← past]
    exact (any_set_of_eq found (by simp [Task.pastClose, phase])).symm

theorem state_of_tearing (coherent : service.Coherent) (found : service.tasks[index]? = some task)
    (tearing : task.tearing = true) : service.serviceState = .stopping := by
  rw [coherent.stoppingIff, any_of_getElem? found, tearing, Bool.true_or]

theorem coherent_nativeStopped (coherent : service.Coherent)
    (found : service.tasks[index]? = some task) (phase : task.phase = .accepted) :
    ({ service with notifJob := false }.nativeStop.setTask index
      { task with phase := .nativeStopped }).Coherent := by
  have state := state_of_tearing coherent found (by simp [Task.tearing, phase])
  have idle := start_none_of_stopping coherent state
  refine coherent_of_stopping state ?_ idle ?_ ?_ ?_
  · simp [setTask, nativeStop, any_set found, Task.tearing]
  · simp [setTask, nativeStop]
  · intro _
    exact ⟨rfl, rfl⟩
  · intro past
    apply coherent.noTun
    rw [← past]
    exact (any_set_of_eq found (by simp [Task.pastClose, phase])).symm

theorem coherent_closed (coherent : service.Coherent) (found : service.tasks[index]? = some task)
    (phase : task.phase = .nativeStopped) :
    ({ service with tunFd := none }.setTask index { task with phase := .closed }).Coherent := by
  have state := state_of_tearing coherent found (by simp [Task.tearing, phase])
  have past : service.tasks.any Task.pastNativeStop = true := by
    simp [any_of_getElem? found, Task.pastNativeStop, phase]
  have ⟨engine, flag⟩ := coherent.noEngine past
  have idle := start_none_of_stopping coherent state
  refine coherent_of_stopping state ?_ idle ?_ ?_ ?_
  · simp [setTask, any_set found, Task.tearing]
  · simp [setTask, flag]
  · intro _
    exact ⟨engine, flag⟩
  · intro _
    rfl

/-- The end of a teardown, where no other one is in progress. -/
theorem coherent_writeStopped (coherent : service.Coherent)
    (found : service.tasks[index]? = some task)
    (phase : task.phase = .cleared ∨ task.phase = .closed ∧ task.kind = .destroy)
    (idle : service.start = none)
    (alone : (service.tasks.eraseIdx index).any Task.tearing = false) :
    (service.writeStopped index task).Coherent := by
  have state := state_of_tearing coherent found (by
    rcases phase with phase | ⟨phase, _⟩ <;> simp [Task.tearing, phase])
  have ⟨engine, flag⟩ := coherent.noEngine (by
    rcases phase with phase | ⟨phase, _⟩ <;>
      simp [any_of_getElem? found, Task.pastNativeStop, phase])
  have tunFd := coherent.noTun (by
    rcases phase with phase | ⟨phase, _⟩ <;> simp [any_of_getElem? found, Task.pastClose, phase])
  unfold writeStopped
  split
  · refine coherent_of_stopped rfl ?_ idle tunFd engine flag
    simp [setTask, any_set found, Task.tearing, alone]
  · refine coherent_of_stopped rfl ?_ idle tunFd engine flag
    simp [setTask, any_set found, Task.tearing, alone]

/-- The native engine of a restart is stopped, and its task is about to start it again. -/
theorem coherent_stopping (coherent : service.Coherent) (found : service.tasks[index]? = some task)
    (phase : task.phase = .stopping) :
    (service.nativeStop.setTask index { task with phase := .entering }).Coherent where
  stoppingIff := by
    have untorn : Task.tearing { task with phase := .entering } = task.tearing := by
      simp [Task.tearing, phase]
    have same := any_set_of_eq found untorn
    exact coherent.stoppingIff.trans (by simp only [setTask, nativeStop, same])
  linked := linked_set coherent found (by simp [phase]) _
  lockState := coherent.lockState
  idleState := coherent.idleState
  running state := by
    have entering : (service.tasks.set index { task with phase := .entering }).any
        Task.entering = true := by
      simp [any_set found, Task.entering]
    exact ⟨(coherent.running state).1, Or.inr ⟨rfl, rfl, entering⟩⟩
  stopped state idle := ⟨(coherent.stopped state idle).1, rfl, rfl⟩
  starting start running := ⟨Or.inl rfl, (coherent.starting start running).2⟩
  flag := by simp [setTask, nativeStop]
  noEngine _ := ⟨rfl, rfl⟩
  noTun past := by
    apply coherent.noTun
    rw [← past]
    exact (any_set_of_eq found (by simp [Task.pastClose, phase])).symm

theorem coherent_enter (coherent : service.Coherent) (found : service.tasks[index]? = some task)
    (phase : task.phase = .entering) (idle : service.start = none) :
    (service.enter index task).Coherent := by
  unfold enter
  split <;> rename_i verdict
  · have state := StateMachine.verdictForStart_eq_rejectStopping.mp verdict
    refine coherent.of_set ⟨rfl, rfl, rfl, rfl, rfl⟩ found rfl (by simp [phase]) ?_ ?_
    · rw [Task.teardown_afterStart, Task.teardown_of_phase phase]
      rfl
    · simp [state]
  · have ⟨_, started⟩ := StateMachine.verdictForStart_eq_alreadyRunning.mp verdict
    refine coherent.of_set ⟨rfl, rfl, rfl, rfl, rfl⟩ found rfl (by simp [phase]) ?_ ?_
    · rw [Task.teardown_afterStart, Task.teardown_of_phase phase]
      rfl
    · simp [started]
  · have ⟨notStopping, notStarted⟩ := StateMachine.verdictForStart_eq_proceed.mp verdict
    have quiet := not_tearing coherent notStopping
    have known : (service.engine = none ∨ service.engine = service.tunFd) ∧
        service.nativeStarted = false := by
      cases state : service.serviceState with
      | stopped =>
          have ⟨_, engine, flag⟩ := coherent.stopped state idle
          exact ⟨Or.inl engine, flag⟩
      | starting => exact absurd state (coherent.idleState idle)
      | running =>
          refine ⟨?_, notStarted state⟩
          rcases (coherent.running state).2 with engine | ⟨engine, _⟩
          · exact Or.inr engine
          · exact Or.inl engine
      | stopping => exact absurd state notStopping
    apply coherent_of_start rfl
    · rfl
    · simp only [setTask]
      rw [any_set_of_eq found (by simp [Task.tearing, phase])]
      exact quiet
    · have inside := (List.getElem?_eq_some_iff.mp found).1
      simp only [setTask]
      rw [List.getElem?_set_self inside]
    · exact known.1
    · simp
    · intro started
      simp only [setTask] at started
      simp [known.2] at started

theorem coherent_lockedAdvance (coherent : service.Coherent)
    (found : service.tasks[index]? = some task) (idle : service.start = none)
    (alone : task.endsTeardown = true → (service.tasks.eraseIdx index).any Task.tearing = false)
    (locked : locks task = true) : (service.lockedAdvance index task).Coherent := by
  unfold lockedAdvance
  split <;> rename_i phase
  · refine coherent.of_set ⟨rfl, rfl, rfl, rfl, rfl⟩ found rfl (by simp [phase]) ?_ ?_
    · rw [Task.teardown_of_phase phase]
      split <;> rfl
    · simp [Task.entering, phase]
  · exact coherent_enter coherent found phase idle
  · split
    · exact coherent_accept coherent found phase idle _ _
    · split
      · exact coherent_accept coherent found phase idle _ _
      · have same : SameTunnel service (service.setTask index ⟨task.kind, .done⟩) :=
          ⟨rfl, rfl, rfl, rfl, rfl⟩
        exact coherent.of_phase same found phase rfl (by decide) (by decide) rfl
  · have destroy : task.kind = .destroy := by simpa [locks, phase] using locked
    exact coherent_writeStopped coherent found (Or.inr ⟨phase, destroy⟩) idle
      (alone (by simp [Task.endsTeardown, phase, destroy]))
  · exact coherent_writeStopped coherent found (Or.inl phase) idle
      (alone (by simp [Task.endsTeardown, phase]))
  · exact coherent

theorem coherent_advance (coherent : service.Coherent) (found : service.tasks[index]? = some task)
    (exclusive : service.TaskExclusive index task) (succeeds : Bool) :
    (service.advance index succeeds task).Coherent := by
  rcases exclusive with ⟨alone, noWrite⟩
  have moves {other : CoreService} (same : SameTunnel service other) {phase next : TaskPhase}
      (here : task.phase = phase)
      (tasks : other.tasks = service.tasks.set index ⟨task.kind, next⟩) :=
    coherent.of_phase same found here tasks
  unfold advance
  split
  · rename_i locked
    split
    · exact coherent
    · rename_i free
      have idle : service.start = none := by simpa using free
      exact coherent_lockedAdvance coherent found idle (fun ends => alone ends idle) locked
  · split <;> rename_i phase
    · exact coherent_stopping coherent found phase
    · cases succeeds with
      | true => exact moves ⟨rfl, rfl, rfl, rfl, rfl⟩ phase rfl (by decide) (by decide) rfl
      | false => exact moves ⟨rfl, rfl, rfl, rfl, rfl⟩ phase rfl (by decide) (by decide) rfl
    · exact moves ⟨rfl, rfl, rfl, rfl, rfl⟩ phase rfl (by decide) (by decide) rfl
    · exact moves ⟨(noWrite phase).symm, rfl, rfl, rfl, rfl⟩ phase rfl (by decide) (by decide) rfl
    · exact moves ⟨rfl, rfl, rfl, rfl, rfl⟩ phase rfl (by decide) (by decide) rfl
    · exact coherent_nativeStopped coherent found phase
    · exact coherent_closed coherent found phase
    · exact moves ⟨rfl, rfl, rfl, rfl, rfl⟩ phase rfl (by decide) (by decide) rfl
    · exact moves ⟨rfl, rfl, rfl, rfl, rfl⟩ phase rfl (by decide) (by decide) rfl
    · exact coherent

end Steps

section Proceed

variable {start : Start}

theorem quiet_of_start (coherent : service.Coherent) (running : service.start = some start) :
    service.tasks.any Task.tearing = false := by
  apply not_tearing coherent
  rw [coherent.lockState start running]
  split <;> decide

/-- The flag of the native engine is truthful unless the engine is just being started. -/
theorem engine_of_flag (coherent : service.Coherent) (running : service.start = some start)
    (before : start.phase ≠ .nativeStarting) (started : service.nativeStarted = true) :
    service.engine.isSome = true := by
  rcases coherent.flag started with engine | ⟨other, there, starting⟩
  · exact engine
  · rw [running] at there
    cases there
    exact absurd starting before

theorem coherent_failStart (coherent : service.Coherent) (running : service.start = some start)
    (flag : service.nativeStarted = true → service.engine.isSome = true) :
    (service.failStart start).Coherent := by
  have quiet := quiet_of_start coherent running
  have linked := coherent.linked start running
  refine coherent_of_start rfl rfl quiet linked ?_ ?_ ?_
  · exact (coherent.starting start running).1
  · simp
  · exact fun started => Or.inl (flag started)

theorem any_returnTo (linked : service.tasks[start.task]? = some ⟨start.caller, .starting⟩)
    (succeeded : Bool) (test : Task → Bool) :
    (service.returnTo start succeeded).tasks.any test =
      (test ((⟨start.caller, .starting⟩ : Task).afterStart succeeded) ||
        (service.tasks.eraseIdx start.task).any test) := by
  simp only [returnTo]
  rw [modify_of_getElem? linked, any_set linked]

theorem quiet_returnTo (linked : service.tasks[start.task]? = some ⟨start.caller, .starting⟩)
    (quiet : service.tasks.any Task.tearing = false) (succeeded : Bool) :
    (service.returnTo start succeeded).tasks.any Task.tearing = false := by
  have outside := congrArg Prod.fst (Task.teardown_afterStart ⟨start.caller, .starting⟩ succeeded)
  rw [any_of_getElem? linked, Bool.or_eq_false_iff] at quiet
  rw [any_returnTo linked, quiet.2, Bool.or_false]
  exact outside

theorem coherent_finishStart (linked : service.tasks[start.task]? = some ⟨start.caller, .starting⟩)
    (quiet : service.tasks.any Task.tearing = false) (tunFd : service.tunFd.isSome = true)
    (engine : service.engine = service.tunFd) : (service.finishStart start).Coherent :=
  coherent_of_running rfl (quiet_returnTo linked quiet true) rfl tunFd engine

theorem coherent_proceed (coherent : service.Coherent) (running : service.start = some start)
    (succeeds : Bool) : (service.proceed succeeds start).Coherent := by
  have linked := coherent.linked start running
  have quiet := quiet_of_start coherent running
  have ⟨engine, tunFd⟩ := coherent.starting start running
  have state := coherent.lockState start running
  unfold proceed
  split <;> rename_i phase
  · have locked : start.locked = true := by simp [Start.locked, phase]
    have flag := engine_of_flag coherent running (by simp [phase])
    rw [if_pos locked] at state
    split
    · unfold establish
      split
      · rename_i found
        refine coherent_of_start rfl state quiet linked engine ?_ ?_
        · simp [found]
        · exact fun started => Or.inl (flag started)
      · rename_i found
        have idle : service.engine = none := by simpa [found] using engine
        refine coherent_of_start rfl state quiet linked (Or.inl idle) ?_ ?_
        · simp
        · exact fun started => Or.inl (flag started)
    · exact coherent_failStart coherent running flag
  · have locked : start.locked = true := by simp [Start.locked, phase]
    have flag := engine_of_flag coherent running (by simp [phase])
    have up := tunFd (Or.inl phase)
    rw [if_pos locked] at state
    split
    · exact coherent_failStart coherent running flag
    · split
      · rename_i runs
        have present : service.engine.isSome = true := by
          rw [Bool.and_eq_true] at runs
          exact runs.2
        apply coherent_finishStart linked quiet up
        refine engine.resolve_left ?_
        rintro absent
        simp [absent] at present
      · refine coherent_of_start rfl state quiet linked engine ?_ ?_
        · exact fun _ => up
        · exact fun _ => Or.inr rfl
  · split
    · exact coherent_finishStart linked quiet (tunFd (Or.inr phase)) rfl
    · refine coherent_of_start rfl rfl quiet linked engine ?_ ?_
      · simp
      · simp [failStart]
  · have failing : start.locked = false := by simp [Start.locked, phase]
    rw [if_neg (by simp [failing])] at state
    exact coherent_of_stopped state (quiet_returnTo linked quiet false) rfl rfl rfl rfl

end Proceed

theorem coherent_onStartCommand (coherent : service.Coherent) (startSeq : ℤ) :
    (service.onStartCommand startSeq).Coherent := by
  cases accepts : StateMachine.acceptsStartCommand service.serviceState with
  | false =>
      rw [onStartCommand, accepts]
      exact coherent.of_same ⟨rfl, rfl, rfl, rfl, rfl⟩ rfl rfl rfl (fun there _ _ => there)
        coherent.linked
  | true =>
      rw [onStartCommand, accepts]
      exact coherent.of_append ⟨rfl, rfl, rfl, rfl, rfl⟩ rfl rfl

theorem coherent_step {event : ServiceEvent} (coherent : service.Coherent)
    (exclusive : service.Exclusive event) : (service.step event).Coherent := by
  have spawned {kind : TaskKind} {phase : TaskPhase}
      (begins : (⟨kind, phase⟩ : Task).tearing = false) : (service.spawn kind phase).Coherent :=
    coherent.of_append ⟨rfl, rfl, rfl, rfl, rfl⟩ rfl begins
  cases event with
  | onStartCommand startSeq =>
      simp only [step]
      split
      · exact coherent
      · exact coherent_onStartCommand coherent startSeq
  | actionStop stopSeq =>
      simp only [step]
      split
      · exact coherent
      · unfold actionStop
        split
        · exact spawned rfl
        · exact coherent
  | binderStart => exact coherent.of_append ⟨rfl, rfl, rfl, rfl, rfl⟩ rfl rfl
  | stop => exact spawned rfl
  | onDestroy =>
      simp only [step]
      split
      · exact coherent
      · exact spawned rfl
  | restartRequested => exact spawned rfl
  | notifTick =>
      simp only [step]
      split
      · exact spawned rfl
      · exact coherent
  | advance index succeeds =>
      simp only [step]
      cases found : service.tasks[index]? with
      | none => exact coherent
      | some task => exact coherent_advance coherent found (exclusive task found) succeeds
  | proceed succeeds =>
      simp only [step]
      cases running : service.start with
      | none => exact coherent
      | some start => exact coherent_proceed coherent running succeeds

end CoreService

end Mirage.Shell
