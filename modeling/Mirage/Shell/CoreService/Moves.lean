import Mirage.Shell.CoreService.Coherence

/-!
# The moves of a service without restarts

Where the service is driven by commands and stops alone, a step moves one task
and has one of five outcomes for the state.
-/

namespace Mirage.Shell

open Mirage.Foundations

namespace Task

/-- The task is a command or a stop, at a place where one can be. -/
def regular (task : Task) : Bool :=
  match task.kind, task.phase with
  | .command, .loading | .command, .entering | .command, .starting | .command, .clearing
  | .command, .writing | .command, .posting | .command, .done => true
  | .actionStop, .waiting | .actionStop, .accepted | .actionStop, .nativeStopped
  | .actionStop, .closed | .actionStop, .cleared | .actionStop, .done => true
  | .stop, .waiting | .stop, .accepted | .stop, .nativeStopped | .stop, .closed
  | .stop, .cleared | .stop, .done => true
  | _, _ => false

/-- The task keeps the main thread of the service. -/
def onMain (task : Task) : Bool := task.kind.onMain && task.runs

/-- The command has not started the service yet. -/
def starts (task : Task) : Bool :=
  task.kind == .command &&
    (task.phase == .loading || task.phase == .entering || task.phase == .starting)

/-- A command which goes by that the service is stopped. -/
def expectsStopped (task : Task) : Bool :=
  task.kind == .command &&
    (task.phase == .loading || task.phase == .entering || task.phase == .clearing ||
      task.phase == .writing)

end Task

namespace CoreService

/-- What the move of a task from `old` to `new` means for the state. -/
inductive Outcome (before after : ServiceState) (old new : Task) : Prop where
  | quiet (state : after = before) (tearing : new.tearing = true → old.tearing = true)
      (starts : new.starts = true → old.starts = true)
      (expects : new.expectsStopped = true → old.expectsStopped = true)
      (declined : old.phase = .waiting → before ≠ .running ∧ before ≠ .starting)
  | accepts (here : before = .running) (state : after = .stopping)
      (phase : old.phase = .waiting) (next : new.phase = .accepted)
  | enters (state : after = .starting) (phase : old.expectsStopped = true)
      (starts : old.starts = true) (next : new.phase = .starting)
  | stops (state : after = .stopped) (phase : old.phase ≠ .waiting) (tearing : new.tearing = false)
      (starts : new.starts = true → old.starts = true)
  | runs (here : before = .starting) (state : after = .running) (starts : old.starts = true)
      (next : new.phase = .posting)

/-- One task of the service moves from `old` to `new`. -/
structure Moves (service other : CoreService) (index : ℕ) (old new : Task) : Prop where
  found : service.tasks[index]? = some old
  tasks : other.tasks = service.tasks.set index new
  kind : new.kind = old.kind
  regular : new.regular = true
  runs : new.runs = true → old.runs = true
  waits : new.phase ≠ .waiting
  sameSeq : other.activeSessionSeq = service.activeSessionSeq
  outcome : Outcome service.serviceState other.serviceState old new

variable {service : CoreService} {index : ℕ} {kind : TaskKind} {phase : TaskPhase}

theorem shouldRunStop_iff {state : ServiceState} (locked : state ≠ .starting) :
    StateMachine.shouldRunStop state = true ↔ state = .running := by
  cases state <;> simp [StateMachine.shouldRunStop] at locked ⊢

/-- Where no stop can be there is a command. -/
theorem command_of_regular (regular : (⟨kind, phase⟩ : Task).regular = true)
    (noStop : (⟨.stop, phase⟩ : Task).regular = false) : kind = .command := by
  cases kind with
  | command => rfl
  | stop =>
      rw [noStop] at regular
      cases regular
  | actionStop => cases phase <;> simp [Task.regular] at regular noStop
  | binder | restart | destroy | notifier => simp [Task.regular] at regular

/-- Only a stop tears the service down. -/
theorem stop_of_tearing (regular : (⟨kind, phase⟩ : Task).regular = true)
    (tearing : (⟨kind, phase⟩ : Task).tearing = true) : kind = .stop ∨ kind = .actionStop := by
  cases phase <;> simp [Task.tearing] at tearing <;> cases kind <;>
    simp [Task.regular] at regular ⊢

/-- A teardown goes on. -/
theorem moves_tearing {other : CoreService} {next : TaskPhase}
    (found : service.tasks[index]? = some ⟨kind, phase⟩)
    (regular : (⟨kind, phase⟩ : Task).regular = true)
    (tearing : (⟨kind, phase⟩ : Task).tearing = true)
    (goesOn : (⟨kind, next⟩ : Task).tearing = true)
    (tasks : other.tasks = service.tasks.set index ⟨kind, next⟩)
    (sameSeq : other.activeSessionSeq = service.activeSessionSeq)
    (state : other.serviceState = service.serviceState) :
    Moves service other index ⟨kind, phase⟩ ⟨kind, next⟩ := by
  have stop := stop_of_tearing regular tearing
  have running : (⟨kind, phase⟩ : Task).runs = true := by
    cases phase <;> simp [Task.tearing, Task.runs] at tearing ⊢
  have notWaiting : phase ≠ .waiting := by
    rintro rfl
    cases tearing
  have notCommand : (kind == .command) = false := by rcases stop with rfl | rfl <;> rfl
  refine ⟨found, tasks, rfl, ?_, fun _ => running, ?_, sameSeq, ?_⟩
  · rcases stop with rfl | rfl <;> cases next <;> simp [Task.tearing, Task.regular] at goesOn ⊢
  · rintro rfl
    cases goesOn
  · exact .quiet state (fun _ => tearing) (by simp [Task.starts, notCommand])
      (by simp [Task.expectsStopped, notCommand]) fun waits => absurd waits notWaiting

theorem moves_waiting (coherent : service.Coherent)
    (found : service.tasks[index]? = some ⟨kind, .waiting⟩)
    (regular : (⟨kind, .waiting⟩ : Task).regular = true) (idle : service.start = none) :
    ∃ new, Moves service (service.lockedAdvance index ⟨kind, .waiting⟩) index
      ⟨kind, .waiting⟩ new := by
  have notStarting := coherent.idleState idle
  have notDestroy : kind ≠ .destroy := by
    rintro rfl
    simp [Task.regular] at regular
  simp only [lockedAdvance, if_neg notDestroy]
  by_cases here : service.serviceState = .running
  · rw [if_pos ((shouldRunStop_iff notStarting).mpr here)]
    refine ⟨⟨kind, .accepted⟩, found, rfl, rfl, ?_, fun _ => rfl, by simp, rfl, ?_⟩
    · cases kind <;> simp [Task.regular] at regular ⊢
    · exact .accepts here rfl rfl rfl
  · rw [if_neg (fun runs => here ((shouldRunStop_iff notStarting).mp runs))]
    refine ⟨⟨kind, .done⟩, found, rfl, rfl, ?_, by simp [Task.runs], by simp, rfl, ?_⟩
    · cases kind <;> simp [Task.regular] at regular ⊢
    · exact .quiet rfl (by simp [Task.tearing]) (by simp [Task.starts])
        (by simp [Task.expectsStopped]) fun _ => ⟨here, notStarting⟩

theorem moves_entering (found : service.tasks[index]? = some ⟨kind, .entering⟩)
    (regular : (⟨kind, .entering⟩ : Task).regular = true)
    (state : service.serviceState = .stopped) :
    ∃ new, Moves service (service.enter index ⟨kind, .entering⟩) index ⟨kind, .entering⟩ new := by
  have command := command_of_regular regular rfl
  subst command
  have verdict : StateMachine.verdictForStart service.serviceState service.nativeStarted =
      .proceed := by
    rw [StateMachine.verdictForStart_eq_proceed, state]
    simp
  simp only [enter, verdict]
  exact ⟨⟨.command, .starting⟩, found, rfl, rfl, rfl, fun _ => rfl, by simp, rfl,
    .enters rfl rfl rfl rfl⟩

theorem moves_cleared (found : service.tasks[index]? = some ⟨kind, .cleared⟩)
    (regular : (⟨kind, .cleared⟩ : Task).regular = true) :
    ∃ new, Moves service (service.writeStopped index ⟨kind, .cleared⟩) index
      ⟨kind, .cleared⟩ new := by
  have notDestroy : kind ≠ .destroy := by
    rintro rfl
    simp [Task.regular] at regular
  have written : service.writeStopped index ⟨kind, .cleared⟩ =
      { service with serviceState := .stopped }.setTask index ⟨kind, .done⟩ := by
    unfold writeStopped
    split
    · exact absurd ‹_› notDestroy
    · rfl
  rw [written]
  refine ⟨⟨kind, .done⟩, found, rfl, rfl, ?_, by simp [Task.runs], by simp, rfl, ?_⟩
  · cases kind <;> simp [Task.regular] at regular ⊢
  · exact .stops rfl (by simp) rfl (by simp [Task.starts])

/-- A step of a task: it waits for the lock, or it moves. -/
theorem moves_advance {task : Task} (coherent : service.Coherent)
    (found : service.tasks[index]? = some task) (regular : task.regular = true)
    (expects : task.expectsStopped = true → service.serviceState = .stopped) (succeeds : Bool) :
    service.advance index succeeds task = service ∨
      ∃ new, Moves service (service.advance index succeeds task) index task new := by
  obtain ⟨kind, phase⟩ := task
  cases phase with
  | checking | stopping | written => cases kind <;> simp [Task.regular] at regular
  | starting | done => exact Or.inl rfl
  | loading =>
      right
      have command := command_of_regular regular rfl
      subst command
      have state := expects rfl
      simp only [advance, locks]
      cases succeeds with
      | true =>
          exact ⟨⟨.command, .entering⟩, found, rfl, rfl, rfl, fun _ => rfl, by simp, rfl,
            .quiet rfl (by simp [Task.tearing]) (fun _ => rfl) (fun _ => rfl) (by simp)⟩
      | false =>
          exact ⟨⟨.command, .clearing⟩, found, rfl, rfl, rfl, fun _ => rfl, by simp, rfl,
            .quiet rfl (by simp [Task.tearing]) (fun _ => rfl) (fun _ => rfl) (by simp)⟩
  | entering =>
      simp only [advance, locks, if_true]
      by_cases busy : service.start.isSome = true
      · exact Or.inl (if_pos busy)
      · rw [if_neg busy]
        have command := command_of_regular regular rfl
        subst command
        exact Or.inr (moves_entering found regular (expects rfl))
  | waiting =>
      simp only [advance, locks, if_true]
      by_cases busy : service.start.isSome = true
      · exact Or.inl (if_pos busy)
      · rw [if_neg busy]
        exact Or.inr (moves_waiting coherent found regular (by simpa using busy))
  | cleared =>
      simp only [advance, locks, if_true]
      by_cases busy : service.start.isSome = true
      · exact Or.inl (if_pos busy)
      · rw [if_neg busy]
        exact Or.inr (moves_cleared found regular)
  | clearing =>
      right
      have command := command_of_regular regular rfl
      subst command
      exact ⟨⟨.command, .writing⟩, found, rfl, rfl, rfl, fun _ => rfl, by simp, rfl,
        .quiet rfl (by simp [Task.tearing]) (by simp [Task.starts]) (fun _ => rfl) (by simp)⟩
  | writing =>
      right
      have command := command_of_regular regular rfl
      subst command
      exact ⟨⟨.command, .done⟩, found, rfl, rfl, rfl, by simp [Task.runs], by simp, rfl,
        .stops rfl (by simp) rfl (by simp [Task.starts])⟩
  | posting =>
      right
      have command := command_of_regular regular rfl
      subst command
      exact ⟨⟨.command, .done⟩, found, rfl, rfl, rfl, by simp [Task.runs], by simp, rfl,
        .quiet rfl (by simp [Task.tearing]) (by simp [Task.starts])
          (by simp [Task.expectsStopped]) (by simp)⟩
  | accepted => exact Or.inr ⟨_, moves_tearing found regular rfl rfl rfl rfl rfl⟩
  | nativeStopped => exact Or.inr ⟨_, moves_tearing found regular rfl rfl rfl rfl rfl⟩
  | closed =>
      right
      have notDestroy : (kind == .destroy) = false := by
        rcases stop_of_tearing regular rfl with rfl | rfl <;> rfl
      simp only [advance, locks, notDestroy]
      exact ⟨⟨kind, .cleared⟩, moves_tearing found regular rfl rfl rfl rfl rfl⟩

section Proceed

variable {start : Start}

/-- The body of a start goes on, and its command stays where it is. -/
theorem moves_within {other : CoreService}
    (linked : service.tasks[start.task]? = some ⟨.command, .starting⟩)
    (tasks : other.tasks = service.tasks)
    (sameSeq : other.activeSessionSeq = service.activeSessionSeq)
    (outcome : Outcome service.serviceState other.serviceState ⟨.command, .starting⟩
      ⟨.command, .starting⟩) :
    Moves service other start.task ⟨.command, .starting⟩ ⟨.command, .starting⟩ :=
  ⟨linked, by rw [tasks, set_of_getElem? linked], rfl, rfl, id, by simp, sameSeq, outcome⟩

theorem moves_finishStart (linked : service.tasks[start.task]? = some ⟨.command, .starting⟩)
    (state : service.serviceState = .starting) (engine : Option ℕ) :
    Moves service ({ service with engine }.finishStart start) start.task ⟨.command, .starting⟩
      ⟨.command, .posting⟩ := by
  refine ⟨linked, ?_, rfl, rfl, fun _ => rfl, by simp, rfl, .runs state rfl rfl rfl⟩
  exact modify_of_getElem? linked _

/-- The step of a start of a command. -/
theorem moves_proceed (coherent : service.Coherent) (running : service.start = some start)
    (linked : service.tasks[start.task]? = some ⟨.command, .starting⟩) (succeeds : Bool) :
    ∃ new, Moves service (service.proceed succeeds start) start.task ⟨.command, .starting⟩ new := by
  have state := coherent.lockState start running
  have stays : Outcome service.serviceState service.serviceState ⟨.command, .starting⟩
      ⟨.command, .starting⟩ := .quiet rfl id id id (by simp)
  have fails : Outcome service.serviceState .stopped ⟨.command, .starting⟩ ⟨.command, .starting⟩ :=
    .stops rfl (by simp) rfl id
  unfold proceed
  split <;> rename_i phase
  · split
    · unfold establish
      split <;> exact ⟨_, moves_within linked rfl rfl stays⟩
    · exact ⟨_, moves_within linked rfl rfl fails⟩
  · rw [if_pos (by simp [Start.locked, phase])] at state
    split
    · exact ⟨_, moves_within linked rfl rfl fails⟩
    · split
      · exact ⟨_, moves_finishStart linked state _⟩
      · exact ⟨_, moves_within linked rfl rfl stays⟩
  · rw [if_pos (by simp [Start.locked, phase])] at state
    split
    · exact ⟨_, moves_finishStart linked state _⟩
    · exact ⟨_, moves_within linked rfl rfl fails⟩
  · rw [if_neg (by simp [Start.locked, phase])] at state
    refine ⟨⟨.command, .clearing⟩, linked, ?_, rfl, rfl, fun _ => rfl, by simp, rfl, ?_⟩
    · exact modify_of_getElem? linked _
    · exact .stops state (by simp) rfl (by simp [Task.starts])

end Proceed

/--
The tasks of a service without restarts: at most one of them is on the main
thread, and no command has been let in while a teardown is in progress.
-/
structure Disciplined (service : CoreService) : Prop where
  coherent : service.Coherent
  regular : ∀ task ∈ service.tasks, task.regular = true
  oneMain : service.tasks.countP Task.onMain ≤ 1
  oneTeardown : service.tasks.countP Task.tearing ≤ 1
  expects : service.tasks.any Task.expectsStopped = true → service.serviceState = .stopped

theorem disciplined_new : CoreService.new.Disciplined where
  coherent := coherent_new
  regular := by simp [new]
  oneMain := by simp [new]
  oneTeardown := by simp [new]
  expects := by simp [new]

section Discipline

variable {other : CoreService} {old new : Task}

theorem onMain_of_starts {task : Task} (starts : task.starts = true) : task.onMain = true := by
  obtain ⟨kind, phase⟩ := task
  cases kind <;> cases phase <;>
    simp [Task.starts, Task.onMain, TaskKind.onMain, Task.runs] at starts ⊢

theorem onMain_of_expects {task : Task} (expects : task.expectsStopped = true) :
    task.onMain = true := by
  obtain ⟨kind, phase⟩ := task
  cases kind <;> cases phase <;>
    simp [Task.expectsStopped, Task.onMain, TaskKind.onMain, Task.runs] at expects ⊢

/-- While a command is on the main thread, no other one is. -/
theorem Disciplined.alone (disciplined : service.Disciplined)
    (found : service.tasks[index]? = some old) (main : old.onMain = true) :
    (service.tasks.eraseIdx index).any Task.expectsStopped = false :=
  any_false_of_imp (any_eraseIdx_of_countP found disciplined.oneMain main) fun _ =>
    onMain_of_expects

theorem Moves.starts (moves : Moves service other index old new) (starts : new.starts = true) :
    old.starts = true := by
  cases moves.outcome with
  | quiet state tearing kept => exact kept starts
  | accepts here state phase next => simp [Task.starts, next] at starts
  | enters state phase before next => exact before
  | stops state phase tearing kept => exact kept starts
  | runs here state before next => exact before

theorem expects_of_moves (disciplined : service.Disciplined)
    (moves : Moves service other index old new)
    (there : other.tasks.any Task.expectsStopped = true) : other.serviceState = .stopped := by
  rw [moves.tasks, any_set moves.found, Bool.or_eq_true] at there
  have before : old.expectsStopped = true ∨
      (service.tasks.eraseIdx index).any Task.expectsStopped = true →
      service.serviceState = .stopped := by
    intro somebody
    apply disciplined.expects
    rwa [any_of_getElem? moves.found, Bool.or_eq_true]
  cases moves.outcome with
  | quiet state tearing starts kept => exact state.trans (before (there.imp_left kept))
  | accepts here state phase next =>
      have elsewhere := there.resolve_left (by simp [Task.expectsStopped, next])
      rw [before (Or.inr elsewhere)] at here
      cases here
  | enters state phase starts next =>
      have elsewhere := there.resolve_left (by simp [Task.expectsStopped, next])
      rw [disciplined.alone moves.found (onMain_of_starts starts)] at elsewhere
      cases elsewhere
  | stops state => exact state
  | runs here state starts next =>
      have elsewhere := there.resolve_left (by simp [Task.expectsStopped, next])
      rw [disciplined.alone moves.found (onMain_of_starts starts)] at elsewhere
      cases elsewhere

theorem oneTeardown_of_moves (disciplined : service.Disciplined)
    (moves : Moves service other index old new) :
    other.tasks.countP Task.tearing ≤ 1 := by
  rw [moves.tasks]
  have kept (before : new.tearing = true → old.tearing = true) :=
    Nat.le_trans (countP_set_le moves.found before) disciplined.oneTeardown
  cases moves.outcome with
  | quiet state tearing => exact kept tearing
  | accepts here state phase next =>
      have none : service.tasks.countP Task.tearing = 0 := by
        have quiet := not_tearing disciplined.coherent (by simp [here])
        rw [List.any_eq_false] at quiet
        exact List.countP_eq_zero.mpr quiet
      have counted := countP_set_add moves.found Task.tearing new
      have atMost := Bool.toNat_le new.tearing
      omega
  | enters state phase starts next => exact kept (by simp [Task.tearing, next])
  | stops state phase tearing => exact kept (by simp [tearing])
  | runs here state starts next => exact kept (by simp [Task.tearing, next])

theorem oneMain_of_moves (disciplined : service.Disciplined)
    (moves : Moves service other index old new) :
    other.tasks.countP Task.onMain ≤ 1 := by
  rw [moves.tasks]
  refine Nat.le_trans (countP_set_le moves.found ?_) disciplined.oneMain
  intro main
  simp only [Task.onMain, Bool.and_eq_true, moves.kind] at main ⊢
  exact ⟨main.1, moves.runs main.2⟩

theorem Disciplined.of_moves (disciplined : service.Disciplined)
    (moves : Moves service other index old new) (coherent : other.Coherent) :
    other.Disciplined where
  coherent := coherent
  regular := by
    intro task there
    rw [moves.tasks] at there
    rcases List.mem_or_eq_of_mem_set there with before | rfl
    · exact disciplined.regular task before
    · exact moves.regular
  oneMain := oneMain_of_moves disciplined moves
  oneTeardown := oneTeardown_of_moves disciplined moves
  expects := expects_of_moves disciplined moves

/-- A step which leaves the tasks and the state alone. -/
theorem Disciplined.of_same (disciplined : service.Disciplined) (coherent : other.Coherent)
    (tasks : other.tasks = service.tasks) (state : other.serviceState = service.serviceState) :
    other.Disciplined where
  coherent := coherent
  regular := by simpa only [tasks] using disciplined.regular
  oneMain := by simpa only [tasks] using disciplined.oneMain
  oneTeardown := by simpa only [tasks] using disciplined.oneTeardown
  expects := by simpa only [tasks, state] using disciplined.expects

/-- A task begins, on the main thread only if no other one is there. -/
theorem Disciplined.of_append (disciplined : service.Disciplined) (coherent : other.Coherent)
    (tasks : other.tasks = service.tasks ++ [new])
    (state : other.serviceState = service.serviceState) (regular : new.regular = true)
    (main : new.onMain = true → service.mainBusy = false) (begins : new.tearing = false)
    (expects : new.expectsStopped = true → service.serviceState = .stopped) :
    other.Disciplined where
  coherent := coherent
  regular := by
    intro task there
    rw [tasks, List.mem_append, List.mem_singleton] at there
    rcases there with before | rfl
    · exact disciplined.regular task before
    · exact regular
  oneMain := by
    have one := disciplined.oneMain
    rw [tasks, List.countP_append, List.countP_singleton]
    split
    · rename_i onMain
      have none : service.tasks.countP Task.onMain = 0 := by
        have idle := main onMain
        rw [mainBusy, List.any_eq_false] at idle
        exact List.countP_eq_zero.mpr idle
      omega
    · omega
  oneTeardown := by
    rw [tasks, List.countP_append, List.countP_singleton, begins]
    exact disciplined.oneTeardown
  expects := by
    rw [tasks, state, List.any_append, Bool.or_eq_true]
    rintro (before | here)
    · exact disciplined.expects before
    · exact expects (by simpa using here)

end Discipline

end CoreService

end Mirage.Shell
