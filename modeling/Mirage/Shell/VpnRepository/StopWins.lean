import Mirage.Shell.CoreService.Moves
import Mirage.Shell.VpnRepository

/-!
# The stop of the user wins

A stop which is sent as an intent is delivered after every start before it, so
it always finds what it has to stop.  A stop over the binder overtakes the
intents and the command which is on its way to `startInternal`, and `stopVpn`
sends nothing at all where it finds a service which does not run yet.  In a run
in which neither happens while a start is pending, no quiescent state after a
`stopVpn` has a core which runs.
-/

namespace Mirage.Shell

open Mirage.Foundations

def StopJob.isLaunched : StopJob → Bool
  | .launched _ => true
  | .awaiting _ => false

/-- The core runs, by the state of the service or by that of the native engine. -/
def CoreService.CoreRuns (service : CoreService) : Prop :=
  service.serviceState = .running ∨ service.nativeStarted = true ∨ service.engine.isSome = true

instance (service : CoreService) : Decidable service.CoreRuns :=
  inferInstanceAs (Decidable (_ ∨ _))

namespace VpnRepository

/-- Nothing is on its way, and the service has nothing to do. -/
def Quiescent (repo : VpnRepository) : Prop :=
  repo.service.Quiescent ∧ repo.intents = [] ∧ repo.stopJob.any StopJob.isLaunched = false

instance (repo : VpnRepository) : Decidable repo.Quiescent :=
  inferInstanceAs (Decidable (_ ∧ _))

def StopWins (repo : VpnRepository) : Prop :=
  repo.userStopped = true → repo.Quiescent → ¬ repo.service.CoreRuns

/-- A start has been asked for, and the service has not come to the end of it. -/
def startPending (repo : VpnRepository) : Bool :=
  repo.intents.any Intent.isStart || repo.service.tasks.any Task.starts

/-- Neither does the service run, nor is a start pending. -/
def Settled (repo : VpnRepository) : Prop :=
  repo.startPending = false ∧ repo.service.serviceState ≠ .running ∧
    repo.service.serviceState ≠ .starting

instance (repo : VpnRepository) : Decidable repo.Settled :=
  inferInstanceAs (Decidable (_ ∧ _))

/--
What is not sent was not needed, and a stop over the binder takes the lock when
no start is pending.
-/
def Heeded (repo : VpnRepository) : VpnEvent → Prop
  | .ui (.stopVpn answers) =>
      repo.blocked = false → repo.findsIdle answers = true → repo.Settled
  | .ui (.sendStop overAidl sent) =>
      repo.blocked = false → repo.stopJob.any StopJob.isLaunched = true →
        (repo.bound && overAidl) = false → sent = false → repo.Settled
  | .advance index _ =>
      ∀ task ∈ repo.service.tasks[index]?, task.kind = .stop → task.phase = .waiting →
        repo.service.start = none → repo.startPending = false
  | _ => True

instance decidableHeeded (repo : VpnRepository) : ∀ event, Decidable (repo.Heeded event)
  | .ui (.stopVpn answers) =>
      inferInstanceAs
        (Decidable (repo.blocked = false → repo.findsIdle answers = true → repo.Settled))
  | .ui (.sendStop overAidl sent) =>
      inferInstanceAs (Decidable (repo.blocked = false →
        repo.stopJob.any StopJob.isLaunched = true →
          (repo.bound && overAidl) = false → sent = false → repo.Settled))
  | .advance index _ =>
      inferInstanceAs (Decidable (∀ task ∈ repo.service.tasks[index]?, task.kind = .stop →
        task.phase = .waiting → repo.service.start = none → repo.startPending = false))
  | .ui (.startVpn _) | .ui (.confirm _ _) | .ui .onServiceConnected | .ui .unbind
  | .ui (.onStateChanged _) | .ui (.broadcast _ _) | .ui (.telemetryTick _) | .deliver
  | .proceed _ => .isTrue trivial

/-- Where the stop of the user is. -/
inductive StopUnderway (repo : VpnRepository) : Prop where
  | launched (stopSequence : ℤ) (job : repo.stopJob = some (.launched stopSequence))
  | sent (stopSequence : ℤ) (last : repo.intents.getLast? = some (.stop stopSequence))
  | called (task : Task) (there : task ∈ repo.service.tasks) (kind : task.kind = .stop)
      (phase : task.phase = .waiting)
  | waits (nothing : repo.startPending = false) (task : Task)
      (there : task ∈ repo.service.tasks) (phase : task.phase = .waiting)
  | settled (settled : repo.Settled)

/--
`calling` says that a stop over the binder keeps the interface waiting, and
`teardown` that it has overtaken no start.
-/
structure Controlled (repo : VpnRepository) : Prop extends repo.service.Disciplined where
  teardown : ∀ task ∈ repo.service.tasks, task.kind = .stop → task.tearing = true →
    repo.intents.any Intent.isStart = false
  calling : ∀ index task, repo.service.tasks[index]? = some task → task.kind = .stop →
    task.runs = true → repo.calling = some index
  ordered : (repo.service.activeSessionSeq :: repo.intents.map Intent.sequence).Pairwise (· ≤ ·)
  latest : ∀ sequence ∈ repo.service.activeSessionSeq :: repo.intents.map Intent.sequence,
    sequence ≤ repo.startSequence
  job : ∀ stopSequence, repo.stopJob = some (.launched stopSequence) →
    stopSequence = repo.startSequence
  underway : repo.userStopped = true → repo.StopUnderway

theorem controlled_new : VpnRepository.new.Controlled where
  toDisciplined := CoreService.disciplined_new
  teardown := by simp [new, CoreService.new]
  calling := by simp [new, CoreService.new]
  ordered := by simp [new, CoreService.new]
  latest := by simp [new, CoreService.new]
  job := by simp [new]
  underway := by simp [new]

variable {repo : VpnRepository}

theorem Controlled.stopWins (controlled : repo.Controlled) : repo.StopWins := by
  rintro stopped ⟨⟨idle, quiet⟩, sent, launched⟩
  have waiting {task : Task} (there : task ∈ repo.service.tasks) : task.phase ≠ .waiting := by
    intro phase
    have finished := quiet task there
    simp [Task.runs, phase] at finished
  cases controlled.underway stopped with
  | launched stopSequence job => simp [job, StopJob.isLaunched] at launched
  | sent stopSequence last => simp [sent] at last
  | called task there kind phase => exact absurd phase (waiting there)
  | waits nothing task there phase => exact absurd phase (waiting there)
  | settled settled =>
      have quietTasks : repo.service.tasks.any Task.tearing = false := by
        rw [List.any_eq_false]
        intro task there tearing
        have finished := quiet task there
        simp only [Task.runs, bne_eq_false_iff_eq] at finished
        simp [Task.tearing, finished] at tearing
      have state : repo.service.serviceState = .stopped := by
        cases state : repo.service.serviceState with
        | stopped => rfl
        | starting => exact absurd state settled.2.2
        | running => exact absurd state settled.2.1
        | stopping =>
            rw [controlled.coherent.stoppingIff, quietTasks] at state
            cases state
      rcases controlled.coherent.stopped state idle with ⟨_, engine, flag⟩
      simp [CoreService.CoreRuns, state, engine, flag]

section Moves

variable {other : CoreService} {index : ℕ} {old new : Task}

theorem startPending_of_moves (moves : CoreService.Moves repo.service other index old new)
    (nothing : repo.startPending = false) :
    ({ repo with service := other } : VpnRepository).startPending = false := by
  simp only [startPending, Bool.or_eq_false_iff] at nothing ⊢
  refine ⟨nothing.1, ?_⟩
  have quiet := nothing.2
  rw [any_of_getElem? moves.found, Bool.or_eq_false_iff] at quiet
  rw [moves.tasks, any_set moves.found, quiet.2, Bool.or_false, Bool.eq_false_iff]
  intro starts
  rw [moves.starts starts] at quiet
  exact absurd quiet.1 (by simp)

theorem teardown_of_moves (controlled : repo.Controlled)
    (moves : CoreService.Moves repo.service other index old new)
    (heeded : old.kind = .stop → old.phase = .waiting → repo.startPending = false) :
    ∀ task ∈ other.tasks, task.kind = .stop → task.tearing = true →
      repo.intents.any Intent.isStart = false := by
  intro task there kind tearing
  rw [moves.tasks] at there
  rcases List.mem_or_eq_of_mem_set there with before | rfl
  · exact controlled.teardown task before kind tearing
  · have oldThere := List.mem_of_getElem? moves.found
    have oldKind := moves.kind.symm.trans kind
    cases moves.outcome with
    | quiet state kept => exact controlled.teardown old oldThere oldKind (kept tearing)
    | accepts here state phase next =>
        have nothing := heeded oldKind phase
        simp only [startPending, Bool.or_eq_false_iff] at nothing
        exact nothing.1
    | enters state phase starts next => simp [Task.tearing, next] at tearing
    | stops state phase notTearing => simp [notTearing] at tearing
    | runs here state starts next => simp [Task.tearing, next] at tearing

/-- A stop which takes the lock while no start is pending leaves nothing which runs. -/
theorem settled_of_waiting (moves : CoreService.Moves repo.service other index old new)
    (phase : old.phase = .waiting) (nothing : repo.startPending = false) :
    ({ repo with service := other } : VpnRepository).Settled := by
  refine ⟨startPending_of_moves moves nothing, ?_⟩
  cases moves.outcome with
  | quiet state tearing starts expects declined => exact state ▸ declined phase
  | accepts here state => simp [state]
  | enters state expects => simp [Task.expectsStopped, phase] at expects
  | stops state notWaiting => exact absurd phase notWaiting
  | runs here state starts => simp [Task.starts, phase] at starts

theorem settled_of_moves (moves : CoreService.Moves repo.service other index old new)
    (settled : repo.Settled) : ({ repo with service := other } : VpnRepository).Settled := by
  refine ⟨startPending_of_moves moves settled.1, ?_⟩
  have notOld : old.starts ≠ true := by
    intro starts
    have pending := settled.1
    simp only [startPending, Bool.or_eq_false_iff] at pending
    rw [any_of_getElem? moves.found, starts] at pending
    simp at pending
  cases moves.outcome with
  | quiet state => exact state ▸ settled.2
  | accepts here => exact absurd here settled.2.1
  | enters state phase starts => exact absurd starts notOld
  | stops state => simp [state]
  | runs here state starts => exact absurd starts notOld

theorem underway_of_moves (moves : CoreService.Moves repo.service other index old new)
    (heeded : old.kind = .stop → old.phase = .waiting → repo.startPending = false)
    (underway : repo.StopUnderway) :
    ({ repo with service := other } : VpnRepository).StopUnderway := by
  have stays {task : Task} (there : task ∈ repo.service.tasks) (different : task ≠ old) :
      task ∈ other.tasks := by
    rw [moves.tasks]
    exact mem_set_of_ne moves.found there different new
  cases underway with
  | launched stopSequence job => exact .launched stopSequence job
  | sent stopSequence last => exact .sent stopSequence last
  | called task there kind phase =>
      by_cases same : task = old
      · subst same
        exact .settled (settled_of_waiting moves phase (heeded kind phase))
      · exact .called task (stays there same) kind phase
  | waits nothing task there phase =>
      by_cases same : task = old
      · subst same
        exact .settled (settled_of_waiting moves phase nothing)
      · exact .waits (startPending_of_moves moves nothing) task (stays there same) phase
  | settled settled => exact .settled (settled_of_moves moves settled)

/-- The move of one task of the service. -/
theorem Controlled.of_moves (controlled : repo.Controlled)
    (moves : CoreService.Moves repo.service other index old new) (coherent : other.Coherent)
    (heeded : old.kind = .stop → old.phase = .waiting → repo.startPending = false) :
    ({ repo with service := other } : VpnRepository).Controlled where
  toDisciplined := controlled.toDisciplined.of_moves moves coherent
  teardown := by
    have overtaken := teardown_of_moves controlled moves heeded
    exact overtaken
  calling := by
    intro place task there kind runs
    simp only [moves.tasks] at there
    rcases getElem?_set_cases there with ⟨rfl, rfl⟩ | ⟨_, before⟩
    · exact controlled.calling index old moves.found (moves.kind.symm.trans kind) (moves.runs runs)
    · exact controlled.calling place task before kind runs
  ordered := by simpa only [moves.sameSeq] using controlled.ordered
  latest := by simpa only [moves.sameSeq] using controlled.latest
  job := controlled.job
  underway stopped := underway_of_moves moves heeded (controlled.underway stopped)

end Moves

section Deliver

variable {intents : List Intent}

theorem starts_false_of_idle (idle : repo.service.mainBusy = false) :
    repo.service.tasks.any Task.starts = false :=
  any_false_of_imp idle fun _ => CoreService.onMain_of_starts

/-- A teardown over the binder overtakes no start, and one on the main thread keeps it busy. -/
theorem Controlled.not_stopping (controlled : repo.Controlled)
    (pending : repo.intents.any Intent.isStart = true) (idle : repo.service.mainBusy = false) :
    repo.service.serviceState ≠ .stopping := by
  intro state
  rw [controlled.coherent.stoppingIff, List.any_eq_true] at state
  rcases state with ⟨⟨kind, phase⟩, there, tearing⟩
  have regular := controlled.regular _ there
  cases kind with
  | stop =>
      rw [controlled.teardown _ there rfl tearing] at pending
      cases pending
  | actionStop =>
      rw [CoreService.mainBusy, List.any_eq_false] at idle
      refine idle _ there ?_
      cases phase <;> simp [Task.tearing, TaskKind.onMain, Task.runs] at tearing ⊢
  | command | binder | restart | destroy | notifier =>
      cases phase <;> simp [Task.regular, Task.tearing] at regular tearing

theorem disciplined_onStartCommand (controlled : repo.Controlled)
    (pending : repo.intents.any Intent.isStart = true) (idle : repo.service.mainBusy = false)
    (startSeq : ℤ) : (repo.service.onStartCommand startSeq).Disciplined := by
  have coherent := CoreService.coherent_onStartCommand controlled.coherent startSeq
  revert coherent
  cases accepts : StateMachine.acceptsStartCommand repo.service.serviceState with
  | false =>
      rw [CoreService.onStartCommand, accepts]
      intro coherent
      exact controlled.toDisciplined.of_same coherent rfl rfl
  | true =>
      have state : repo.service.serviceState = .stopped := by
        simp only [StateMachine.acceptsStartCommand, Bool.or_eq_true, beq_iff_eq] at accepts
        exact accepts.resolve_right (controlled.not_stopping pending idle)
      rw [CoreService.onStartCommand, accepts]
      intro coherent
      exact controlled.toDisciplined.of_append coherent rfl rfl rfl (fun _ => idle) rfl
        fun _ => state

/-- What `onStartCommand` adds to the tasks, if anything, is a command. -/
theorem tasks_onStartCommand (service : CoreService) (startSeq : ℤ) :
    ∃ added, (service.onStartCommand startSeq).tasks = service.tasks ++ added ∧
      ∀ task ∈ added, task.kind = .command := by
  cases accepts : StateMachine.acceptsStartCommand service.serviceState with
  | false =>
      rw [CoreService.onStartCommand, accepts]
      exact ⟨[], by simp, by simp⟩
  | true =>
      rw [CoreService.onStartCommand, accepts]
      exact ⟨[⟨.command, .loading⟩], rfl, by simp⟩

theorem activeSessionSeq_onStartCommand (service : CoreService) (startSeq : ℤ) :
    (service.onStartCommand startSeq).activeSessionSeq =
      if 0 < startSeq then startSeq else service.activeSessionSeq := by
  cases accepts : StateMachine.acceptsStartCommand service.serviceState <;>
    rw [CoreService.onStartCommand, accepts] <;> rfl

theorem getLast?_of_cons {intent : Intent} {stopSequence : ℤ}
    (last : (intent :: intents).getLast? = some (.stop stopSequence))
    (other : intent ≠ .stop stopSequence ∨ intents ≠ []) :
    intents.getLast? = some (.stop stopSequence) := by
  cases intents with
  | nil =>
      simp only [List.getLast?_singleton, Option.some.injEq] at last
      simp [last] at other
  | cons next rest => simpa using last

theorem controlled_deliver_start (controlled : repo.Controlled) {startSeq : ℤ}
    (head : repo.intents = .start startSeq :: intents) (idle : repo.service.mainBusy = false) :
    ({ repo with service := repo.service.onStartCommand startSeq, intents } :
      VpnRepository).Controlled := by
  have pending : repo.intents.any Intent.isStart = true := by rw [head]; rfl
  rcases tasks_onStartCommand repo.service startSeq with ⟨added, tasks, commands⟩
  have seq := activeSessionSeq_onStartCommand repo.service startSeq
  have ordered := controlled.ordered
  have latest := controlled.latest
  rw [head] at ordered latest
  simp only [List.map_cons, List.pairwise_cons, List.forall_mem_cons, Intent.sequence]
    at ordered latest
  refine ⟨disciplined_onStartCommand controlled pending idle startSeq, ?_, ?_, ?_, ?_,
    controlled.job, ?_⟩
  · intro task there kind tearing
    simp only [tasks, List.mem_append] at there
    rcases there with before | new
    · rw [controlled.teardown task before kind tearing] at pending
      cases pending
    · rw [commands task new] at kind
      cases kind
  · intro index task found kind runs
    simp only [tasks] at found
    by_cases inside : index < repo.service.tasks.length
    · rw [List.getElem?_append_left inside] at found
      exact controlled.calling index task found kind runs
    · rw [List.getElem?_append_right (Nat.le_of_not_lt inside)] at found
      rw [commands task (List.mem_of_getElem? found)] at kind
      cases kind
  · simp only [seq, List.pairwise_cons]
    refine ⟨?_, ordered.2.2⟩
    split
    · exact ordered.2.1
    · exact ordered.1.2
  · simp only [seq, List.forall_mem_cons]
    refine ⟨?_, latest.2.2⟩
    split
    · exact latest.2.1
    · exact latest.1
  · intro stopped
    cases controlled.underway stopped with
    | launched stopSequence job => exact .launched stopSequence job
    | sent stopSequence last =>
        rw [head] at last
        exact .sent stopSequence (getLast?_of_cons last (Or.inl (by simp)))
    | called task there kind phase =>
        exact .called task (by simp only [tasks]; exact List.mem_append_left _ there) kind phase
    | waits nothing => simp [startPending, pending] at nothing
    | settled settled => simp [Settled, startPending, pending] at settled

theorem startPending_append (nothing : repo.startPending = false) {new : Task}
    (other : new.kind ≠ .command) :
    (repo.service.tasks ++ [new]).any Task.starts = false := by
  simp only [startPending, Bool.or_eq_false_iff] at nothing
  rw [List.any_append, nothing.2]
  simp [Task.starts, other]

/-- A stop which is delivered is never older than the start before it. -/
theorem controlled_deliver_stop (controlled : repo.Controlled) {stopSeq : ℤ}
    (head : repo.intents = .stop stopSeq :: intents) (idle : repo.service.mainBusy = false) :
    ({ repo with service := repo.service.actionStop stopSeq, intents } :
      VpnRepository).Controlled := by
  have ordered := controlled.ordered
  have latest := controlled.latest
  rw [head] at ordered latest
  simp only [List.map_cons, List.pairwise_cons, List.forall_mem_cons, Intent.sequence]
    at ordered latest
  have accepted : repo.service.actionStop stopSeq = repo.service.spawn .actionStop .waiting := by
    have accepts : StateMachine.shouldAcceptStopCommand stopSeq
        repo.service.activeSessionSeq = true := by
      simp [StateMachine.shouldAcceptStopCommand, ordered.1.1]
    rw [CoreService.actionStop, if_pos accepts]
  have coherent : (repo.service.spawn .actionStop .waiting).Coherent :=
    controlled.coherent.of_append ⟨rfl, rfl, rfl, rfl, rfl⟩ rfl rfl
  have rest (none : repo.intents.any Intent.isStart = false) :
      intents.any Intent.isStart = false := by
    rw [head] at none
    simpa [Intent.isStart] using none
  have quiet : repo.intents.any Intent.isStart = false → ({ repo with
      service := repo.service.spawn .actionStop .waiting, intents } :
        VpnRepository).startPending = false := by
    intro none
    have nothing : repo.startPending = false := by
      simp [startPending, none, starts_false_of_idle idle]
    simp only [startPending, rest none, Bool.false_or]
    exact startPending_append nothing (by simp)
  rw [accepted]
  refine ⟨?_, ?_, ?_, ?_, ?_, controlled.job, ?_⟩
  · exact controlled.toDisciplined.of_append coherent rfl rfl rfl (fun _ => idle) rfl (by
      simp [Task.expectsStopped])
  · intro task there kind tearing
    simp only [CoreService.spawn, List.mem_append, List.mem_singleton] at there
    rcases there with before | rfl
    · exact rest (controlled.teardown task before kind tearing)
    · cases kind
  · intro index task found kind runs
    simp only [CoreService.spawn] at found
    by_cases inside : index < repo.service.tasks.length
    · rw [List.getElem?_append_left inside] at found
      exact controlled.calling index task found kind runs
    · rw [List.getElem?_append_right (Nat.le_of_not_lt inside)] at found
      have new := List.mem_singleton.mp (List.mem_of_getElem? found)
      rw [new] at kind
      cases kind
  · exact List.pairwise_cons.mpr ⟨ordered.1.2, ordered.2.2⟩
  · exact List.forall_mem_cons.mpr ⟨latest.1, latest.2.2⟩
  · have added : (⟨.actionStop, .waiting⟩ : Task) ∈
        (repo.service.spawn .actionStop .waiting).tasks := by simp [CoreService.spawn]
    intro stopped
    cases controlled.underway stopped with
    | launched stopSequence job => exact .launched stopSequence job
    | sent stopSequence last =>
        by_cases more : intents = []
        · refine .waits (quiet ?_) _ added rfl
          rw [head, more]
          rfl
        · rw [head] at last
          exact .sent stopSequence (getLast?_of_cons last (Or.inr more))
    | called task there kind phase =>
        exact .called task (List.mem_append_left _ there) kind phase
    | waits nothing task there phase =>
        simp only [startPending, Bool.or_eq_false_iff] at nothing
        exact .waits (quiet nothing.1) task (List.mem_append_left _ there) phase
    | settled settled =>
        have nothing := settled.1
        simp only [startPending, Bool.or_eq_false_iff] at nothing
        exact .settled ⟨quiet nothing.1, settled.2⟩

theorem controlled_deliver (controlled : repo.Controlled) : repo.deliver.Controlled := by
  unfold deliver
  split
  · rename_i intent intents head
    split
    · exact controlled
    · rename_i free
      have idle : repo.service.mainBusy = false := by simpa using free
      cases intent with
      | start startSeq =>
          simp only [onStartCommand, CoreService.step, idle]
          exact controlled_deliver_start controlled head idle
      | stop stopSeq =>
          simp only [onStartCommand, CoreService.step, idle]
          exact controlled_deliver_stop controlled head idle
  · exact controlled

end Deliver

section Interface

/-- The main thread of the interface goes on when the stop over the binder has returned. -/
theorem Controlled.returned (controlled : repo.Controlled) (free : repo.blocked = false) :
    ∀ task ∈ repo.service.tasks, task.kind = .stop → task.runs = false := by
  intro task there kind
  rw [Bool.eq_false_iff]
  intro runs
  rcases List.mem_iff_getElem?.mp there with ⟨index, found⟩
  have calling := controlled.calling index task found kind runs
  simp [blocked, calling, found, runs] at free

/-- A step which changes what the interface shows, and no job which has not been sent. -/
theorem Controlled.of_display (controlled : repo.Controlled) {other : VpnRepository}
    (service : other.service = repo.service) (intents : other.intents = repo.intents)
    (startSequence : other.startSequence = repo.startSequence)
    (calling : other.calling = repo.calling) (userStopped : other.userStopped = repo.userStopped)
    (job : ∀ stopSequence, other.stopJob = some (.launched stopSequence) ↔
      repo.stopJob = some (.launched stopSequence)) : other.Controlled := by
  obtain ⟨_, _, _, _, _, _, _, _, _⟩ := other
  dsimp only at service intents startSequence calling userStopped job
  subst service intents startSequence calling userStopped
  refine ⟨controlled.toDisciplined, controlled.teardown, controlled.calling, controlled.ordered,
    controlled.latest, fun stopSequence here => controlled.job stopSequence ((job _).mp here), ?_⟩
  intro stopped
  cases controlled.underway stopped with
  | launched stopSequence here => exact .launched stopSequence ((job _).mpr here)
  | sent stopSequence last => exact .sent stopSequence last
  | called task there kind phase => exact .called task there kind phase
  | waits nothing task there phase => exact .waits nothing task there phase
  | settled settled => exact .settled settled

theorem tearing_of_ends {task : Task} (ends : task.endsTeardown = true) : task.tearing = true := by
  obtain ⟨kind, phase⟩ := task
  cases phase <;> simp [Task.endsTeardown, Task.tearing] at ends ⊢

theorem expects_of_writing {task : Task} (regular : task.regular = true)
    (phase : task.phase = .writing) : task.expectsStopped = true := by
  obtain ⟨kind, _⟩ := task
  subst phase
  cases kind <;> simp [Task.regular, Task.expectsStopped] at regular ⊢

theorem runs_of_tearing {task : Task} (tearing : task.tearing = true) : task.runs = true := by
  obtain ⟨kind, phase⟩ := task
  cases phase <;> simp [Task.tearing, Task.runs] at tearing ⊢

theorem controlled_startVpn (controlled : repo.Controlled) (free : repo.blocked = false)
    (selected : Bool) : (repo.startVpn selected).Controlled := by
  unfold startVpn
  split
  · have earlier : ∀ sequence ∈ repo.service.activeSessionSeq ::
        repo.intents.map Intent.sequence, sequence ≤ repo.startSequence + 1 :=
      fun sequence there => Int.le_trans (controlled.latest sequence there) (by omega)
    refine ⟨controlled.toDisciplined, ?_, controlled.calling, ?_, ?_, ?_, ?_⟩
    · intro task there kind tearing
      have finished := controlled.returned free task there kind
      have runs := runs_of_tearing tearing
      rw [finished] at runs
      cases runs
    · rw [List.map_append, ← List.cons_append, List.pairwise_append]
      refine ⟨controlled.ordered, by simp, ?_⟩
      intro sequence there last isLast
      rw [List.map_singleton, List.mem_singleton] at isLast
      exact isLast ▸ earlier sequence there
    · intro sequence there
      rw [List.map_append, ← List.cons_append, List.mem_append] at there
      rcases there with before | isLast
      · exact earlier sequence before
      · rw [List.map_singleton, List.mem_singleton] at isLast
        exact Int.le_of_eq isLast
    · simp
    · simp
  · exact controlled.of_display rfl rfl rfl rfl rfl fun _ => Iff.rfl

theorem controlled_stopVpn (controlled : repo.Controlled) {answers : Bool}
    (heeded : repo.findsIdle answers = true → repo.Settled) :
    (repo.stopVpn answers).Controlled := by
  unfold stopVpn
  split
  · rename_i idle
    refine ⟨controlled.toDisciplined, controlled.teardown, controlled.calling, controlled.ordered,
      controlled.latest, controlled.job, ?_⟩
    exact fun _ => .settled (heeded idle)
  · refine ⟨controlled.toDisciplined, controlled.teardown, controlled.calling, controlled.ordered,
      controlled.latest, ?_, fun _ => .launched _ rfl⟩
    rintro stopSequence ⟨⟩
    rfl

/-- The stop of a job which has been launched, over one of the two channels or none. -/
theorem controlled_stop (controlled : repo.Controlled) (free : repo.blocked = false)
    {overAidl sent : Bool}
    (heeded : (repo.bound && overAidl) = false → sent = false → repo.Settled) :
    ({ repo with
      vpnState := .stopping
      telemetry := false
      stopJob := some (.awaiting false) }.stop overAidl sent repo.startSequence).Controlled := by
  unfold stop
  split
  · have coherent : (repo.service.spawn .stop .waiting).Coherent :=
      controlled.coherent.of_append ⟨rfl, rfl, rfl, rfl, rfl⟩ rfl rfl
    refine ⟨?_, ?_, ?_, controlled.ordered, controlled.latest, by simp, ?_⟩
    · exact controlled.toDisciplined.of_append coherent rfl rfl rfl (by
        simp [Task.onMain, TaskKind.onMain]) rfl (by simp [Task.expectsStopped])
    · intro task there kind tearing
      simp only [CoreService.step, CoreService.spawn, List.mem_append, List.mem_singleton] at there
      rcases there with before | rfl
      · exact controlled.teardown task before kind tearing
      · cases tearing
    · intro index task found kind runs
      simp only [CoreService.step, CoreService.spawn] at found
      by_cases inside : index < repo.service.tasks.length
      · rw [List.getElem?_append_left inside] at found
        have finished := controlled.returned free task (List.mem_of_getElem? found) kind
        rw [finished] at runs
        cases runs
      · have place := (List.getElem?_eq_some_iff.mp found).1
        simp only [List.length_append, List.length_singleton] at place
        have last : index = repo.service.tasks.length := by omega
        simp [last]
    · intro _
      refine .called ⟨.stop, .waiting⟩ ?_ rfl rfl
      simp [CoreService.step, CoreService.spawn]
  · rename_i unbound
    split
    · refine ⟨controlled.toDisciplined, ?_, controlled.calling, ?_, ?_, by simp, ?_⟩
      · intro task there kind tearing
        rw [List.any_append, controlled.teardown task there kind tearing]
        rfl
      · rw [List.map_append, ← List.cons_append, List.pairwise_append]
        refine ⟨controlled.ordered, by simp, ?_⟩
        intro sequence there last isLast
        rw [List.map_singleton, List.mem_singleton] at isLast
        exact isLast ▸ controlled.latest sequence there
      · intro sequence there
        rw [List.map_append, ← List.cons_append, List.mem_append] at there
        rcases there with before | isLast
        · exact controlled.latest sequence before
        · rw [List.map_singleton, List.mem_singleton] at isLast
          exact Int.le_of_eq isLast
      · exact fun _ => .sent repo.startSequence (by simp)
    · rename_i notSent
      refine ⟨controlled.toDisciplined, controlled.teardown, controlled.calling,
        controlled.ordered, controlled.latest, by simp, ?_⟩
      exact fun _ => .settled (heeded (by simpa using unbound) (by simpa using notSent))

theorem controlled_ui (controlled : repo.Controlled) (free : repo.blocked = false)
    {event : UiEvent} (heeded : repo.Heeded (.ui event)) : (repo.ui event).Controlled := by
  have completed : repo.completeStopConfirmation.Controlled := by
    unfold completeStopConfirmation
    split
    · rename_i job
      exact controlled.of_display rfl rfl rfl rfl rfl (by simp [job])
    · exact controlled
  cases event with
  | startVpn selected => exact controlled_startVpn controlled free selected
  | stopVpn answers => exact controlled_stopVpn controlled (heeded free)
  | sendStop overAidl sent =>
      simp only [ui, sendStop]
      split
      · rename_i stopSequence job
        have latest := controlled.job stopSequence job
        subst latest
        exact controlled_stop controlled free (heeded free (by simp [job, StopJob.isLaunched]))
      · exact controlled
  | confirm timedOut running =>
      simp only [ui, confirm]
      split
      · rename_i job
        exact controlled.of_display rfl rfl rfl rfl rfl (by simp [job])
      · rename_i job
        split
        · exact controlled.of_display rfl rfl rfl rfl rfl (by simp [job])
        · exact controlled
      · exact controlled
  | onServiceConnected => exact controlled.of_display rfl rfl rfl rfl rfl fun _ => Iff.rfl
  | unbind => exact controlled.of_display rfl rfl rfl rfl rfl fun _ => Iff.rfl
  | onStateChanged running =>
      simp only [ui, onStateChanged]
      split
      · exact controlled.of_display rfl rfl rfl rfl rfl fun _ => Iff.rfl
      · exact completed.of_display rfl rfl rfl rfl rfl fun _ => Iff.rfl
  | broadcast action running =>
      simp only [ui, onReceive]
      generalize BroadcastArbiter.judge action repo.bound _ = verdict
      split
      · exact controlled.of_display rfl rfl rfl rfl rfl fun _ => Iff.rfl
      · split
        · exact completed.of_display rfl rfl rfl rfl rfl fun _ => Iff.rfl
        · exact controlled.of_display rfl rfl rfl rfl rfl fun _ => Iff.rfl
  | telemetryTick running =>
      simp only [ui, telemetryTick]
      split
      · exact controlled
      · split
        · exact controlled.of_display rfl rfl rfl rfl rfl fun _ => Iff.rfl
        · split
          · exact controlled.of_display rfl rfl rfl rfl rfl fun _ => Iff.rfl
          · exact controlled

end Interface

theorem controlled_advance (controlled : repo.Controlled) {index : ℕ} {succeeds : Bool}
    (heeded : repo.Heeded (.advance index succeeds)) :
    (repo.step (.advance index succeeds)).Controlled := by
  simp only [step, CoreService.step]
  cases found : repo.service.tasks[index]? with
  | none => exact controlled
  | some task =>
      have there := List.mem_of_getElem? found
      have expects : task.expectsStopped = true → repo.service.serviceState = .stopped :=
        fun here => controlled.expects (List.any_eq_true.mpr ⟨task, there, here⟩)
      have exclusive : repo.service.TaskExclusive index task := by
        refine ⟨fun ends _ => ?_, fun phase => ?_⟩
        · exact any_eraseIdx_of_countP found controlled.oneTeardown (tearing_of_ends ends)
        · exact expects (expects_of_writing (controlled.regular task there) phase)
      have coherent := CoreService.coherent_advance controlled.coherent found exclusive succeeds
      have moves :=
        CoreService.moves_advance controlled.coherent found (controlled.regular task there) expects
          succeeds
      by_cases same : repo.service.advance index succeeds task = repo.service
      · simp only [Option.elim, same]
        exact controlled
      · rcases moves.resolve_left same with ⟨new, moved⟩
        refine controlled.of_moves moved coherent ?_
        intro kind phase
        refine heeded task found kind phase ?_
        by_contra busy
        apply same
        simp [CoreService.advance, CoreService.locks, phase, Option.isSome_iff_ne_none.mpr busy]

theorem controlled_proceed (controlled : repo.Controlled) (succeeds : Bool) :
    (repo.step (.proceed succeeds)).Controlled := by
  simp only [step, CoreService.step]
  cases running : repo.service.start with
  | none => exact controlled
  | some start =>
      have linked := controlled.coherent.linked start running
      have command : start.caller = .command := by
        have regular := controlled.regular _ (List.mem_of_getElem? linked)
        cases caller : start.caller <;> simp [caller, Task.regular] at regular ⊢
      rw [command] at linked
      rcases CoreService.moves_proceed controlled.coherent running linked succeeds with ⟨new, moved⟩
      have coherent := CoreService.coherent_proceed controlled.coherent running succeeds
      exact controlled.of_moves moved coherent (by simp)

theorem controlled_step {event : VpnEvent} (controlled : repo.Controlled)
    (heeded : repo.Heeded event) : (repo.step event).Controlled := by
  cases event with
  | ui event =>
      simp only [step]
      split
      · exact controlled
      · rename_i free
        exact controlled_ui controlled (by simpa using free) heeded
  | deliver => exact controlled_deliver controlled
  | advance index succeeds => exact controlled_advance controlled heeded
  | proceed succeeds => exact controlled_proceed controlled succeeds

end VpnRepository

/--
After a `stopVpn` which no `startVpn` follows, no quiescent state has a core
which runs, in every run in which what is not sent was not needed, and a stop
over the binder takes the lock when no start is pending.
-/
theorem stop_wins {events : List VpnEvent}
    (heeded : Along VpnRepository.step VpnRepository.Heeded VpnRepository.new events) :
    Throughout VpnRepository.step VpnRepository.StopWins VpnRepository.new events :=
  throughout_of_along VpnRepository.Controlled VpnRepository.Controlled.stopWins
    VpnRepository.controlled_step heeded VpnRepository.controlled_new

/--
A stop over the binder while the native engine starts, and after a second start
one which is sent as an intent before that start is delivered.
-/
theorem stop_wins_over_both :
    Throughout VpnRepository.step VpnRepository.StopWins VpnRepository.new
      ([VpnEvent.ui (.startVpn true), .deliver, .advance 0 true, .ui .onServiceConnected,
          .advance 0 true, .proceed true, .proceed true, .ui (.stopVpn true),
          .ui (.sendStop true true), .proceed true] ++
        List.replicate 5 (VpnEvent.advance 1 true) ++
        [VpnEvent.advance 0 true, .ui (.onStateChanged false), .ui (.confirm false false),
          .ui (.startVpn true), .ui .unbind, .ui (.stopVpn true), .ui (.sendStop true true),
          .deliver, .advance 2 true, .advance 2 true, .proceed true, .proceed true, .proceed true,
          .advance 2 true, .deliver] ++ List.replicate 5 (VpnEvent.advance 3 true)) :=
  stop_wins (by decide +kernel)

/-- A `stopVpn` which finds the start still in progress sends nothing, and the core runs. -/
theorem stop_lost :
    let events : List VpnEvent :=
      [.ui .onServiceConnected, .ui (.startVpn true), .deliver, .ui (.stopVpn true),
        .advance 0 true, .advance 0 true, .proceed true, .proceed true, .proceed true,
        .advance 0 true]
    let reached := run VpnRepository.step VpnRepository.new events
    reached.userStopped = true ∧ reached.Quiescent ∧ reached.service.serviceState = .running ∧
      reached.service.engine = some 0 ∧ reached.vpnState = .disconnected ∧ ¬ reached.StopWins := by
  refine ⟨by decide +kernel, by decide +kernel, by decide +kernel, by decide +kernel,
    by decide +kernel, ?_⟩
  intro wins
  exact wins (by decide +kernel) (by decide +kernel) (by decide +kernel)

end Mirage.Shell
