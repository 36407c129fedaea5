import Mirage.Shell.CoreService.Coherence

/-!
# The state of the service and what it stands for

No start runs next to a teardown, and the state is to tell, when nothing is in
progress, whether the tunnel is up.  Both hold in every run in which `Stopped`
is written only where no other teardown is in progress, and the notification is
not left to anybody who does not remove it.

The code breaks the second condition where a start over the binder or a restart
fails, and where the notification is updated after the service was stopped.
-/

namespace Mirage.Shell

open Mirage.Foundations

/-- The task removes the notification, or leaves the service running. -/
def Task.clears (task : Task) : Bool :=
  match task.phase with
  | .loading | .entering | .starting => task.kind == .command
  | .clearing | .accepted | .nativeStopped | .closed | .written => true
  | _ => false

namespace CoreService

/-- No start runs next to a teardown, and in quiescence the state tells the truth. -/
def Consistent (service : CoreService) : Prop :=
  (∀ start ∈ service.start, start.locked = true → service.tasks.any Task.tearing = false) ∧
    (service.Quiescent →
      (service.serviceState = .running ↔
        service.tunFd.isSome = true ∧ service.engine = service.tunFd) ∧
      (service.serviceState = .stopped ↔
        service.tunFd = none ∧ service.engine = none ∧ service.notification = false))

/-- Where the notification may be shown: the service is up, or someone will remove it. -/
def MayShow (service : CoreService) : Prop :=
  service.serviceState = .running ∨ service.serviceState = .starting ∨
    service.tasks.any Task.clears = true

instance (service : CoreService) : Decidable service.MayShow :=
  inferInstanceAs (Decidable (_ ∨ _))

/-- The step of a task leaves no teardown behind `Stopped`, and no notification behind. -/
def TaskOrderly (service : CoreService) (index : ℕ) (task : Task) : Prop :=
  service.TaskExclusive index task ∧ (task.phase = .posting → service.MayShow)

instance (service : CoreService) (index : ℕ) (task : Task) :
    Decidable (service.TaskOrderly index task) :=
  inferInstanceAs (Decidable (_ ∧ _))

/-- A start which was not asked for by a command fails only without a notification to remove. -/
def StartOrderly (service : CoreService) (succeeds : Bool) (start : Start) : Prop :=
  succeeds = false → start.locked = true → start.caller ≠ .command →
    service.notification = false ∨ service.tasks.any Task.clears = true

instance (service : CoreService) (succeeds : Bool) (start : Start) :
    Decidable (service.StartOrderly succeeds start) :=
  inferInstanceAs (Decidable (_ → _))

def Orderly (service : CoreService) : ServiceEvent → Prop
  | .advance index _ => ∀ task ∈ service.tasks[index]?, service.TaskOrderly index task
  | .proceed succeeds => ∀ start ∈ service.start, service.StartOrderly succeeds start
  | _ => True

instance decidableOrderly (service : CoreService) : ∀ event, Decidable (service.Orderly event)
  | .advance index _ =>
      inferInstanceAs (Decidable (∀ task ∈ service.tasks[index]?, service.TaskOrderly index task))
  | .proceed succeeds =>
      inferInstanceAs (Decidable (∀ start ∈ service.start, service.StartOrderly succeeds start))
  | .onStartCommand _ | .actionStop _ | .binderStart | .stop | .onDestroy | .restartRequested
  | .notifTick => .isTrue trivial

/-- Every notification stands for a service which is up, or somebody removes it. -/
def Notified (service : CoreService) : Prop := service.notification = true → service.MayShow

structure Sound (service : CoreService) : Prop where
  coherent : service.Coherent
  notified : service.Notified

theorem sound_new : CoreService.new.Sound :=
  ⟨coherent_new, by simp [Notified, new]⟩

variable {service other : CoreService}

theorem Sound.consistent (sound : service.Sound) : service.Consistent := by
  refine ⟨?_, ?_⟩
  · intro start running locked
    have state := sound.coherent.lockState start running
    rw [if_pos locked] at state
    exact not_tearing sound.coherent (by simp [state])
  · rintro ⟨idle, quiet⟩
    have none_of {test : Task → Bool} (silent : ∀ kind, test ⟨kind, .done⟩ = false) :
        service.tasks.any test = false := by
      rw [List.any_eq_false]
      rintro ⟨kind, phase⟩ there
      have finished : phase = .done := by simpa [Task.runs] using quiet ⟨kind, phase⟩ there
      rw [finished, silent kind]
      exact Bool.false_ne_true
    have noTearing : service.tasks.any Task.tearing = false := none_of fun _ => rfl
    have noEntering : service.tasks.any Task.entering = false := none_of fun _ => rfl
    have noClears : service.tasks.any Task.clears = false := none_of fun _ => rfl
    cases state : service.serviceState with
    | stopped =>
        have ⟨tunFd, engine, _⟩ := sound.coherent.stopped state idle
        have hidden : service.notification = false := by
          rw [Bool.eq_false_iff]
          intro shown
          rcases sound.notified shown with up | up | clears
          · simp [state] at up
          · simp [state] at up
          · simp [noClears] at clears
        simp [tunFd, engine, hidden]
    | starting => exact absurd state (sound.coherent.idleState idle)
    | running =>
        rcases sound.coherent.running state with ⟨tunFd, engine | ⟨_, _, entering⟩⟩
        · have up : service.tunFd ≠ none := Option.isSome_iff_ne_none.mp tunFd
          simp [tunFd, engine, up]
        · simp [noEntering] at entering
    | stopping =>
        have tearing := sound.coherent.stoppingIff.mp state
        simp [noTearing] at tearing

theorem exclusive_of_orderly {event : ServiceEvent} (orderly : service.Orderly event) :
    service.Exclusive event := by
  cases event with
  | advance index succeeds => exact fun task found => (orderly task found).1
  | _ => trivial

theorem notified_of_hidden (hidden : other.notification = false) : other.Notified := by
  simp [Notified, hidden]

theorem notified_of_clears (clears : other.tasks.any Task.clears = true) : other.Notified :=
  fun _ => Or.inr (Or.inr clears)

/-- Tasks are added to a service which otherwise stays as it is. -/
theorem Notified.of_append (notified : service.Notified) (new : Task)
    (state : other.serviceState = service.serviceState)
    (notification : other.notification = service.notification)
    (tasks : other.tasks = service.tasks ++ [new]) : other.Notified := by
  intro shown
  rw [notification] at shown
  rw [MayShow, state, tasks, List.any_append]
  rcases notified shown with up | up | clears
  · exact Or.inl up
  · exact Or.inr (Or.inl up)
  · exact Or.inr (Or.inr (by rw [clears, Bool.true_or]))

section Steps

variable {index : ℕ} {task : Task}

/-- The step of a task which keeps its duty, or leaves the service running. -/
theorem Notified.of_set (notified : service.Notified)
    (found : service.tasks[index]? = some task) {new : Task}
    (state : other.serviceState = service.serviceState)
    (notification : other.notification = service.notification)
    (tasks : other.tasks = service.tasks.set index new)
    (clears : task.clears = true → new.clears = true ∨ service.serviceState = .running) :
    other.Notified := by
  intro shown
  rw [notification] at shown
  rw [MayShow, state, tasks]
  by_cases running : service.serviceState = .running
  · exact Or.inl running
  · rcases notified shown with up | up | someClears
    · exact Or.inl up
    · exact Or.inr (Or.inl up)
    · have kept (before : task.clears = true) := (clears before).resolve_right running
      exact Or.inr (Or.inr (any_set_of_imp found kept someClears))

theorem notified_enter (notified : service.Notified) (found : service.tasks[index]? = some task)
    (phase : task.phase = .entering) : (service.enter index task).Notified := by
  unfold enter
  split <;> rename_i verdict
  · refine notified.of_set found rfl rfl rfl ?_
    intro clears
    have command : task.kind = .command := by simpa [Task.clears, phase] using clears
    exact Or.inl (by simp [Task.afterStart, command, Task.clears])
  · have ⟨state, _⟩ := StateMachine.verdictForStart_eq_alreadyRunning.mp verdict
    exact notified.of_set found rfl rfl rfl fun _ => Or.inr state
  · exact fun _ => Or.inr (Or.inl rfl)

/-- A teardown which ends has removed the notification, or a destroyed service is about to. -/
theorem notified_writeStopped (sound : service.Sound) (found : service.tasks[index]? = some task)
    (phase : task.phase = .cleared ∨ task.phase = .closed ∧ task.kind = .destroy) :
    (service.writeStopped index task).Notified := by
  have state := state_of_tearing sound.coherent found (by
    rcases phase with phase | ⟨phase, _⟩ <;> simp [Task.tearing, phase])
  unfold writeStopped
  split
  · apply notified_of_clears
    simp [setTask, any_set found, Task.clears]
  · rename_i notDestroy
    have silent : task.clears = false := by
      rcases phase with phase | ⟨_, destroy⟩
      · simp [Task.clears, phase]
      · exact absurd destroy notDestroy
    intro shown
    refine Or.inr (Or.inr ?_)
    rcases sound.notified shown with up | up | clears
    · simp [state] at up
    · simp [state] at up
    · exact any_set_of_imp found (by simp [silent]) clears

theorem notified_lockedAdvance (sound : service.Sound) (found : service.tasks[index]? = some task)
    (locked : locks task = true) : (service.lockedAdvance index task).Notified := by
  have notified := sound.notified
  unfold lockedAdvance
  split <;> rename_i phase
  · exact notified.of_set found rfl rfl rfl (by simp [Task.clears, phase])
  · exact notified_enter notified found phase
  · split
    · exact notified_of_clears (by simp [setTask, any_set found, Task.clears])
    · split
      · exact notified_of_clears (by simp [setTask, any_set found, Task.clears])
      · exact notified.of_set found rfl rfl rfl (by simp [Task.clears, phase])
  · have destroy : task.kind = .destroy := by simpa [locks, phase] using locked
    exact notified_writeStopped sound found (Or.inr ⟨phase, destroy⟩)
  · exact notified_writeStopped sound found (Or.inl phase)
  · exact notified

theorem notified_advance (sound : service.Sound) (found : service.tasks[index]? = some task)
    (orderly : service.TaskOrderly index task) (succeeds : Bool) :
    (service.advance index succeeds task).Notified := by
  have notified := sound.notified
  rcases orderly with ⟨⟨_, noWrite⟩, mayShow⟩
  unfold advance
  split
  · rename_i locked
    split
    · exact notified
    · exact notified_lockedAdvance sound found locked
  · split <;> rename_i phase
    · exact notified.of_set found rfl rfl rfl (by simp [Task.clears, phase])
    · refine notified.of_set found rfl rfl rfl ?_
      cases succeeds <;> simp +contextual [Task.clears, phase]
    · exact notified_of_hidden rfl
    · exact notified.of_set found (noWrite phase).symm rfl rfl (by simp [Task.clears, phase])
    · -- the task which posts has no duty of its own, so whoever allowed it is another one
      have shown := show { service with notification := true }.Notified from fun _ => mayShow phase
      exact shown.of_set found rfl rfl rfl (by simp [Task.clears, phase])
    · exact notified_of_clears (by simp [setTask, nativeStop, any_set found, Task.clears])
    · exact notified_of_clears (by simp [setTask, any_set found, Task.clears])
    · exact notified_of_hidden rfl
    · exact notified_of_hidden rfl
    · exact notified

end Steps

section Proceed

variable {start : Start}

/-- A start which fails has a notification to remove only where somebody will remove it. -/
theorem clears_of_orderly (sound : service.Sound) (running : service.start = some start)
    (locked : start.locked = true) (orderly : service.StartOrderly false start)
    (shown : service.notification = true) : service.tasks.any Task.clears = true := by
  by_cases command : start.caller = .command
  · have linked := sound.coherent.linked start running
    rw [command] at linked
    rw [any_of_getElem? linked, Task.clears]
    rfl
  · rcases orderly rfl locked command with hidden | clears
    · rw [hidden] at shown
      cases shown
    · exact clears

/-- A command whose start has failed goes on to remove the notification. -/
theorem clears_returnTo (linked : service.tasks[start.task]? = some ⟨start.caller, .starting⟩)
    (clears : service.tasks.any Task.clears = true) :
    (service.returnTo start false).tasks.any Task.clears = true := by
  rw [any_of_getElem? linked, Bool.or_eq_true] at clears
  rw [any_returnTo linked, Bool.or_eq_true]
  refine clears.imp_left ?_
  intro command
  have caller : start.caller = .command := by simpa [Task.clears] using command
  simp [Task.afterStart, caller, Task.clears]

theorem notified_proceed (sound : service.Sound) (running : service.start = some start)
    {succeeds : Bool} (orderly : service.StartOrderly succeeds start) :
    (service.proceed succeeds start).Notified := by
  have linked := sound.coherent.linked start running
  have state := sound.coherent.lockState start running
  have fails (locked : start.locked = true) (failed : ¬ succeeds = true) :
      service.notification = true → service.tasks.any Task.clears = true := by
    rw [Bool.not_eq_true] at failed
    subst failed
    exact clears_of_orderly sound running locked orderly
  unfold proceed
  split <;> rename_i phase
  · have locked : start.locked = true := by simp [Start.locked, phase]
    rw [if_pos locked] at state
    split
    · unfold establish
      split <;> exact fun _ => Or.inr (Or.inl state)
    · rename_i failed
      exact fun shown => Or.inr (Or.inr (fails locked failed shown))
  · have locked : start.locked = true := by simp [Start.locked, phase]
    rw [if_pos locked] at state
    split
    · rename_i failed
      exact fun shown => Or.inr (Or.inr (fails locked (by simpa using failed) shown))
    · split
      · exact fun _ => Or.inl rfl
      · exact fun _ => Or.inr (Or.inl state)
  · have locked : start.locked = true := by simp [Start.locked, phase]
    split
    · exact fun _ => Or.inl rfl
    · rename_i failed
      exact fun shown => Or.inr (Or.inr (fails locked failed shown))
  · have failing : start.locked = false := by simp [Start.locked, phase]
    rw [if_neg (by simp [failing])] at state
    intro shown
    rcases sound.notified shown with up | up | clears
    · simp [state] at up
    · simp [state] at up
    · exact Or.inr (Or.inr (clears_returnTo linked clears))

end Proceed

theorem notified_step {event : ServiceEvent} (sound : service.Sound)
    (orderly : service.Orderly event) : (service.step event).Notified := by
  have notified := sound.notified
  have spawned (kind : TaskKind) (phase : TaskPhase) : (service.spawn kind phase).Notified :=
    notified.of_append ⟨kind, phase⟩ rfl rfl rfl
  cases event with
  | onStartCommand startSeq =>
      simp only [step]
      split
      · exact notified
      · cases accepts : StateMachine.acceptsStartCommand service.serviceState with
        | false =>
            rw [onStartCommand, accepts]
            exact notified
        | true =>
            rw [onStartCommand, accepts]
            exact notified_of_clears (by simp [spawn, Task.clears])
  | actionStop stopSeq =>
      simp only [step]
      split
      · exact notified
      · unfold actionStop
        split
        · exact spawned .actionStop .waiting
        · exact notified
  | binderStart => exact notified.of_append ⟨.binder, .entering⟩ rfl rfl rfl
  | stop => exact spawned .stop .waiting
  | onDestroy =>
      simp only [step]
      split
      · exact notified
      · exact spawned .destroy .waiting
  | restartRequested => exact spawned (.restart service.stops) .checking
  | notifTick =>
      simp only [step]
      split
      · exact spawned .notifier .posting
      · exact notified
  | advance index succeeds =>
      simp only [step]
      cases found : service.tasks[index]? with
      | none => exact notified
      | some task => exact notified_advance sound found (orderly task found) succeeds
  | proceed succeeds =>
      simp only [step]
      cases running : service.start with
      | none => exact notified
      | some start => exact notified_proceed sound running (orderly start running)

theorem sound_step {event : ServiceEvent} (sound : service.Sound)
    (orderly : service.Orderly event) : (service.step event).Sound :=
  ⟨coherent_step sound.coherent (exclusive_of_orderly orderly), notified_step sound orderly⟩

end CoreService

/--
No start runs next to a teardown, and the state tells the truth in quiescence,
in every run in which a teardown or a failed command writes `Stopped` only where
no other teardown is in progress, and every notification which is shown or left
is removed by somebody or stands for a service which is up.
-/
theorem state_consistent {events : List ServiceEvent}
    (orderly : Along CoreService.step CoreService.Orderly CoreService.new events) :
    Throughout CoreService.step CoreService.Consistent CoreService.new events :=
  throughout_of_along CoreService.Sound CoreService.Sound.consistent CoreService.sound_step
    orderly CoreService.sound_new

/-- A start, a restart by the kernel and a stop, one after the other. -/
theorem state_consistent_orderly :
    Throughout CoreService.step CoreService.Consistent CoreService.new
      ([ServiceEvent.onStartCommand 1, .advance 0 true, .advance 0 true, .proceed true,
          .proceed true, .proceed true, .advance 0 true, .restartRequested, .advance 1 true,
          .advance 1 true, .advance 1 true, .proceed true, .proceed true, .proceed true, .stop] ++
        List.replicate 5 (ServiceEvent.advance 2 true)) :=
  state_consistent (by decide +kernel)

/--
A command is turned away while a stop is in progress, and its `failAndStop`
writes `Stopped`: the next start runs next to the teardown, which closes the
descriptor under the engine.
-/
theorem state_inconsistent :
    let overlapping : List ServiceEvent :=
      [.onStartCommand 1, .advance 0 true, .advance 0 true, .proceed true, .proceed true,
        .proceed true, .advance 0 true, .stop, .advance 1 true, .onStartCommand 2,
        .advance 2 true, .advance 2 true, .advance 2 true, .advance 2 true, .binderStart,
        .advance 3 true]
    let finished : List ServiceEvent :=
      [.proceed true, .advance 1 true, .proceed true, .proceed true, .advance 1 true,
        .advance 1 true, .advance 1 true]
    let during := run CoreService.step CoreService.new overlapping
    let after := run CoreService.step CoreService.new (overlapping ++ finished)
    during.start.any Start.locked = true ∧ during.tasks.any Task.tearing = true ∧
      after.Quiescent ∧ after.serviceState = .stopped ∧ after.tunFd = none ∧
      after.engine = some 0 ∧ ¬ during.Consistent ∧ ¬ after.Consistent := by
  refine ⟨by decide +kernel, by decide +kernel, by decide +kernel, by decide +kernel,
    by decide +kernel, by decide +kernel, ?_, ?_⟩
  · rintro ⟨apart, _⟩
    exact absurd (apart ⟨3, .binder, .establishing⟩ (by decide +kernel) rfl) (by decide +kernel)
  · rintro ⟨_, truthful⟩
    have ⟨_, stopped⟩ := truthful (by decide +kernel)
    have ⟨_, idle, _⟩ := stopped.mp (by decide +kernel)
    exact absurd idle (by decide +kernel)

end Mirage.Shell
