import Mirage.Shell.CoreService

/-!
# A stop is not undone by the kernel

The handler of a restart event looks at the state, lets the lock go, stops the
native engine and then enters `startInternal`.  A stop which is accepted in
between turns it away only as long as the state is `Stopping`; when the stop is
over, the handler finds `Stopped` and starts the service again.  The engine is
not revived in a run in which every such handler arrives while the stop lasts.
-/

namespace Mirage.Shell

open Mirage.Foundations

namespace CoreService

/-- A restart from before the last accepted stop gets to its verdict while the stop lasts. -/
def InTime (service : CoreService) : ServiceEvent → Prop
  | .advance index _ =>
      ∀ task ∈ service.tasks[index]?, task.phase = .entering → service.start = none →
        service.stale task.kind = true → service.serviceState = .stopping
  | _ => True

instance decidableInTime (service : CoreService) : ∀ event, Decidable (service.InTime event)
  | .advance index _ =>
      inferInstanceAs (Decidable (∀ task ∈ service.tasks[index]?,
        task.phase = .entering → service.start = none →
          service.stale task.kind = true → service.serviceState = .stopping))
  | .onStartCommand _ | .actionStop _ | .binderStart | .stop | .onDestroy | .restartRequested
  | .notifTick | .proceed _ => .isTrue trivial

/-- No restart from before an accepted stop has brought the engine up without the user. -/
def NotRevived (service : CoreService) : Prop := service.revived = false

/-- Nothing was revived, and the start in progress is no such restart. -/
structure Undisturbed (service : CoreService) : Prop where
  notRevived : service.NotRevived
  current : ∀ start ∈ service.start, service.stale start.caller = false

theorem undisturbed_new : CoreService.new.Undisturbed :=
  ⟨rfl, by simp [new]⟩

variable {service other : CoreService}

theorem stale_of_userStart (requested : service.userStart = true) (kind : TaskKind) :
    service.stale kind = false := by
  cases kind <;> simp [stale, requested]

theorem stale_congr (stops : other.stops = service.stops)
    (userStart : other.userStart = service.userStart) (kind : TaskKind) :
    other.stale kind = service.stale kind := by
  cases kind <;> simp [stale, stops, userStart]

/-- A step which leaves the start and what counts for it alone. -/
theorem Undisturbed.of_same (undisturbed : service.Undisturbed)
    (revived : other.revived = service.revived) (start : other.start = service.start)
    (stops : other.stops = service.stops) (userStart : other.userStart = service.userStart) :
    other.Undisturbed where
  notRevived := revived.trans undisturbed.notRevived
  current := by
    rw [start]
    intro current there
    rw [stale_congr stops userStart]
    exact undisturbed.current current there

/-- A step after which no start is in progress. -/
theorem Undisturbed.of_none (undisturbed : service.Undisturbed)
    (revived : other.revived = service.revived) (idle : other.start = none) :
    other.Undisturbed where
  notRevived := revived.trans undisturbed.notRevived
  current := by simp [idle]

/-- A step of the start in progress. -/
theorem Undisturbed.of_caller (undisturbed : service.Undisturbed) {kind : TaskKind}
    (fresh : service.stale kind = false) (revived : other.revived = service.revived)
    (stops : other.stops = service.stops) (userStart : other.userStart = service.userStart)
    (caller : ∀ start ∈ other.start, start.caller = kind) : other.Undisturbed where
  notRevived := revived.trans undisturbed.notRevived
  current := by
    intro start there
    rw [stale_congr stops userStart, caller start there]
    exact fresh

/-- A step by which the user asks for a start. -/
theorem Undisturbed.of_userStart (undisturbed : service.Undisturbed)
    (revived : other.revived = service.revived) (requested : other.userStart = true) :
    other.Undisturbed where
  notRevived := revived.trans undisturbed.notRevived
  current start _ := stale_of_userStart requested start.caller

theorem undisturbed_enter {index : ℕ} {task : Task} (undisturbed : service.Undisturbed)
    (idle : service.start = none)
    (inTime : service.stale task.kind = true → service.serviceState = .stopping) :
    (service.enter index task).Undisturbed := by
  unfold enter
  split
  · exact undisturbed.of_none rfl idle
  · rename_i verdict
    have fresh : service.stale task.kind = false := by
      by_contra stale
      simp [StateMachine.verdictForStart, inTime (by simpa using stale)] at verdict
    exact undisturbed.of_none (by simp [setTask, fresh]) idle
  · rename_i verdict
    have fresh : service.stale task.kind = false := by
      by_contra stale
      simp [StateMachine.verdictForStart, inTime (by simpa using stale)] at verdict
    refine ⟨undisturbed.notRevived, fun start there => ?_⟩
    cases there
    rw [stale_congr rfl rfl]
    exact fresh

theorem undisturbed_advance {index : ℕ} {succeeds : Bool} {task : Task}
    (undisturbed : service.Undisturbed)
    (inTime : task.phase = .entering → service.start = none →
      service.stale task.kind = true → service.serviceState = .stopping) :
    (service.advance index succeeds task).Undisturbed := by
  unfold advance
  split
  · split
    · exact undisturbed
    · rename_i free
      have idle : service.start = none := by simpa using free
      unfold lockedAdvance
      split <;> rename_i phase
      · exact undisturbed.of_none rfl idle
      · exact undisturbed_enter undisturbed idle (inTime phase idle)
      · split
        · exact undisturbed.of_none rfl idle
        · split
          · exact undisturbed.of_none rfl idle
          · exact undisturbed.of_none rfl idle
      · unfold writeStopped
        split <;> exact undisturbed.of_none rfl idle
      · unfold writeStopped
        split <;> exact undisturbed.of_none rfl idle
      · exact undisturbed
  · split <;> exact undisturbed.of_same rfl rfl rfl rfl

theorem undisturbed_finishStart (undisturbed : service.Undisturbed) {start : Start}
    (fresh : service.stale start.caller = false) : (service.finishStart start).Undisturbed := by
  refine ⟨?_, by simp [finishStart, returnTo]⟩
  have before : service.revived = false := undisturbed.notRevived
  simp [NotRevived, finishStart, returnTo, before, fresh]

theorem undisturbed_proceed {succeeds : Bool} {start : Start} (undisturbed : service.Undisturbed)
    (running : service.start = some start) : (service.proceed succeeds start).Undisturbed := by
  have fresh := undisturbed.current start running
  have fails : (service.failStart start).Undisturbed :=
    undisturbed.of_caller fresh rfl rfl rfl (by simp [failStart])
  unfold proceed
  split
  · split
    · unfold establish
      split <;> exact undisturbed.of_caller fresh rfl rfl rfl (by simp)
    · exact fails
  · split
    · exact fails
    · split
      · exact undisturbed_finishStart undisturbed fresh
      · exact undisturbed.of_caller fresh rfl rfl rfl (by simp)
  · split
    · apply undisturbed_finishStart
      · exact undisturbed.of_same rfl rfl rfl rfl
      · rw [stale_congr rfl rfl]
        exact fresh
    · exact undisturbed.of_caller fresh rfl rfl rfl (by simp [failStart])
  · exact undisturbed.of_none rfl rfl

theorem undisturbed_onStartCommand (undisturbed : service.Undisturbed) (startSeq : ℤ) :
    (service.onStartCommand startSeq).Undisturbed := by
  cases accepts : StateMachine.acceptsStartCommand service.serviceState with
  | false =>
      rw [onStartCommand, accepts]
      exact undisturbed.of_userStart rfl rfl
  | true =>
      rw [onStartCommand, accepts]
      exact undisturbed.of_userStart rfl rfl

theorem undisturbed_step {event : ServiceEvent} (undisturbed : service.Undisturbed)
    (inTime : service.InTime event) : (service.step event).Undisturbed := by
  cases event with
  | onStartCommand startSeq =>
      simp only [step]
      split
      · exact undisturbed
      · exact undisturbed_onStartCommand undisturbed startSeq
  | actionStop stopSeq =>
      simp only [step, actionStop]
      split
      · exact undisturbed
      · split <;> exact undisturbed.of_same rfl rfl rfl rfl
  | binderStart => exact undisturbed.of_userStart rfl rfl
  | stop => exact undisturbed.of_same rfl rfl rfl rfl
  | onDestroy =>
      simp only [step]
      split
      · exact undisturbed
      · exact undisturbed.of_same rfl rfl rfl rfl
  | restartRequested => exact undisturbed.of_same rfl rfl rfl rfl
  | notifTick =>
      simp only [step]
      split
      · exact undisturbed.of_same rfl rfl rfl rfl
      · exact undisturbed
  | advance index succeeds =>
      simp only [step]
      cases found : service.tasks[index]? with
      | none => exact undisturbed
      | some task => exact undisturbed_advance undisturbed (inTime task found)
  | proceed succeeds =>
      simp only [step]
      cases running : service.start with
      | none => exact undisturbed
      | some start => exact undisturbed_proceed undisturbed running

end CoreService

/--
No restart which the kernel had asked for before an accepted stop brings the
engine up without the user, in every run in which the handlers of such restarts
reach their verdict while the stop still lasts.
-/
theorem stop_not_undone {events : List ServiceEvent}
    (inTime : Along CoreService.step CoreService.InTime CoreService.new events) :
    Throughout CoreService.step CoreService.NotRevived CoreService.new events :=
  throughout_of_along CoreService.Undisturbed CoreService.Undisturbed.notRevived
    CoreService.undisturbed_step inTime CoreService.undisturbed_new

/-- The handler of a restart is turned away by a stop which has just been accepted. -/
theorem stop_not_undone_during :
    Throughout CoreService.step CoreService.NotRevived CoreService.new
      ([ServiceEvent.onStartCommand 1, .advance 0 true, .advance 0 true, .proceed true,
          .proceed true, .proceed true, .advance 0 true, .restartRequested, .advance 1 true, .stop,
          .advance 2 true, .advance 1 true, .advance 1 true] ++
        List.replicate 4 (ServiceEvent.advance 2 true)) :=
  stop_not_undone (by decide +kernel)

/-- A whole stop passes between the check of the handler and its start, and the engine is back. -/
theorem stop_undone :
    let running : List ServiceEvent :=
      [.onStartCommand 1, .advance 0 true, .advance 0 true, .proceed true, .proceed true,
        .proceed true, .advance 0 true]
    let stopped : List ServiceEvent :=
      [ServiceEvent.restartRequested, .advance 1 true, .stop] ++
        List.replicate 5 (ServiceEvent.advance 2 true)
    let restarted : List ServiceEvent :=
      [.advance 1 true, .advance 1 true, .proceed true, .proceed true, .proceed true]
    (run CoreService.step CoreService.new (running ++ stopped)).serviceState = .stopped ∧
      (run CoreService.step CoreService.new (running ++ stopped)).userStart = false ∧
      (run CoreService.step CoreService.new
        (running ++ stopped ++ restarted)).serviceState = .running ∧
      (run CoreService.step CoreService.new
        (running ++ stopped ++ restarted)).engine.isSome = true ∧
      ¬ (run CoreService.step CoreService.new (running ++ stopped ++ restarted)).NotRevived := by
  refine ⟨by decide +kernel, by decide +kernel, by decide +kernel, by decide +kernel, ?_⟩
  unfold CoreService.NotRevived
  decide +kernel

end Mirage.Shell
