import Mathlib.Data.List.Nodup
import Mirage.Foundations.Run
import Mirage.Shell.CoreService

/-!
# The sequence numbers of the sessions

The commands to the service may be delivered in any order.  A stop carries the
number of the last start of its interface, whose counter begins anew with each
process of the interface; the tile sends no number.  The service compares it
with the number which it has taken from the last start that carried one.

The comparison is right exactly if a start which the service takes fits in with
the stops which are still under way, and no stop is sent for a session by an
interface whose numbers are behind that of the service.
-/

namespace Mirage.Shell

open Mirage.Foundations

/-- `issued` is the moment at which the command was sent. -/
structure StartCommand where
  sequence : ℤ
  issued : ℕ
  deriving DecidableEq, Repr

/--
`target` is the start of the session which the stop is for: the session which
ran when the stop was sent, or else the last start of the same interface.
-/
structure StopCommand where
  sequence : ℤ
  issued : ℕ
  target : Option ℕ
  deriving DecidableEq, Repr

/-- A session is known by the moment at which its start was sent. -/
structure Sessions where
  serviceState : ServiceState
  activeSessionSeq : ℤ
  session : Option ℕ
  startSequence : ℤ
  lastStart : Option ℕ
  now : ℕ
  starts : List StartCommand
  stops : List StopCommand
  deriving DecidableEq, Repr

/--
`newUi` is a new process of the interface, `newService` a new instance of the
service.  `stopBegins` and `ends` are the ends of a session by other means.
-/
inductive SessionEvent where
  | startVpn
  | stopVpn
  | newUi
  | tileStart
  | tileStop
  | deliverStart (index : ℕ) (succeeds : Bool)
  | deliverStop (index : ℕ)
  | stopBegins
  | ends
  | newService
  deriving DecidableEq, Repr

namespace Sessions

def new : Sessions where
  serviceState := .stopped
  activeSessionSeq := 0
  session := none
  startSequence := 0
  lastStart := none
  now := 0
  starts := []
  stops := []

def startVpn (sessions : Sessions) : Sessions :=
  { sessions with
    startSequence := sessions.startSequence + 1
    lastStart := some sessions.now
    now := sessions.now + 1
    starts := sessions.starts ++ [⟨sessions.startSequence + 1, sessions.now⟩] }

def stopVpn (sessions : Sessions) : Sessions :=
  { sessions with
    now := sessions.now + 1
    stops := sessions.stops ++
      [⟨sessions.startSequence, sessions.now, sessions.session.or sessions.lastStart⟩] }

/-- `onClick` of the tile, which sends no number. -/
def tileStart (sessions : Sessions) : Sessions :=
  { sessions with
    now := sessions.now + 1
    starts := sessions.starts ++ [⟨0, sessions.now⟩] }

def tileStop (sessions : Sessions) : Sessions :=
  { sessions with
    now := sessions.now + 1
    stops := sessions.stops ++ [⟨0, sessions.now, sessions.session⟩] }

/-- The number which is in force once the service has seen the start. -/
def seqAfter (sessions : Sessions) (start : StartCommand) : ℤ :=
  if 0 < start.sequence then start.sequence else sessions.activeSessionSeq

/-- `onStartCommand`; a start which is not accepted still leaves its number behind. -/
def onStartCommand (sessions : Sessions) (start : StartCommand) (succeeds : Bool) : Sessions :=
  let seen := { sessions with activeSessionSeq := sessions.seqAfter start }
  if StateMachine.acceptsStartCommand sessions.serviceState then
    if StateMachine.verdictForStart sessions.serviceState false = .proceed ∧ succeeds = true then
      { seen with
        serviceState := StateMachine.stateAfterStart 0
        session := some start.issued }
    else { seen with serviceState := .stopped, session := none }
  else seen

def finish (sessions : Sessions) : Sessions :=
  { sessions with serviceState := .stopped, session := none }

/-- `onStartCommand` with `ACTION_STOP` -/
def actionStop (sessions : Sessions) (stop : StopCommand) : Sessions :=
  if StateMachine.shouldAcceptStopCommand stop.sequence sessions.activeSessionSeq &&
      StateMachine.shouldRunStop sessions.serviceState then
    sessions.finish
  else sessions

def step (sessions : Sessions) : SessionEvent → Sessions
  | .startVpn => sessions.startVpn
  | .stopVpn => sessions.stopVpn
  | .newUi => { sessions with startSequence := 0, lastStart := none }
  | .tileStart => sessions.tileStart
  | .tileStop => sessions.tileStop
  | .deliverStart index succeeds =>
      sessions.starts[index]?.elim sessions fun start =>
        { sessions with starts := sessions.starts.eraseIdx index }.onStartCommand start succeeds
  | .deliverStop index =>
      sessions.stops[index]?.elim sessions fun stop =>
        { sessions with stops := sessions.stops.eraseIdx index }.actionStop stop
  | .stopBegins =>
      if StateMachine.shouldRunStop sessions.serviceState then
        { sessions with serviceState := .stopping, session := none }
      else sessions
  | .ends => sessions.finish
  | .newService => { sessions.finish with activeSessionSeq := 0 }

/-- The stop carries the number of a session, and was sent before the start of this one. -/
def Outdated (session : ℕ) (stop : StopCommand) : Prop :=
  0 < stop.sequence ∧ stop.issued < session

instance (session : ℕ) (stop : StopCommand) : Decidable (Outdated session stop) :=
  inferInstanceAs (Decidable (_ ∧ _))

/-- Whichever stop is delivered next, it is discarded if it is outdated, and not if it is meant. -/
def Judged (sessions : Sessions) : Prop :=
  ∀ session ∈ sessions.session, ∀ stop ∈ sessions.stops,
    (Outdated session stop →
      StateMachine.shouldAcceptStopCommand stop.sequence sessions.activeSessionSeq = false) ∧
    (stop.target = some session →
      StateMachine.shouldAcceptStopCommand stop.sequence sessions.activeSessionSeq = true)

/--
The start fits in with the stops which are under way, whether it begins a
session or only leaves its number behind.
-/
def StartSequenced (sessions : Sessions) (start : StartCommand) (succeeds : Bool) : Prop :=
  (sessions.serviceState = .stopped → succeeds = true → ∀ stop ∈ sessions.stops,
      Outdated start.issued stop → stop.sequence < sessions.seqAfter start) ∧
    (StateMachine.acceptsStartCommand sessions.serviceState = false → 0 < start.sequence →
      ∀ session ∈ sessions.session, ∀ stop ∈ sessions.stops,
        (Outdated session stop → stop.sequence < start.sequence) ∧
        (stop.target = some session → 0 < stop.sequence → start.sequence ≤ stop.sequence))

instance (sessions : Sessions) (start : StartCommand) (succeeds : Bool) :
    Decidable (sessions.StartSequenced start succeeds) :=
  inferInstanceAs (Decidable (_ ∧ _))

def Sequenced (sessions : Sessions) : SessionEvent → Prop
  | .stopVpn =>
      ∀ _ ∈ sessions.session, 0 < sessions.startSequence →
        sessions.activeSessionSeq ≤ sessions.startSequence
  | .deliverStart index succeeds =>
      ∀ start ∈ sessions.starts[index]?, sessions.StartSequenced start succeeds
  | _ => True

instance decidableSequenced (sessions : Sessions) : ∀ event, Decidable (sessions.Sequenced event)
  | .stopVpn =>
      inferInstanceAs (Decidable (∀ _ ∈ sessions.session, 0 < sessions.startSequence →
        sessions.activeSessionSeq ≤ sessions.startSequence))
  | .deliverStart index succeeds =>
      inferInstanceAs
        (Decidable (∀ start ∈ sessions.starts[index]?, sessions.StartSequenced start succeeds))
  | .startVpn | .newUi | .tileStart | .tileStop | .deliverStop _ | .stopBegins | .ends
  | .newService => .isTrue trivial

theorem accepts_iff {stopSeq activeSeq : ℤ} :
    StateMachine.shouldAcceptStopCommand stopSeq activeSeq = true ↔
      stopSeq ≤ 0 ∨ activeSeq ≤ stopSeq := by
  simp [StateMachine.shouldAcceptStopCommand]

theorem discards_iff {stopSeq activeSeq : ℤ} :
    StateMachine.shouldAcceptStopCommand stopSeq activeSeq = false ↔
      0 < stopSeq ∧ stopSeq < activeSeq := by
  rw [Bool.eq_false_iff, ne_eq, accepts_iff]
  omega

/--
The moments at which the commands were sent tell them apart, and a stop for a
start which is still under way carries its number.
-/
structure Numbered (sessions : Sessions) : Prop where
  idle : sessions.serviceState ≠ .running → sessions.session = none
  settled : sessions.serviceState ≠ .starting
  sentStarts : ∀ start ∈ sessions.starts, start.issued < sessions.now
  sentStops : ∀ stop ∈ sessions.stops, ∀ target ∈ stop.target, target < sessions.now
  sentSession : ∀ session ∈ sessions.session, session < sessions.now
  sentLast : ∀ last ∈ sessions.lastStart, last < sessions.now
  distinct : (sessions.starts.map StartCommand.issued).Nodup
  delivered : ∀ session ∈ sessions.session, ∀ start ∈ sessions.starts, start.issued ≠ session
  targeted : ∀ start ∈ sessions.starts, ∀ stop ∈ sessions.stops,
    stop.target = some start.issued → stop.sequence = start.sequence
  latest : ∀ start ∈ sessions.starts, sessions.lastStart = some start.issued →
    start.sequence = sessions.startSequence

theorem numbered_new : Sessions.new.Numbered := by
  constructor <;> simp [new]

theorem judged_new : Sessions.new.Judged := by
  simp [Judged, new]

variable {sessions : Sessions}

/-- A session ends, and at most the state and the number change besides. -/
theorem Numbered.of_ended (numbered : sessions.Numbered) {state : ServiceState}
    (notStarting : state ≠ .starting) (activeSessionSeq : ℤ) :
    { sessions with serviceState := state, activeSessionSeq, session := none }.Numbered where
  idle _ := rfl
  settled := notStarting
  sentStarts := numbered.sentStarts
  sentStops := numbered.sentStops
  sentSession := by simp
  sentLast := numbered.sentLast
  distinct := numbered.distinct
  delivered := by simp
  targeted := numbered.targeted
  latest := numbered.latest

/-- Commands arrive. -/
theorem Numbered.of_sublists (numbered : sessions.Numbered) {starts : List StartCommand}
    {stops : List StopCommand} (fewerStarts : starts.Sublist sessions.starts)
    (fewerStops : stops.Sublist sessions.stops) : { sessions with starts, stops }.Numbered where
  idle := numbered.idle
  settled := numbered.settled
  sentStarts start there := numbered.sentStarts start (fewerStarts.subset there)
  sentStops stop there := numbered.sentStops stop (fewerStops.subset there)
  sentSession := numbered.sentSession
  sentLast := numbered.sentLast
  distinct := numbered.distinct.sublist (fewerStarts.map _)
  delivered session running start there :=
    numbered.delivered session running start (fewerStarts.subset there)
  targeted start there stop thereStop :=
    numbered.targeted start (fewerStarts.subset there) stop (fewerStops.subset thereStop)
  latest start there := numbered.latest start (fewerStarts.subset there)

/-- A start is sent, from the interface or from the tile. -/
theorem Numbered.of_start (numbered : sessions.Numbered) {sequence startSequence : ℤ}
    {lastStart : Option ℕ}
    (last : lastStart = some sessions.now ∧ startSequence = sequence ∨
      lastStart = sessions.lastStart ∧ startSequence = sessions.startSequence) :
    { sessions with
      startSequence, lastStart
      now := sessions.now + 1
      starts := sessions.starts ++ [(⟨sequence, sessions.now⟩ : StartCommand)] }.Numbered where
  idle := numbered.idle
  settled := numbered.settled
  sentStarts := by
    intro start there
    simp only [List.mem_append, List.mem_singleton] at there
    rcases there with before | rfl
    · exact Nat.lt_succ_of_lt (numbered.sentStarts start before)
    · exact Nat.lt_succ_self _
  sentStops stop there target aimed :=
    Nat.lt_succ_of_lt (numbered.sentStops stop there target aimed)
  sentSession session running := Nat.lt_succ_of_lt (numbered.sentSession session running)
  sentLast := by
    rcases last with ⟨rfl, _⟩ | ⟨rfl, _⟩
    · simp
    · exact fun stamp there => Nat.lt_succ_of_lt (numbered.sentLast stamp there)
  distinct := by
    simp only [List.map_append, List.map_singleton]
    rw [List.nodup_append]
    refine ⟨numbered.distinct, by simp, ?_⟩
    intro issued there final isFinal
    rw [List.mem_singleton] at isFinal
    rcases List.mem_map.mp there with ⟨start, before, rfl⟩
    have earlier := numbered.sentStarts start before
    omega
  delivered := by
    intro session running start there
    simp only [List.mem_append, List.mem_singleton] at there
    rcases there with before | rfl
    · exact numbered.delivered session running start before
    · exact Nat.ne_of_gt (numbered.sentSession session running)
  targeted := by
    intro start there stop thereStop aimed
    simp only [List.mem_append, List.mem_singleton] at there
    rcases there with before | rfl
    · exact numbered.targeted start before stop thereStop aimed
    · exact absurd (numbered.sentStops stop thereStop _ aimed) (Nat.lt_irrefl _)
  latest := by
    intro start there isLast
    simp only [List.mem_append, List.mem_singleton] at there
    rcases there with before | rfl <;> rcases last with ⟨rfl, rfl⟩ | ⟨rfl, rfl⟩
    · have earlier := numbered.sentStarts start before
      simp only [Option.some.injEq] at isLast
      omega
    · exact numbered.latest start before isLast
    · rfl
    · exact absurd (numbered.sentLast _ isLast) (Nat.lt_irrefl _)

/-- A stop is sent, from the interface or from the tile. -/
theorem Numbered.of_stop (numbered : sessions.Numbered) {sequence : ℤ} {target : Option ℕ}
    (sent : ∀ stamp ∈ target, stamp < sessions.now)
    (targeted : ∀ start ∈ sessions.starts, target = some start.issued →
      sequence = start.sequence) :
    { sessions with
      now := sessions.now + 1
      stops := sessions.stops ++
        [(⟨sequence, sessions.now, target⟩ : StopCommand)] }.Numbered where
  idle := numbered.idle
  settled := numbered.settled
  sentStarts start there := Nat.lt_succ_of_lt (numbered.sentStarts start there)
  sentStops := by
    intro stop there stamp aimed
    simp only [List.mem_append, List.mem_singleton] at there
    rcases there with before | rfl
    · exact Nat.lt_succ_of_lt (numbered.sentStops stop before stamp aimed)
    · exact Nat.lt_succ_of_lt (sent stamp aimed)
  sentSession session running := Nat.lt_succ_of_lt (numbered.sentSession session running)
  sentLast last there := Nat.lt_succ_of_lt (numbered.sentLast last there)
  distinct := numbered.distinct
  delivered := numbered.delivered
  targeted := by
    intro start thereStart stop there aimed
    simp only [List.mem_append, List.mem_singleton] at there
    rcases there with before | rfl
    · exact numbered.targeted start thereStart stop before aimed
    · exact targeted start thereStart aimed
  latest := numbered.latest

theorem numbered_stopVpn (numbered : sessions.Numbered) : sessions.stopVpn.Numbered := by
  apply numbered.of_stop
  · intro stamp aimed
    cases running : sessions.session with
    | none =>
        rw [running, Option.none_or] at aimed
        exact numbered.sentLast stamp aimed
    | some session =>
        rw [running, Option.some_or] at aimed
        exact numbered.sentSession stamp (running.trans aimed)
  · intro start there aimed
    cases running : sessions.session with
    | none =>
        rw [running, Option.none_or] at aimed
        exact (numbered.latest start there aimed).symm
    | some session =>
        rw [running, Option.some_or, Option.some.injEq] at aimed
        exact absurd aimed.symm (numbered.delivered session running start there)

theorem numbered_tileStop (numbered : sessions.Numbered) : sessions.tileStop.Numbered := by
  apply numbered.of_stop
  · exact numbered.sentSession
  · intro start there running
    exact absurd rfl (numbered.delivered start.issued running start there)

/-- The service takes a start, which is then no longer under way. -/
theorem numbered_deliverStart (numbered : sessions.Numbered) {index : ℕ} {start : StartCommand}
    (found : sessions.starts[index]? = some start) (succeeds : Bool) :
    ({ sessions with starts := sessions.starts.eraseIdx index }.onStartCommand start
      succeeds).Numbered := by
  have rest : { sessions with starts := sessions.starts.eraseIdx index }.Numbered :=
    numbered.of_sublists (List.eraseIdx_sublist _ _) (List.Sublist.refl _)
  have there := List.mem_of_getElem? found
  unfold onStartCommand
  split
  · split
    · refine ⟨by simp [StateMachine.stateAfterStart], by simp [StateMachine.stateAfterStart],
        rest.sentStarts, rest.sentStops, ?_, rest.sentLast, rest.distinct, ?_, rest.targeted,
        rest.latest⟩
      · rintro session ⟨⟩
        exact numbered.sentStarts start there
      · rintro session ⟨⟩ other remains
        exact ne_of_mem_eraseIdx numbered.distinct found remains
    · exact rest.of_ended (by simp) _
  · exact ⟨rest.idle, rest.settled, rest.sentStarts, rest.sentStops, rest.sentSession,
      rest.sentLast, rest.distinct, rest.delivered, rest.targeted, rest.latest⟩

theorem numbered_step (numbered : sessions.Numbered) (event : SessionEvent) :
    (sessions.step event).Numbered := by
  cases event with
  | startVpn => exact numbered.of_start (Or.inl ⟨rfl, rfl⟩)
  | stopVpn => exact numbered_stopVpn numbered
  | newUi =>
      exact ⟨numbered.idle, numbered.settled, numbered.sentStarts, numbered.sentStops,
        numbered.sentSession, by simp [step], numbered.distinct, numbered.delivered,
        numbered.targeted, by simp [step]⟩
  | tileStart => exact numbered.of_start (Or.inr ⟨rfl, rfl⟩)
  | tileStop => exact numbered_tileStop numbered
  | deliverStart index succeeds =>
      simp only [step]
      cases found : sessions.starts[index]? with
      | none => exact numbered
      | some start => exact numbered_deliverStart numbered found succeeds
  | deliverStop index =>
      simp only [step]
      cases found : sessions.stops[index]? with
      | none => exact numbered
      | some stop =>
          have rest : { sessions with stops := sessions.stops.eraseIdx index }.Numbered :=
            numbered.of_sublists (List.Sublist.refl _) (List.eraseIdx_sublist _ _)
          simp only [Option.elim, actionStop]
          split
          · exact rest.of_ended (by simp) _
          · exact rest
  | stopBegins =>
      simp only [step]
      split
      · exact numbered.of_ended (by simp) _
      · exact numbered
  | ends => exact numbered.of_ended (by simp) _
  | newService => exact numbered.of_ended (by simp [finish]) _

theorem judged_of_none (ended : sessions.session = none) : sessions.Judged := by
  simp [Judged, ended]

theorem judged_stopVpn_iff (numbered : sessions.Numbered) (judged : sessions.Judged) :
    sessions.stopVpn.Judged ↔ sessions.Sequenced .stopVpn := by
  constructor
  · intro after session running positive
    have sent : (⟨sessions.startSequence, sessions.now, sessions.session.or sessions.lastStart⟩ :
        StopCommand) ∈ sessions.stopVpn.stops := by simp [stopVpn]
    have aimed : sessions.session.or sessions.lastStart = some session := by
      rw [running, Option.some_or]
    have accepted := accepts_iff.mp ((after session running _ sent).2 aimed)
    dsimp only at accepted
    exact accepted.resolve_left (by omega)
  · intro sequenced session running stop there
    simp only [stopVpn, List.mem_append, List.mem_singleton] at there
    rcases there with before | rfl
    · exact judged session running stop before
    · refine ⟨fun outdated => ?_, fun _ => accepts_iff.mpr ?_⟩
      · have earlier := numbered.sentSession session running
        exact absurd outdated.2 (Nat.not_lt_of_gt earlier)
      · have inForce := sequenced session running
        simp only [stopVpn]
        omega

theorem judged_tileStop (judged : sessions.Judged) : sessions.tileStop.Judged := by
  intro session running stop there
  simp only [tileStop, List.mem_append, List.mem_singleton] at there
  rcases there with before | rfl
  · exact judged session running stop before
  · exact ⟨fun outdated => absurd outdated.1 (by simp), fun _ => accepts_iff.mpr (by simp)⟩

/-- A start which begins a session. -/
theorem judged_begin_iff (numbered : sessions.Numbered) {start : StartCommand}
    (there : start ∈ sessions.starts) (state : sessions.serviceState = .stopped)
    (starts : List StartCommand) :
    ({ sessions with starts }.onStartCommand start true).Judged ↔
      sessions.StartSequenced start true := by
  have begun : { sessions with starts }.onStartCommand start true =
      { sessions with
        starts
        activeSessionSeq := sessions.seqAfter start
        serviceState := .running
        session := some start.issued } := by
    simp [onStartCommand, StateMachine.acceptsStartCommand, StateMachine.verdictForStart, state,
      StateMachine.stateAfterStart, seqAfter]
  rw [begun]
  constructor
  · intro after
    refine ⟨fun _ _ stop under outdated => ?_, ?_⟩
    · exact (discards_iff.mp ((after start.issued rfl stop under).1 outdated)).2
    · simp [StateMachine.acceptsStartCommand, state]
  · rintro ⟨older, _⟩ session ⟨⟩ stop under
    refine ⟨fun outdated => discards_iff.mpr ⟨outdated.1, older state rfl stop under outdated⟩, ?_⟩
    intro aimed
    have same := numbered.targeted start there stop under aimed
    rw [accepts_iff]
    simp only [seqAfter]
    split <;> omega

/-- A start which is not accepted, for the sake of its number. -/
theorem judged_ignore_iff (judged : sessions.Judged) {start : StartCommand} {succeeds : Bool}
    (ignored : StateMachine.acceptsStartCommand sessions.serviceState = false)
    (starts : List StartCommand) :
    ({ sessions with starts }.onStartCommand start succeeds).Judged ↔
      sessions.StartSequenced start succeeds := by
  have seen : { sessions with starts }.onStartCommand start succeeds =
      { sessions with starts, activeSessionSeq := sessions.seqAfter start } := by
    simp [onStartCommand, ignored, seqAfter]
  rw [seen]
  have notStopped : sessions.serviceState ≠ .stopped := by
    intro state
    simp [state, StateMachine.acceptsStartCommand] at ignored
  by_cases numbers : 0 < start.sequence
  · have inForce : sessions.seqAfter start = start.sequence := if_pos numbers
    rw [inForce]
    constructor
    · intro after
      refine ⟨fun state => absurd state notStopped, fun _ _ session running stop under => ?_⟩
      have ⟨discarded, accepted⟩ := after session running stop under
      refine ⟨fun outdated => (discards_iff.mp (discarded outdated)).2, fun aimed positive => ?_⟩
      exact (accepts_iff.mp (accepted aimed)).resolve_left (by omega)
    · rintro ⟨_, fits⟩ session running stop under
      have ⟨older, meant⟩ := fits ignored numbers session running stop under
      refine ⟨fun outdated => discards_iff.mpr ⟨outdated.1, older outdated⟩, fun aimed => ?_⟩
      rw [accepts_iff]
      have atLeast := meant aimed
      dsimp only
      omega
  · have inForce : sessions.seqAfter start = sessions.activeSessionSeq := if_neg numbers
    rw [inForce]
    exact iff_of_true judged ⟨fun state => absurd state notStopped, fun _ positive =>
      absurd positive numbers⟩

theorem judged_deliverStart_iff (numbered : sessions.Numbered) (judged : sessions.Judged)
    {start : StartCommand} (there : start ∈ sessions.starts) (succeeds : Bool)
    (starts : List StartCommand) :
    ({ sessions with starts }.onStartCommand start succeeds).Judged ↔
      sessions.StartSequenced start succeeds := by
  cases accepts : StateMachine.acceptsStartCommand sessions.serviceState with
  | false => exact judged_ignore_iff judged accepts starts
  | true =>
      by_cases begins : sessions.serviceState = .stopped ∧ succeeds = true
      · rcases begins with ⟨state, rfl⟩
        exact judged_begin_iff numbered there state starts
      · have refused : ({ sessions with starts }.onStartCommand start succeeds).session = none := by
          have stopping : sessions.serviceState = .stopped → succeeds = false := by
            simpa using begins
          cases state : sessions.serviceState <;>
            simp_all [onStartCommand, StateMachine.acceptsStartCommand,
              StateMachine.verdictForStart]
        refine iff_of_true (judged_of_none refused) ⟨fun state starts => ?_, ?_⟩
        · exact absurd ⟨state, starts⟩ begins
        · simp [accepts]

theorem judged_step_iff (numbered : sessions.Numbered) (judged : sessions.Judged)
    (event : SessionEvent) : (sessions.step event).Judged ↔ sessions.Sequenced event := by
  cases event with
  | startVpn | newUi | tileStart => exact iff_of_true judged trivial
  | stopVpn => exact judged_stopVpn_iff numbered judged
  | tileStop => exact iff_of_true (judged_tileStop judged) trivial
  | deliverStart index succeeds =>
      simp only [step, Sequenced]
      cases found : sessions.starts[index]? with
      | none => simpa using judged
      | some start =>
          simpa using judged_deliverStart_iff numbered judged (List.mem_of_getElem? found) succeeds
            (sessions.starts.eraseIdx index)
  | deliverStop index =>
      refine iff_of_true ?_ trivial
      simp only [step]
      cases found : sessions.stops[index]? with
      | none => exact judged
      | some stop =>
          simp only [Option.elim, actionStop]
          split
          · exact judged_of_none rfl
          · intro session running other there
            exact judged session running other (List.mem_of_mem_eraseIdx there)
  | stopBegins =>
      refine iff_of_true ?_ trivial
      simp only [step]
      split
      · exact judged_of_none rfl
      · exact judged
  | ends | newService => exact iff_of_true (judged_of_none rfl) trivial

end Sessions

/--
In every state of a run, whichever stop is delivered next is judged rightly,
exactly if every start which the service sees fits in with the stops under way,
and no stop is sent for a session by an interface whose numbers are behind.
-/
theorem sessions_judged_iff (events : List SessionEvent) :
    Throughout Sessions.step Sessions.Judged Sessions.new events ↔
      Along Sessions.step Sessions.Sequenced Sessions.new events := by
  have always : Along Sessions.step (fun _ _ => True) Sessions.new events :=
    Along.of_forall fun _ _ => trivial
  refine throughout_iff_along (fun sessions => sessions.Numbered ∧ sessions.Judged)
    (fun tracked => tracked.2) ?_ ?_ always ⟨Sessions.numbered_new, Sessions.judged_new⟩
  · intro sessions event _ tracked sequenced
    exact ⟨Sessions.numbered_step tracked.1 event,
      (Sessions.judged_step_iff tracked.1 tracked.2 event).mpr sequenced⟩
  · intro sessions event _ tracked after
    exact (Sessions.judged_step_iff tracked.1 tracked.2 event).mp after

/--
A stop of an earlier process of the interface ends a session which was started
after it, and an ignored start makes the stop of the running session stale.
-/
theorem sessions_misjudged :
    let restarted : List SessionEvent :=
      [.startVpn, .deliverStart 0 true, .stopVpn, .ends, .newUi, .startVpn, .deliverStart 0 true]
    let ignored : List SessionEvent :=
      [.startVpn, .deliverStart 0 true, .stopVpn, .startVpn, .deliverStart 0 true]
    let newer := run Sessions.step Sessions.new restarted
    let same := run Sessions.step Sessions.new ignored
    newer.session = some 2 ∧ newer.stops = [⟨1, 1, some 0⟩] ∧
      (newer.step (.deliverStop 0)).serviceState = .stopped ∧ ¬ newer.Judged ∧
      same.session = some 0 ∧ same.stops = [⟨1, 1, some 0⟩] ∧
      (same.step (.deliverStop 0)).serviceState = .running ∧ ¬ same.Judged := by
  refine ⟨by decide, by decide, by decide, ?_, by decide, by decide, by decide, ?_⟩
  · intro judged
    have discarded := (judged 2 (by decide) ⟨1, 1, some 0⟩ (by decide)).1 (by decide)
    exact absurd discarded (by decide)
  · intro judged
    have accepted := (judged 0 (by decide) ⟨1, 1, some 0⟩ (by decide)).2 rfl
    exact absurd accepted (by decide)

end Mirage.Shell
