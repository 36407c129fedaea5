import Mirage.Tun.Pump

/-!
# Fidelity of the interface clock

Relays and the pump hand `smol_now` the instant of the call, so that each stamp
is only the time between two readings of the clock within one poll, and a tick
of the pump polls nothing.  A run is faithful to the clock exactly as long as all
polls start, up to a microsecond, from one instant, and packets make the pump
poll between its ticks.
-/

namespace Mirage.Tun

open Mirage.Foundations

/--
The stamps of two polls do not decrease, and they are as far apart as the
instants of the polls, up to less than one microsecond.
-/
structure Poll.Advances (earlier later : Poll) : Prop where
  mono : earlier.timestamp ≤ later.timestamp
  atLeast : (later.instant : ℤ) - earlier.instant <
    1000 * (later.timestamp - earlier.timestamp) + 1000
  atMost : 1000 * (later.timestamp - earlier.timestamp) <
    (later.instant : ℤ) - earlier.instant + 1000

/-- The instant from which the stamp of a poll counts whole microseconds. -/
def origin (start delay : ℕ) : ℕ :=
  start + delay % 1000

/-- Two instants are less than one microsecond apart. -/
def Near (first second : ℕ) : Prop :=
  first < second + 1000 ∧ second < first + 1000

instance (first second : ℕ) : Decidable (Near first second) :=
  inferInstanceAs (Decidable (_ ∧ _))

def Poll.origin (poll : Poll) : ℕ :=
  Tun.origin poll.start (poll.instant - poll.start)

namespace PumpEntry

def poll? : PumpEntry → Option Poll
  | .poll _ made => some made
  | .tick => none

/-- The pump has polled since the last tick, if there was one; the last entry comes first. -/
def polledSinceTick : List PumpEntry → Bool
  | [] => true
  | .tick :: _ => false
  | .poll byPump _ :: earlier => byPump || polledSinceTick earlier

/-- Between any two ticks the pump has polled. -/
def PollsEachTick : List PumpEntry → Prop
  | [] => True
  | .tick :: earlier => polledSinceTick earlier = true ∧ PollsEachTick earlier
  | .poll _ _ :: earlier => PollsEachTick earlier

end PumpEntry

namespace Pump

/-- The polls so far, the last one first. -/
def polls (pump : Pump) : List Poll :=
  pump.log.filterMap PumpEntry.poll?

/-- What the interface, its timers and the ticks promise of a run so far. -/
structure Faithful (pump : Pump) : Prop where
  advance : pump.polls.Pairwise fun later earlier => earlier.Advances later
  /-- A poll leaves no timer armed that is due. -/
  served : ∀ poll ∈ pump.polls, ∀ timer ∈ poll.left, poll.instant < timer.due
  ticks : PumpEntry.PollsEachTick pump.log

/-- The delay of the poll which an event makes, if it makes one. -/
def pollDelay (pump : Pump) : PumpEvent → Option ℕ
  | .pollNow delay _ => some delay
  | .recv .other delay _ =>
      match pump.phase with
      | .selecting => some delay
      | _ => none
  | .tryRecv .other delay _ =>
      match pump.phase with
      | .draining drained => if drained < 32 then some delay else none
      | _ => none
  | _ => none

/-- The pump takes the branch of its timer. -/
def Ticks (pump : Pump) (event : PumpEvent) : Prop :=
  pump.phase = .selecting ∧ event = .tick

/-- The microseconds between the two readings of a poll fit the cast. -/
def InRange (pump : Pump) (event : PumpEvent) : Prop :=
  ∀ delay, pump.pollDelay event = some delay → delay / 1000 < 2 ^ 63

/--
A poll starts from the instant the earlier polls started from, up to a
microsecond, and a tick comes after a poll of the pump since the tick before.
-/
structure Steady (pump : Pump) (event : PumpEvent) : Prop where
  poll : ∀ delay, pump.pollDelay event = some delay →
    ∀ earlier ∈ pump.polls, Near earlier.origin (origin pump.clock delay)
  tick : pump.Ticks event → PumpEntry.polledSinceTick pump.log = true

/-- What all polls and armed timers of a run in range satisfy. -/
structure Stamped (pump : Pump) : Prop where
  order : ∀ poll ∈ pump.polls, poll.start ≤ poll.instant ∧ poll.instant ≤ pump.clock
  stamp : ∀ poll ∈ pump.polls, poll.timestamp = ((poll.instant - poll.start) / 1000 : ℕ)
  armed : ∀ timer ∈ pump.timers, ∃ poll ∈ pump.polls, ∃ wait : ℕ,
    timer.due = poll.instant + 1000 * wait ∧ timer.expiresAt = poll.timestamp + wait

/-- What a step does to the clock, the timers and the log. -/
inductive Effect (pump : Pump) (event : PumpEvent) (after : Pump) : Prop where
  | poll (byPump : Bool) (delay : ℕ) (armed : List ℕ)
      (polls : pump.pollDelay event = some delay) (no_tick : ¬ pump.Ticks event)
      (clock : after.clock = pump.clock + delay)
      (timers : after.timers = (pump.polled delay).left ++ armed.map fun wait =>
        ⟨(pump.polled delay).instant + 1000 * wait, (pump.polled delay).timestamp + wait⟩)
      (log : after.log = .poll byPump (pump.polled delay) :: pump.log)
  | tick (no_poll : pump.pollDelay event = none) (ticks : pump.Ticks event)
      (clock : after.clock = pump.clock) (timers : after.timers = pump.timers)
      (log : after.log = .tick :: pump.log)
  | quiet (no_poll : pump.pollDelay event = none) (no_tick : ¬ pump.Ticks event)
      (clock : pump.clock ≤ after.clock) (timers : after.timers = pump.timers)
      (log : after.log = pump.log)

theorem step_effect (pump : Pump) (event : PumpEvent) :
    pump.Effect event (pump.step event) := by
  cases event with
  | elapse nanos => exact .quiet rfl (by simp [Ticks]) (Nat.le_add_right _ _) rfl rfl
  | pollNow delay armed => exact .poll false delay armed rfl (by simp [Ticks]) rfl rfl rfl
  | recv packet delay armed =>
      have no_tick : ¬ pump.Ticks (.recv packet delay armed) := by simp [Ticks]
      rcases phase : pump.phase with _ | drained | _ <;> cases packet
      case selecting.other =>
        apply Effect.poll true delay armed (by simp [pollDelay, phase]) no_tick <;>
          simp only [step, phase] <;> rfl
      all_goals
        apply Effect.quiet (by simp [pollDelay, phase]) no_tick <;>
          simp [step, phase, handleRxPacket]
  | tryRecv packet delay armed =>
      have no_tick : ¬ pump.Ticks (.tryRecv packet delay armed) := by simp [Ticks]
      rcases phase : pump.phase with _ | drained | _ <;> cases packet
      case draining.other =>
        by_cases more : drained < 32
        · apply Effect.poll true delay armed (by simp [pollDelay, phase, more]) no_tick <;>
            simp only [step, phase, if_pos more] <;> rfl
        · apply Effect.quiet (by simp [pollDelay, phase, more]) no_tick <;>
            simp [step, phase, more]
      all_goals
        apply Effect.quiet (by simp [pollDelay, phase]) no_tick <;>
          simp only [step, phase, handleRxPacket, le_refl]
      all_goals split <;> simp
  | tryRecvEmpty =>
      have no_tick : ¬ pump.Ticks .tryRecvEmpty := by simp [Ticks]
      rcases phase : pump.phase with _ | drained | _ <;>
        exact .quiet rfl no_tick (by simp [step, phase]) (by simp [step, phase])
          (by simp [step, phase])
  | tick =>
      rcases phase : pump.phase with _ | drained | _
      · exact .tick rfl ⟨phase, rfl⟩ (by simp [step, phase]) (by simp [step, phase])
          (by simp [step, phase])
      all_goals
        exact .quiet rfl (by simp [Ticks, phase]) (by simp [step, phase]) (by simp [step, phase])
          (by simp [step, phase])
  | wake => exact .quiet rfl (by simp [Ticks]) le_rfl rfl rfl
  | stop =>
      have no_tick : ¬ pump.Ticks .stop := by simp [Ticks]
      rcases phase : pump.phase with _ | drained | _ <;>
        exact .quiet rfl no_tick (by simp [step, phase]) (by simp [step, phase])
          (by simp [step, phase])

theorem smolNow_eq {start delay : ℕ} (fits : delay / 1000 < 2 ^ 63) :
    smolNow start (start + delay) = (delay / 1000 : ℕ) := by
  unfold smolNow asI64
  rw [Nat.add_sub_cancel_left]
  apply Int.bmod_eq_of_le <;> omega

theorem timestamp_polled (pump : Pump) {delay : ℕ} (fits : delay / 1000 < 2 ^ 63) :
    (pump.polled delay).timestamp = (delay / 1000 : ℕ) := by
  simp only [polled]
  exact smolNow_eq fits

theorem mem_left_polled {pump : Pump} {delay : ℕ} {timer : Timer} :
    timer ∈ (pump.polled delay).left ↔
      timer ∈ pump.timers ∧ (pump.polled delay).timestamp < timer.expiresAt := by
  simp only [polled, List.mem_filter, decide_eq_true_eq]

/-- Two polls advance together exactly if they count from nearly one instant. -/
theorem advances_iff {earlier later : Poll} (started : earlier.start ≤ earlier.instant)
    (after : earlier.instant ≤ later.start) (begun : later.start ≤ later.instant)
    (first : earlier.timestamp = ((earlier.instant - earlier.start) / 1000 : ℕ))
    (second : later.timestamp = ((later.instant - later.start) / 1000 : ℕ)) :
    earlier.Advances later ↔ Near earlier.origin later.origin := by
  unfold Near Poll.origin Tun.origin
  constructor
  · intro advances
    have atLeast := advances.atLeast
    have atMost := advances.atMost
    omega
  · intro near
    constructor <;> omega

/-- A poll that advances with the others serves all timers that are due. -/
theorem lt_due_of_advances {earlier later : Poll} {timer : Timer} {wait : ℕ}
    (advances : earlier.Advances later) (due : timer.due = earlier.instant + 1000 * wait)
    (expires : timer.expiresAt = earlier.timestamp + wait)
    (unserved : later.timestamp < timer.expiresAt) : later.instant < timer.due := by
  have atLeast := advances.atLeast
  omega

theorem polls_poll {pump after : Pump} {byPump : Bool} {made : Poll}
    (log : after.log = .poll byPump made :: pump.log) : after.polls = made :: pump.polls := by
  simp [polls, log, PumpEntry.poll?]

theorem polls_tick {pump after : Pump} (log : after.log = .tick :: pump.log) :
    after.polls = pump.polls := by
  rw [polls, log]
  rfl

theorem polls_quiet {pump after : Pump} (log : after.log = pump.log) :
    after.polls = pump.polls := by
  simp [polls, log]

theorem Stamped.mono {pump after : Pump} (stamped : pump.Stamped) (clock : pump.clock ≤ after.clock)
    (polls : after.polls = pump.polls) (timers : after.timers = pump.timers) : after.Stamped := by
  constructor
  · intro poll there
    rw [polls] at there
    have order := stamped.order poll there
    omega
  · intro poll there
    rw [polls] at there
    exact stamped.stamp poll there
  · intro timer there
    rw [timers] at there
    rw [polls]
    exact stamped.armed timer there

theorem Stamped.poll {pump after : Pump} {byPump : Bool} {delay : ℕ} {armed : List ℕ}
    (stamped : pump.Stamped) (fits : delay / 1000 < 2 ^ 63)
    (clock : after.clock = pump.clock + delay)
    (timers : after.timers = (pump.polled delay).left ++ armed.map fun wait =>
      ⟨(pump.polled delay).instant + 1000 * wait, (pump.polled delay).timestamp + wait⟩)
    (log : after.log = .poll byPump (pump.polled delay) :: pump.log) : after.Stamped := by
  have polls := polls_poll log
  constructor
  · intro poll there
    rw [polls, List.mem_cons] at there
    rcases there with rfl | there
    · simp only [polled]
      omega
    · have order := stamped.order poll there
      omega
  · intro poll there
    rw [polls, List.mem_cons] at there
    rcases there with rfl | there
    · rw [timestamp_polled pump fits]
      simp [polled]
    · exact stamped.stamp poll there
  · intro timer there
    rw [timers, List.mem_append] at there
    rw [polls]
    rcases there with left | new
    · rcases stamped.armed timer (mem_left_polled.mp left).1 with ⟨poll, made, rest⟩
      exact ⟨poll, List.mem_cons_of_mem _ made, rest⟩
    · rcases List.mem_map.mp new with ⟨wait, _, rfl⟩
      exact ⟨pump.polled delay, List.mem_cons_self, wait, rfl, rfl⟩

theorem Stamped.step {pump : Pump} {event : PumpEvent} (inRange : pump.InRange event)
    (stamped : pump.Stamped) : (pump.step event).Stamped := by
  cases step_effect pump event with
  | poll byPump delay armed polls no_tick clock timers log =>
      exact stamped.poll (inRange delay polls) clock timers log
  | tick no_poll ticks clock timers log =>
      exact stamped.mono clock.ge (polls_tick log) timers
  | quiet no_poll no_tick clock timers log =>
      exact stamped.mono clock (polls_quiet log) timers

/-- The next poll advances with an earlier one exactly if it starts from the same instant. -/
theorem advances_polled_iff {pump : Pump} {delay : ℕ} (stamped : pump.Stamped)
    (fits : delay / 1000 < 2 ^ 63) {earlier : Poll} (there : earlier ∈ pump.polls) :
    earlier.Advances (pump.polled delay) ↔ Near earlier.origin (origin pump.clock delay) := by
  have order := stamped.order earlier there
  have stamp := timestamp_polled pump fits
  have same : (pump.polled delay).origin = Tun.origin pump.clock delay := by
    simp [Poll.origin, polled]
  rw [← same]
  apply advances_iff order.1 order.2 (Nat.le_add_right _ _) (stamped.stamp earlier there)
  rw [stamp]
  simp [polled]

theorem Faithful.step {pump : Pump} {event : PumpEvent} (inRange : pump.InRange event)
    (stamped : pump.Stamped) (faithful : pump.Faithful) (steady : pump.Steady event) :
    (pump.step event).Faithful := by
  cases step_effect pump event with
  | poll byPump delay armed polls no_tick clock timers log =>
      have advances : ∀ earlier ∈ pump.polls, earlier.Advances (pump.polled delay) := by
        intro earlier there
        rw [advances_polled_iff stamped (inRange delay polls) there]
        exact steady.poll delay polls earlier there
      constructor
      · rw [polls_poll log, List.pairwise_cons]
        exact ⟨advances, faithful.advance⟩
      · intro poll there
        rw [polls_poll log, List.mem_cons] at there
        rcases there with rfl | there
        · intro timer left
          rcases mem_left_polled.mp left with ⟨before, unserved⟩
          rcases stamped.armed timer before with ⟨earlier, made, wait, due, expires⟩
          exact lt_due_of_advances (advances earlier made) due expires unserved
        · exact faithful.served poll there
      · rw [log]
        exact faithful.ticks
  | tick no_poll ticks clock timers log =>
      constructor
      · rw [polls_tick log]
        exact faithful.advance
      · rw [polls_tick log]
        exact faithful.served
      · rw [log]
        exact ⟨steady.tick ticks, faithful.ticks⟩
  | quiet no_poll no_tick clock timers log =>
      constructor
      · rw [polls_quiet log]
        exact faithful.advance
      · rw [polls_quiet log]
        exact faithful.served
      · rw [log]
        exact faithful.ticks

theorem Steady.of_faithful {pump : Pump} {event : PumpEvent} (inRange : pump.InRange event)
    (stamped : pump.Stamped) (faithful : (pump.step event).Faithful) : pump.Steady event := by
  cases step_effect pump event with
  | poll byPump delay armed polls no_tick clock timers log =>
      constructor
      · intro other same earlier there
        obtain rfl : delay = other := Option.some.inj (polls.symm.trans same)
        have advance := faithful.advance
        rw [polls_poll log, List.pairwise_cons] at advance
        exact (advances_polled_iff stamped (inRange delay polls) there).mp
          (advance.1 earlier there)
      · exact fun ticks => absurd ticks no_tick
  | tick no_poll ticks clock timers log =>
      constructor
      · intro delay polls
        rw [no_poll] at polls
        cases polls
      · intro _
        have each := faithful.ticks
        rw [log] at each
        exact each.1
  | quiet no_poll no_tick clock timers log =>
      constructor
      · intro delay polls
        rw [no_poll] at polls
        cases polls
      · exact fun ticks => absurd ticks no_tick

theorem stamped_start (now : ℕ) : (start now).Stamped :=
  ⟨nofun, nofun, nofun⟩

theorem faithful_start (now : ℕ) : (start now).Faithful :=
  ⟨.nil, nofun, trivial⟩

/--
In a run whose polls fit the cast, the interface is faithful to the clock in
every state exactly if every event is steady: all polls start from one instant,
and the pump polls between its ticks.
-/
theorem steady_iff_faithful (now : ℕ) (events : List PumpEvent) :
    Along step (fun pump event => pump.InRange event ∧ pump.Steady event) (start now) events ↔
      Along step InRange (start now) events ∧ Throughout step Faithful (start now) events := by
  rw [Along.and]
  apply and_congr_right
  intro inRange
  have kept : ∀ {pump : Pump} {event}, pump.InRange event → pump.Stamped ∧ pump.Faithful →
      pump.Steady event → (pump.step event).Stamped ∧ (pump.step event).Faithful := by
    rintro pump event inRange ⟨stamped, faithful⟩ steady
    exact ⟨stamped.step inRange, faithful.step inRange stamped steady⟩
  have broken : ∀ {pump : Pump} {event}, pump.InRange event → pump.Stamped ∧ pump.Faithful →
      (pump.step event).Faithful → pump.Steady event := by
    rintro pump event inRange ⟨stamped, _⟩ faithful
    exact .of_faithful inRange stamped faithful
  exact (throughout_iff_along (fun pump => pump.Stamped ∧ pump.Faithful) And.right kept broken
    inRange ⟨stamped_start now, faithful_start now⟩).symm

/-- Two relays poll one second apart, and both stamps are zero. -/
theorem not_faithful_polls : ¬ ∀ now events, Throughout step Faithful (start now) events := by
  intro claimed
  have advance :=
    (claimed 0 [.pollNow 200 [], .elapse 1000000000, .pollNow 200 []]).run.advance
  have polls : (run step (start 0) [.pollNow 200 [], .elapse 1000000000, .pollNow 200 []]).polls =
      [⟨1000000200, 1000000400, 0, []⟩, ⟨0, 200, 0, []⟩] := by
    decide
  rw [polls, List.pairwise_cons] at advance
  have apart := (advance.1 _ List.mem_cons_self).atLeast
  exact absurd apart (by decide)

/-- Two ticks without a packet are two ticks without a poll. -/
example : ¬ PumpEntry.PollsEachTick (run step (start 0) [.tick, .elapse 25000000, .tick]).log :=
  fun ticks => absurd ticks.1 (by decide)

end Pump

end Mirage.Tun
