import Mathlib.Data.List.Nodup
import Mirage.Tun.UdpFlows.Feed

/-!
# The map of flows and the count of flows

`GLOBAL_FLOW_COUNT` is stored by `feed` before a flow is inserted, and by `remove_flow` after
the entry was removed.  The guard of a relay is made when the relay is polled for the first
time.  The map never has more than 128 entries, and an entry and its relay come and go
together; but the count misses the flow which was inserted last.
-/

namespace Mirage.Tun

open Mirage.Foundations

structure CountedFlows where
  state : UdpFlows
  /-- `GLOBAL_FLOW_COUNT` -/
  count : ℕ
  /-- How many flows were inserted since the count was stored. -/
  unstored : ℕ
  /-- The relays which are spawned and were not polled yet. -/
  fresh : List ℕ
  /-- The relays whose guard lives. -/
  guards : List ℕ

inductive CountEvent where
  | flow (event : FlowEvent)
  | poll (index : ℕ)

namespace UdpFlows

/-- `feed` makes a flow for the key. -/
def inserts (state : UdpFlows) (key : FlowKey) : Bool :=
  (state.flows.find? (·.1 = key)).isNone && decide (state.flows.length < 128)

/-- The step of a relay drops its guard. -/
def drops (state : UdpFlows) (index : ℕ) (event : RelayEvent) : Bool :=
  event = .dropGuard && (state.relays[index]?).any fun relay => relay.phase = .leaving

end UdpFlows

namespace CountedFlows

def start : CountedFlows :=
  ⟨.start, 0, 0, [], []⟩

def feed (counted : CountedFlows) (key : FlowKey) (payload : List UInt8) : CountedFlows :=
  let stored := { counted with state := counted.state.feed key payload,
                               count := counted.state.flows.length }
  if counted.state.inserts key then
    { stored with unstored := 1, fresh := counted.state.relays.length :: counted.fresh }
  else { stored with unstored := 0 }

def relay (counted : CountedFlows) (index : ℕ) (event : RelayEvent) : CountedFlows :=
  let state := counted.state.step (.relay index event)
  if counted.state.drops index event then
    { counted with
      state
      count := state.flows.length
      unstored := 0
      guards := counted.guards.erase index }
  else { counted with state }

def step (counted : CountedFlows) : CountEvent → CountedFlows
  | .poll index =>
      if index ∈ counted.fresh then
        { counted with
          fresh := counted.fresh.erase index
          guards := index :: counted.guards }
      else counted
  | .flow (.feed key payload refused) => if refused then counted else counted.feed key payload
  -- A relay which was not polled does nothing.
  | .flow (.relay index event) =>
      if index ∈ counted.fresh then counted else counted.relay index event
  | .flow event => { counted with state := counted.state.step event }

/-- At most 128 entries, at most one relay for a key, and a guard removes its own entry only. -/
structure Bounded (counted : CountedFlows) : Prop where
  few : counted.state.flows.length ≤ 128
  oneRelay : ∀ (first second : ℕ) (one two : FlowRelay),
    counted.state.relays[first]? = some one → counted.state.relays[second]? = some two →
      one.phase ≠ .gone → two.phase ≠ .gone → one.key = two.key → first = second
  ownEntry : ∀ (index : ℕ) (relay : FlowRelay), counted.state.relays[index]? = some relay →
    relay.phase = .leaving → (relay.key, index) ∈ counted.state.flows ∧
      (counted.state.dropGuard index relay).flows =
        counted.state.flows.filter (· ≠ (relay.key, index))

/-- The invariant of the map, the guards and the count. -/
structure Tallied (counted : CountedFlows) : Prop where
  registered : counted.state.Registered
  few : counted.state.flows.length ≤ 128
  distinct : (counted.fresh ++ counted.guards).Nodup
  listed : (counted.fresh ++ counted.guards).Perm (counted.state.flows.map Prod.snd)
  stored : counted.count + counted.unstored = counted.state.flows.length

end CountedFlows

namespace UdpFlows

variable {state : UdpFlows} {key : FlowKey} {payload : List UInt8} {index : ℕ}

theorem feed_flows (state : UdpFlows) (key : FlowKey) (payload : List UInt8) :
    (state.feed key payload).flows =
      if state.inserts key then (key, state.relays.length) :: state.flows else state.flows := by
  simp only [feed]
  split
  · rename_i hit
    have old : state.inserts key = false := by simp [inserts, hit]
    rw [old]
    rfl
  · rename_i miss
    have new : state.inserts key = decide (state.flows.length < 128) := by simp [inserts, miss]
    simp only [new, decide_eq_true_eq]
    split <;> rfl

/-- Apart from `feed`, only the drop of a guard changes the map. -/
theorem stepRelay_flows {event : RelayEvent} {relay : FlowRelay} (kept : event ≠ .dropGuard) :
    (state.stepRelay index relay event).flows = state.flows := by
  cases event with
  | dropGuard => exact absurd rfl kept
  | sent ok => exact (sent_frame state index relay ok).2
  | _ => rfl

theorem relay_flows {event : RelayEvent} (kept : state.drops index event = false) :
    (state.step (.relay index event)).flows = state.flows := by
  simp only [step]
  cases found : state.relays[index]? with
  | none => rfl
  | some relay =>
      by_cases drop : event = .dropGuard
      · subst drop
        simp only [drops, found, decide_true, Bool.true_and, Option.any_some,
          decide_eq_false_iff_not] at kept
        simp only [stepRelay, UdpFlows.dropGuard]
      · exact stepRelay_flows drop

/-- With one relay for a key, the entry of a leaving relay is the only one that goes. -/
theorem Registered.dropGuard_flows {relay : FlowRelay} (registered : state.Registered)
    (found : state.relays[index]? = some relay) (leaving : relay.phase = .leaving) :
    (relay.key, index) ∈ state.flows ∧
      (state.dropGuard index relay).flows = state.flows.filter (· ≠ (relay.key, index)) := by
  have there : (relay.key, index) ∈ state.flows :=
    registered.entry index relay found (by simp [leaving])
  refine ⟨there, ?_⟩
  simp only [UdpFlows.dropGuard, leaving]
  apply List.filter_congr
  rintro ⟨key, other⟩ entry
  rw [decide_eq_decide]
  apply not_congr
  constructor
  · rintro rfl
    rw [registered.unique _ _ _ entry there]
  · intro same
    exact (Prod.mk.inj same).1

end UdpFlows

namespace CountedFlows

variable {counted : CountedFlows}

theorem Tallied.start : Tallied .start :=
  ⟨UdpFlows.registered_start, Nat.zero_le _, List.nodup_nil, .refl _, rfl⟩

theorem Tallied.nodup_flows (tallied : counted.Tallied) : counted.state.flows.Nodup :=
  (tallied.listed.nodup tallied.distinct).of_map _

/-- A step which leaves the map, the guards and the count alone. -/
theorem Tallied.of_flows (tallied : counted.Tallied) {state : UdpFlows}
    (registered : state.Registered) (flows : state.flows = counted.state.flows) :
    Tallied { counted with state } :=
  ⟨registered, by rw [flows]; exact tallied.few, tallied.distinct,
    by rw [flows]; exact tallied.listed, by rw [flows]; exact tallied.stored⟩

theorem Tallied.poll (tallied : counted.Tallied) (index : ℕ) :
    Tallied (counted.step (.poll index)) := by
  simp only [step]
  split
  · rename_i fresh
    have moved : (counted.fresh ++ counted.guards).Perm
        (counted.fresh.erase index ++ index :: counted.guards) :=
      ((List.perm_cons_erase fresh).append_right _).trans List.perm_middle.symm
    exact ⟨tallied.registered, tallied.few, moved.nodup tallied.distinct,
      moved.symm.trans tallied.listed, tallied.stored⟩
  · exact tallied

theorem Tallied.feed (tallied : counted.Tallied) (key : FlowKey) (payload : List UInt8) :
    Tallied (counted.feed key payload) := by
  have registered := tallied.registered.feed key payload
  have flows := counted.state.feed_flows key payload
  simp only [CountedFlows.feed]
  split
  · rename_i inserts
    rw [if_pos inserts] at flows
    have room : counted.state.flows.length < 128 := by
      simp only [UdpFlows.inserts, Bool.and_eq_true, decide_eq_true_eq] at inserts
      exact inserts.2
    -- No relay has the number of the new one.
    have new : counted.state.relays.length ∉ counted.fresh ++ counted.guards := by
      intro there
      rcases List.mem_map.mp (tallied.listed.mem_iff.mp there) with ⟨⟨key, index⟩, entry, same⟩
      rcases tallied.registered.relay key index entry with ⟨relay, found, -⟩
      have inside := (List.getElem?_eq_some_iff.mp found).1
      dsimp only at same
      omega
    refine ⟨registered, ?_, List.nodup_cons.mpr ⟨new, tallied.distinct⟩, ?_, ?_⟩
    · rw [flows]
      exact room
    · rw [flows]
      exact tallied.listed.cons _
    · rw [flows]
      rfl
  · rename_i kept
    rw [if_neg kept] at flows
    refine ⟨registered, ?_, tallied.distinct, ?_, ?_⟩
    · rw [flows]
      exact tallied.few
    · rw [flows]
      exact tallied.listed
    · rw [flows]
      rfl

theorem Tallied.relay (tallied : counted.Tallied) {index : ℕ} (polled : index ∉ counted.fresh)
    (event : RelayEvent) : Tallied (counted.relay index event) := by
  have registered := tallied.registered.step (.relay index event)
  simp only [CountedFlows.relay]
  split
  case isFalse kept =>
    exact tallied.of_flows registered (UdpFlows.relay_flows (Bool.eq_false_iff.mpr kept))
  case isTrue drops =>
    simp only [UdpFlows.drops, Bool.and_eq_true, decide_eq_true_eq, Option.any_eq_true] at drops
    rcases drops with ⟨rfl, relay, found, leaving⟩
    rcases tallied.registered.dropGuard_flows found leaving with ⟨there, removed⟩
    have flows : (counted.state.step (.relay index .dropGuard)).flows =
        counted.state.flows.erase (relay.key, index) := by
      rw [tallied.nodup_flows.erase_eq_filter]
      simp only [UdpFlows.step, found, UdpFlows.stepRelay, removed]
      apply List.filter_congr
      intro entry _
      exact Bool.eq_iff_iff.mpr (by simp)
    have listed_here : index ∈ counted.fresh ++ counted.guards :=
      tallied.listed.mem_iff.mpr (List.mem_map_of_mem there)
    have guarded : index ∈ counted.guards :=
      (List.mem_append.mp listed_here).resolve_left polled
    have apart : (counted.fresh ++ counted.guards).Perm
        (index :: (counted.fresh ++ counted.guards.erase index)) :=
      ((List.perm_cons_erase guarded).append_left _).trans List.perm_middle
    have entries : (counted.state.flows.map Prod.snd).Perm
        (index :: (counted.state.flows.erase (relay.key, index)).map Prod.snd) :=
      (List.perm_cons_erase there).map Prod.snd
    refine ⟨registered, ?_, (List.nodup_cons.mp (apart.nodup tallied.distinct)).2, ?_, rfl⟩
    · rw [flows, List.length_erase_of_mem there]
      exact (Nat.sub_le _ _).trans tallied.few
    · rw [flows]
      exact (apart.symm.trans (tallied.listed.trans entries)).cons_inv

theorem Tallied.step (tallied : counted.Tallied) (event : CountEvent) :
    (counted.step event).Tallied := by
  cases event with
  | poll index => exact tallied.poll index
  | flow event =>
      have registered := tallied.registered.step event
      cases event with
      | feed key payload refused =>
          simp only [CountedFlows.step]
          split
          · exact tallied
          · exact tallied.feed key payload
      | relay index event =>
          simp only [CountedFlows.step]
          split
          · exact tallied
          · rename_i polled
            exact tallied.relay polled event
      | writerSends tunnel ok =>
          refine tallied.of_flows registered ?_
          simp only [UdpFlows.step]
          split <;> rfl
      | _ => exact tallied.of_flows registered rfl

theorem Tallied.bounded (tallied : counted.Tallied) : counted.Bounded where
  few := tallied.few
  oneRelay first second one two found_one found_two alive_one alive_two same := by
    have entry_one := tallied.registered.entry first one found_one alive_one
    have entry_two := tallied.registered.entry second two found_two alive_two
    rw [same] at entry_one
    exact tallied.registered.unique _ _ _ entry_one entry_two
  ownEntry _ _ found leaving := tallied.registered.dropGuard_flows found leaving

/--
After any events the map is bounded and its entries belong to their relays; the count is
the number of the guards exactly if there are as many relays which were not polled yet as
flows which were inserted after the count was stored.
-/
theorem flows_bounded_and_counted (events : List CountEvent) :
    let counted := run step start events
    counted.Bounded ∧
      (counted.count = counted.guards.length ↔ counted.fresh.length = counted.unstored) := by
  intro counted
  have tallied : counted.Tallied := run_invariant events (fun event tallied => tallied.step event)
    Tallied.start
  refine ⟨tallied.bounded, ?_⟩
  have total := tallied.listed.length_eq
  have stored := tallied.stored
  rw [List.length_append, List.length_map] at total
  omega

/-- The first flow is not counted while it lives. -/
theorem not_counted_firstFlow :
    let counted := run step start
      [.flow (.feed ⟨.v4 (ipv4 10 0 0 2), 5000, .v4 (ipv4 1 1 1 1), 443⟩ [1] false), .poll 0]
    counted.count ≠ counted.guards.length := by
  decide

end CountedFlows

end Mirage.Tun
