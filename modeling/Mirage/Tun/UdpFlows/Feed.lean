import Mirage.Tun.UdpFlows

/-!
# Datagrams and the end of their flow

An entry of the map stays until the guard of its relay is dropped, and `feed`
does not look at what has become of the relay.  A datagram is lost exactly if it
comes while a half of its flow has ended, or the relay has left its loops, and
the guard is still there.
-/

namespace Mirage.Tun

open Mirage.Foundations

namespace FlowPhase

theorem withSender_eq_gone {phase : FlowPhase} {sender : SenderPhase} :
    phase.withSender sender = .gone ↔ phase = .gone := by
  cases phase <;> simp [withSender]

theorem senderEnds_eq_gone {phase : FlowPhase} : phase.senderEnds = .gone ↔ phase = .gone := by
  cases phase with
  | own path sender reading => cases reading <;> simp [senderEnds]
  | _ => simp [senderEnds]

theorem readerEnds_eq_gone {phase : FlowPhase} : phase.readerEnds = .gone ↔ phase = .gone := by
  cases phase with
  | own path sender reading => cases sender <;> simp [readerEnds]
  | _ => simp [readerEnds]

end FlowPhase

namespace FlowRelay

/-- What the map of flows depends on. -/
def standing (relay : FlowRelay) : FlowKey × Bool :=
  (relay.key, relay.phase = .gone)

theorem standing_eq {first second : FlowRelay} :
    first.standing = second.standing ↔
      first.key = second.key ∧ (first.phase = .gone ↔ second.phase = .gone) := by
  simp [standing]

@[simp]
theorem step_key (muxes : List MuxPumps) (relay : FlowRelay) (event : RelayEvent) :
    (relay.step muxes event).key = relay.key := by
  cases event <;> simp only [step] <;> (try split) <;> (try split) <;> rfl

/-- Only the drop of its guard takes a relay away. -/
theorem step_gone_iff (muxes : List MuxPumps) (relay : FlowRelay) {event : RelayEvent}
    (kept : event ≠ .dropGuard) :
    (relay.step muxes event).phase = .gone ↔ relay.phase = .gone := by
  cases event with
  | dropGuard => exact absurd rfl kept
  | recv more =>
      simp only [step]
      split
      · exact FlowPhase.withSender_eq_gone
      · rfl
  | sent ok =>
      simp only [step]
      split
      · cases ok
        · exact FlowPhase.senderEnds_eq_gone
        · exact FlowPhase.withSender_eq_gone
      · rfl
  | idle =>
      simp only [step]
      split
      · exact FlowPhase.senderEnds_eq_gone
      · rfl
  | upEnds => exact FlowPhase.readerEnds_eq_gone
  | _ =>
      simp only [step]
      (try split) <;> (try split) <;> simp_all

@[simp]
theorem trySend_key (relay : FlowRelay) (payload : List UInt8) :
    (relay.trySend payload).key = relay.key := by
  unfold trySend
  split <;> rfl

@[simp]
theorem trySend_phase (relay : FlowRelay) (payload : List UInt8) :
    (relay.trySend payload).phase = relay.phase := by
  unfold trySend
  split <;> rfl

end FlowRelay

namespace UdpFlows

/-- The entries of the map are the relays whose guard is not dropped, one for a key. -/
structure Registered (state : UdpFlows) : Prop where
  relay : ∀ key index, (key, index) ∈ state.flows →
    ∃ relay, state.relays[index]? = some relay ∧ relay.key = key ∧ relay.phase ≠ .gone
  entry : ∀ index relay, state.relays[index]? = some relay → relay.phase ≠ .gone →
    (relay.key, index) ∈ state.flows
  unique : ∀ key first second, (key, first) ∈ state.flows → (key, second) ∈ state.flows →
    first = second

/-- Every datagram that was handed to a flow found both its halves running. -/
def NeverBlackHoles (state : UdpFlows) : Prop :=
  ∀ fed ∈ state.fed, fed.served = true

/--
A datagram comes only while each relay of its key, if its guard is not dropped,
takes datagrams and has both halves running.
-/
def Timely (state : UdpFlows) : FlowEvent → Prop
  | .feed key _ false =>
      ∀ relay ∈ state.relays, relay.key = key → relay.phase ≠ .gone →
        state.serves relay.phase = true
  | _ => True

/-- Relays change, but not their keys, and none of them goes away. -/
theorem Registered.of_relays {state next : UdpFlows} (registered : state.Registered)
    (flows : next.flows = state.flows)
    (relays : ∀ index : ℕ, (next.relays[index]?).map FlowRelay.standing =
      (state.relays[index]?).map FlowRelay.standing) : next.Registered := by
  constructor
  · intro key index there
    rw [flows] at there
    rcases registered.relay key index there with ⟨relay, found, rfl, kept⟩
    have same := relays index
    rw [found, Option.map_some, Option.map_eq_some_iff] at same
    rcases same with ⟨new, found_new, agree⟩
    rw [FlowRelay.standing_eq] at agree
    exact ⟨new, found_new, agree.1, mt agree.2.mp kept⟩
  · intro index relay found kept
    have same := (relays index).symm
    rw [found, Option.map_some, Option.map_eq_some_iff] at same
    rcases same with ⟨old, found_old, agree⟩
    rw [FlowRelay.standing_eq] at agree
    rw [flows, ← agree.1]
    exact registered.entry index old found_old (mt agree.2.mp kept)
  · rw [flows]
    exact registered.unique

theorem Registered.set_relay {state : UdpFlows} {index : ℕ} {relay new : FlowRelay}
    {muxes : List MuxPumps} {forwards : List Forward} (registered : state.Registered)
    (found : state.relays[index]? = some relay) (key : new.key = relay.key)
    (gone : new.phase = .gone ↔ relay.phase = .gone) :
    { state with
      relays := state.relays.set index new
      muxes := muxes
      forwards := forwards }.Registered := by
  apply registered.of_relays
  · rfl
  · intro other
    have inside := (List.getElem?_eq_some_iff.mp found).1
    by_cases same : index = other
    · subst same
      rw [List.getElem?_set_self inside, found, Option.map_some, Option.map_some,
        FlowRelay.standing_eq.mpr ⟨key, gone⟩]
    · rw [List.getElem?_set_ne same]

theorem Registered.dropGuard {state : UdpFlows} {index : ℕ} {relay : FlowRelay}
    (registered : state.Registered) (found : state.relays[index]? = some relay) :
    (state.dropGuard index relay).Registered := by
  simp only [UdpFlows.dropGuard]
  split
  case h_2 => exact registered
  rename_i leaving
  have inside := (List.getElem?_eq_some_iff.mp found).1
  have there : (relay.key, index) ∈ state.flows :=
    registered.entry index relay found (by simp [leaving])
  have after : (relay.step state.muxes .dropGuard).phase = .gone := by
    simp [FlowRelay.step, leaving]
  constructor
  · intro key other kept
    rw [List.mem_filter] at kept
    rcases registered.relay key other kept.1 with ⟨rest, found_rest, rfl, alive⟩
    refine ⟨rest, ?_, rfl, alive⟩
    have elsewhere : index ≠ other := by
      rintro rfl
      obtain rfl : relay = rest := Option.some.inj (found.symm.trans found_rest)
      simp at kept
    simpa only [List.getElem?_set_ne elsewhere] using found_rest
  · intro other rest found_rest alive
    rcases getElem?_set_cases found_rest with ⟨rfl, rfl⟩ | ⟨elsewhere, before⟩
    · exact absurd after alive
    · have kept := registered.entry other rest before alive
      rw [List.mem_filter]
      refine ⟨kept, ?_⟩
      rw [decide_eq_true_eq]
      intro same
      apply elsewhere
      have same : rest.key = relay.key := same
      rw [same] at kept
      exact registered.unique _ _ _ there kept
  · intro key first second first_there second_there
    exact registered.unique key first second (List.mem_of_mem_filter first_there)
      (List.mem_of_mem_filter second_there)

/-- What the look-up in the map finds. -/
theorem find?_flows_eq_some {state : UdpFlows} {key found : FlowKey} {index : ℕ}
    (hit : state.flows.find? (·.1 = key) = some (found, index)) :
    (key, index) ∈ state.flows := by
  have same : found = key := by simpa using List.find?_some hit
  rw [← same]
  exact List.mem_of_find?_eq_some hit

theorem Registered.feed {state : UdpFlows} (registered : state.Registered) (key : FlowKey)
    (payload : List UInt8) : (state.feed key payload).Registered := by
  simp only [UdpFlows.feed]
  split
  · rename_i index hit
    apply registered.of_relays
    · rfl
    · intro other
      rw [List.getElem?_modify, Option.map_eq_map, Option.map_map]
      congr 1
      funext relay
      simp only [Function.comp_apply]
      split
      · exact FlowRelay.standing_eq.mpr ⟨relay.trySend_key payload, by rw [relay.trySend_phase]⟩
      · rfl
  · rename_i miss
    have absent : ∀ index, (key, index) ∉ state.flows := by
      intro index there
      simpa using List.find?_eq_none.mp miss _ there
    split
    case isFalse => exact registered
    constructor
    · intro other index there
      rcases List.mem_cons.mp there with new | before
      · rcases Prod.mk.inj new with ⟨rfl, rfl⟩
        exact ⟨⟨other, [payload], .setup⟩, by simp, rfl, by simp⟩
      · rcases registered.relay other index before with ⟨relay, found, rest⟩
        have inside := (List.getElem?_eq_some_iff.mp found).1
        exact ⟨relay, by rw [List.getElem?_append_left inside]; exact found, rest⟩
    · intro index relay found alive
      rw [List.getElem?_append] at found
      split at found
      · exact List.mem_cons_of_mem _ (registered.entry index relay found alive)
      · rename_i outside
        rcases List.getElem?_eq_some_iff.mp found with ⟨inside, rfl⟩
        simp only [List.length_singleton] at inside
        have here : index = state.relays.length := by omega
        simp [here]
    · intro other first second first_there second_there
      rcases List.mem_cons.mp first_there with new | before <;>
        rcases List.mem_cons.mp second_there with new' | before'
      · rw [(Prod.mk.inj new).2, (Prod.mk.inj new').2]
      · rw [(Prod.mk.inj new).1] at before'
        exact absurd before' (absent second)
      · rw [(Prod.mk.inj new').1] at before
        exact absurd before (absent first)
      · exact registered.unique other first second before before'

theorem Registered.sent {state : UdpFlows} {index : ℕ} {relay : FlowRelay} (ok : Bool)
    (registered : state.Registered) (found : state.relays[index]? = some relay) :
    (state.sent index relay ok).Registered := by
  have stepped : ∀ ok, ((relay.step state.muxes (.sent ok)).phase = .gone ↔ relay.phase = .gone) :=
    fun ok => relay.step_gone_iff state.muxes (by simp)
  simp only [UdpFlows.sent]
  split
  · split
    · split
      · exact registered.set_relay found (relay.step_key _ _) (stepped false)
      · split
        · exact registered.set_relay found (relay.step_key _ _) (stepped true)
        · exact registered
    · exact registered
  · split
    · exact registered.set_relay found (relay.step_key _ _) (stepped true)
    · exact registered.set_relay found (relay.step_key _ _) (stepped false)
  · exact registered

theorem Registered.step {state : UdpFlows} (registered : state.Registered) (event : FlowEvent) :
    (state.step event).Registered := by
  cases event with
  | feed key payload refused =>
      simp only [UdpFlows.step]
      split
      · exact registered
      · exact registered.feed key payload
  | relay index event =>
      simp only [UdpFlows.step]
      split
      case h_2 => exact registered
      rename_i relay found
      cases event with
      | sent ok => exact registered.sent ok found
      | dropGuard => exact registered.dropGuard found
      | _ => exact registered.set_relay found (relay.step_key _ _) (relay.step_gone_iff _ (by simp))
  | writerSends tunnel ok =>
      simp only [UdpFlows.step]
      split
      · exact registered.of_relays rfl fun _ => rfl
      · exact registered
  | _ => exact registered.of_relays rfl fun _ => rfl

/-- A datagram is handed to a flow that runs exactly if it comes in time. -/
theorem neverBlackHoles_feed_iff {state : UdpFlows} (registered : state.Registered) (key : FlowKey)
    (payload : List UInt8) :
    (state.feed key payload).NeverBlackHoles ↔
      state.NeverBlackHoles ∧ state.Timely (.feed key payload false) := by
  simp only [UdpFlows.feed]
  split
  · rename_i index hit
    have there := find?_flows_eq_some hit
    rcases registered.relay key index there with ⟨relay, found, same, alive⟩
    have only : ∀ other ∈ state.relays, other.key = key → other.phase ≠ .gone → other = relay := by
      intro other mem other_key other_alive
      rcases List.mem_iff_getElem?.mp mem with ⟨place, at_place⟩
      have entry := registered.entry place other at_place other_alive
      rw [other_key] at entry
      obtain rfl : index = place := registered.unique key index place there entry
      exact Option.some.inj (at_place.symm.trans found)
    simp only [NeverBlackHoles, Timely, List.forall_mem_append, List.forall_mem_singleton, found,
      Option.any_some]
    apply and_congr_right
    intro _
    constructor
    · intro serves other mem other_key other_alive
      rw [only other mem other_key other_alive]
      exact serves
    · intro timely
      exact timely relay (List.mem_of_getElem? found) same alive
  · rename_i miss
    have timely : state.Timely (.feed key payload false) := by
      intro relay mem same alive
      rcases List.mem_iff_getElem?.mp mem with ⟨index, found⟩
      have entry := registered.entry index relay found alive
      have absent := List.find?_eq_none.mp miss _ entry
      simp [same] at absent
    simp only [timely, and_true]
    split <;> rfl

/-- A write which is over leaves the record of `feed` and the map alone. -/
theorem sent_frame (state : UdpFlows) (index : ℕ) (relay : FlowRelay) (ok : Bool) :
    (state.sent index relay ok).fed = state.fed ∧
      (state.sent index relay ok).flows = state.flows := by
  simp only [UdpFlows.sent]
  split
  · split
    · split
      · exact ⟨rfl, rfl⟩
      · split <;> exact ⟨rfl, rfl⟩
    · exact ⟨rfl, rfl⟩
  · split <;> exact ⟨rfl, rfl⟩
  · exact ⟨rfl, rfl⟩

/-- Only `feed` hands a datagram to a flow. -/
theorem fed_stepRelay (state : UdpFlows) (index : ℕ) (relay : FlowRelay) (event : RelayEvent) :
    (state.stepRelay index relay event).fed = state.fed := by
  cases event with
  | sent ok => exact (sent_frame state index relay ok).1
  | dropGuard =>
      simp only [UdpFlows.stepRelay, UdpFlows.dropGuard]
      split <;> rfl
  | _ => rfl

theorem neverBlackHoles_step_iff {state : UdpFlows} (registered : state.Registered)
    (event : FlowEvent) :
    (state.step event).NeverBlackHoles ↔ state.NeverBlackHoles ∧ state.Timely event := by
  cases event with
  | feed key payload refused =>
      cases refused with
      | true => simp [UdpFlows.step, Timely]
      | false => exact neverBlackHoles_feed_iff registered key payload
  | relay index event =>
      simp only [UdpFlows.step, Timely, and_true]
      split
      · rename_i relay found
        simp only [NeverBlackHoles, fed_stepRelay]
      · rfl
  | writerSends tunnel ok =>
      simp only [UdpFlows.step, Timely, and_true]
      split <;> rfl
  | _ => simp [UdpFlows.step, Timely, NeverBlackHoles]

theorem registered_start : start.Registered :=
  ⟨nofun, nofun, nofun⟩

/--
No datagram is handed to a flow that does not run, in any state of a run,
exactly if all datagrams of the run come in time.
-/
theorem neverBlackHoles_iff_timely (events : List FlowEvent) :
    Throughout step NeverBlackHoles start events ↔ Along step Timely start events := by
  have kept : ∀ {state : UdpFlows} {event}, True → state.Registered ∧ state.NeverBlackHoles →
      state.Timely event → (state.step event).Registered ∧ (state.step event).NeverBlackHoles := by
    rintro state event - ⟨registered, good⟩ timely
    exact ⟨registered.step event, (neverBlackHoles_step_iff registered event).mpr ⟨good, timely⟩⟩
  have broken : ∀ {state : UdpFlows} {event}, True → state.Registered ∧ state.NeverBlackHoles →
      (state.step event).NeverBlackHoles → state.Timely event := by
    rintro state event - ⟨registered, _⟩ good
    exact ((neverBlackHoles_step_iff registered event).mp good).2
  exact throughout_iff_along (fun state => state.Registered ∧ state.NeverBlackHoles) And.right
    kept broken (Along.of_forall fun _ _ => trivial) ⟨registered_start, nofun⟩

/--
The client of a legacy flow is silent until `dn` ends, the server goes on
sending, and the client's next datagram finds the entry of the flow.
-/
theorem not_neverBlackHoles_idle :
    ¬ ∀ events, Throughout step NeverBlackHoles start events := by
  intro claimed
  let key : FlowKey := ⟨.v4 (ipv4 10 0 0 2), 5000, .v4 (ipv4 1 1 1 1), 5001⟩
  have good := (claimed [.feed key [1] false, .relay 0 (.startOwn .legacy), .relay 0 (.recv 0),
    .relay 0 (.sent true), .relay 0 .idle, .feed key [2] false]).run
  exact absurd (good ⟨0, false⟩ (by decide)) (by decide)

end UdpFlows

end Mirage.Tun
