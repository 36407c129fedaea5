import Mirage.Tun.UdpFlows.Feed

/-!
# Datagrams without a return path

The half which sends the datagrams of a flow never asks whether the return path
is still read, and the sessions of a mux tunnel outlive its demux pump.  A run
has no half-open flow if nothing is on its way in a flow when its return path
ends, and nothing comes for the flow after that.
-/

namespace Mirage.Tun

open Mirage.Foundations

/-- Datagrams of the relay are in its channel or in its hands. -/
def FlowRelay.pending (relay : FlowRelay) : Bool :=
  match relay.phase with
  | .setup => !relay.queue.isEmpty
  | .registering _ => !relay.queue.isEmpty
  | .mux _ .waiting => !relay.queue.isEmpty
  | .own _ .waiting _ => !relay.queue.isEmpty
  | .mux _ (.sending _) => true
  | .own _ (.sending _) _ => true
  | _ => false

/-- The relay uses a mux tunnel. -/
def FlowPhase.uses (tunnel : ℕ) : FlowPhase → Bool
  | .registering number => number = tunnel
  | .mux number _ => number = tunnel
  | _ => false

/-- The writer has no frames to send. -/
def MuxPumps.idle (pumps : MuxPumps) : Bool :=
  pumps.uplink.isEmpty && (pumps.batch.getD []).isEmpty

namespace UdpFlows

/-- A task reads the return path of the relay, or nothing is sent on it (yet or any more). -/
def pathOpen (state : UdpFlows) : FlowPhase → Bool
  | .registering tunnel => state.demuxReads tunnel
  | .mux tunnel _ => state.demuxReads tunnel
  | .own _ _ reading => reading
  | _ => true

/-- No datagram was sent on a path whose return path nobody read. -/
def NeverHalfOpen (state : UdpFlows) : Prop :=
  ∀ forward ∈ state.forwards, forward.read = true

/--
A datagram comes only for a flow whose return path is read, the return path of a
flow ends only while nothing is on its way, and a relay gets only a mux tunnel
whose demux pump runs.
-/
def attended (state : UdpFlows) : FlowEvent → Bool
  | .feed key _ false =>
      state.relays.all fun relay => relay.key ≠ key || state.pathOpen relay.phase
  | .relay index (.getMux tunnel) =>
      (state.relays[index]?).all fun relay => relay.phase ≠ .setup || state.demuxReads tunnel
  | .relay index .upEnds =>
      (state.relays[index]?).all fun relay =>
        match relay.phase with
        | .own _ _ true => !relay.pending
        | _ => true
  | .demuxEnds tunnel =>
      (state.relays.all fun relay => !relay.phase.uses tunnel || !relay.pending) &&
        (state.muxes[tunnel]?).all MuxPumps.idle
  | _ => true

/-- What an attended run keeps: nothing is on its way on a path which nobody reads. -/
structure Attended (state : UdpFlows) : Prop where
  relays : ∀ relay ∈ state.relays, state.pathOpen relay.phase = false → relay.pending = false
  muxes : ∀ pumps ∈ state.muxes, pumps.reading = false → pumps.idle = true
  forwards : state.NeverHalfOpen

@[simp]
theorem pathOpen_withSender (state : UdpFlows) (sender : SenderPhase) (phase : FlowPhase) :
    state.pathOpen (phase.withSender sender) = state.pathOpen phase := by
  cases phase <;> rfl

theorem pathOpen_senderEnds {state : UdpFlows} {phase : FlowPhase}
    (closed : state.pathOpen phase.senderEnds = false) : state.pathOpen phase = false := by
  cases phase with
  | own path sender reading =>
      cases reading with
      | false => rfl
      | true => exact closed
  | mux tunnel sender => cases closed
  | _ => exact closed

/-- A return path is closed only by its own reader, or was closed when it was chosen. -/
theorem closed_of_step {state : UdpFlows} {relay : FlowRelay} {event : RelayEvent}
    (getMux : ∀ tunnel, event = .getMux tunnel → relay.phase = .setup →
      state.demuxReads tunnel = true)
    (closed : state.pathOpen (relay.step state.muxes event).phase = false) :
    state.pathOpen relay.phase = false ∨
      event = .upEnds ∧ ∃ path sender, relay.phase = .own path sender true := by
  cases event with
  | getMux tunnel =>
      simp only [FlowRelay.step] at closed
      split at closed
      · rename_i setup
        split at closed
        · simp [pathOpen, getMux tunnel rfl setup] at closed
        · exact .inl closed
      · exact .inl closed
  | upEnds =>
      cases phase_eq : relay.phase with
      | own path sender reading =>
          cases reading with
          | false => exact .inl rfl
          | true => exact .inr ⟨rfl, path, sender, rfl⟩
      | _ =>
          simp only [FlowRelay.step, phase_eq, FlowPhase.readerEnds] at closed
          exact .inl closed
  | recv more =>
      simp only [FlowRelay.step] at closed
      split at closed
      · rw [pathOpen_withSender] at closed
        exact .inl closed
      · exact .inl closed
  | sent ok =>
      simp only [FlowRelay.step] at closed
      split at closed
      · cases ok with
        | true =>
            simp only [if_true, pathOpen_withSender] at closed
            exact .inl closed
        | false => exact .inl (pathOpen_senderEnds closed)
      · exact .inl closed
  | idle =>
      simp only [FlowRelay.step] at closed
      split at closed
      · exact .inl (pathOpen_senderEnds closed)
      · exact .inl closed
  | register =>
      simp only [FlowRelay.step] at closed
      split at closed
      · rename_i phase_eq
        rw [phase_eq]
        exact .inl closed
      · exact .inl closed
  | startOwn path =>
      simp only [FlowRelay.step] at closed
      split at closed
      · cases closed
      · exact .inl closed
  | skip =>
      simp only [FlowRelay.step] at closed
      split at closed <;> exact .inl closed
  | giveUp | firstDownlinkTimeout | abort | dropGuard =>
      simp only [FlowRelay.step] at closed
      split at closed <;> first | exact .inl closed | cases closed

theorem not_pending_senderEnds (key : FlowKey) (queue : List (List UInt8)) {phase : FlowPhase}
    {sender : SenderPhase} (sends : phase.sender = some sender) :
    FlowRelay.pending ⟨key, queue, phase.senderEnds⟩ = false := by
  cases phase with
  | mux tunnel sender => rfl
  | own path sender reading => cases reading <;> rfl
  | _ => cases sends

theorem pending_sending {relay : FlowRelay} {batch : List (List UInt8)}
    (sends : relay.phase.sender = some (.sending batch)) : relay.pending = true := by
  rcases relay with ⟨key, queue, phase⟩
  cases phase with
  | mux tunnel sender | own path sender reading =>
      obtain rfl := Option.some.inj sends
      rfl
  | _ => cases sends

theorem pending_waiting {relay : FlowRelay} (waits : relay.phase.sender = some .waiting) :
    relay.pending = !relay.queue.isEmpty := by
  rcases relay with ⟨key, queue, phase⟩
  cases phase with
  | mux tunnel sender | own path sender reading =>
      obtain rfl := Option.some.inj waits
      rfl
  | _ => cases waits

theorem pending_readerEnds {key : FlowKey} {queue : List (List UInt8)} {phase : FlowPhase}
    (pending : FlowRelay.pending ⟨key, queue, phase.readerEnds⟩ = true) :
    FlowRelay.pending ⟨key, queue, phase⟩ = true := by
  cases phase with
  | own path sender reading =>
      cases sender with
      | ended => cases pending
      | waiting => exact pending
      | sending batch => rfl
  | _ => exact pending

/-- A relay has something on its way only from its channel. -/
theorem pending_of_step {muxes : List MuxPumps} {relay : FlowRelay} {event : RelayEvent}
    (pending : (relay.step muxes event).pending = true) : relay.pending = true := by
  cases event with
  | recv more =>
      simp only [FlowRelay.step] at pending
      split at pending
      · rename_i waits queue_eq
        rw [pending_waiting waits, queue_eq]
        rfl
      · exact pending
  | sent ok =>
      simp only [FlowRelay.step] at pending
      split at pending
      · rename_i sends
        exact pending_sending sends
      · exact pending
  | idle =>
      simp only [FlowRelay.step] at pending
      split at pending
      · rename_i waits _
        rw [not_pending_senderEnds _ _ waits] at pending
        cases pending
      · exact pending
  | upEnds => exact pending_readerEnds pending
  | skip =>
      have fewer : ∀ {queue : List (List UInt8)}, (!queue.tail.isEmpty) = true →
          (!queue.isEmpty) = true := by
        intro queue left
        cases queue with
        | nil => exact left
        | cons payload rest => rfl
      simp only [FlowRelay.step] at pending
      split at pending
      · rename_i phase_eq
        rw [pending_waiting (by rw [phase_eq]; rfl)]
        simp only [FlowRelay.pending, phase_eq] at pending
        exact fewer pending
      · rename_i phase_eq
        rw [pending_waiting (by rw [phase_eq]; rfl)]
        simp only [FlowRelay.pending, phase_eq] at pending
        exact fewer pending
      · exact pending
  | getMux tunnel =>
      simp only [FlowRelay.step] at pending
      split at pending
      · rename_i phase_eq
        split at pending <;> simpa only [FlowRelay.pending, phase_eq] using pending
      · exact pending
  | register | startOwn path =>
      simp only [FlowRelay.step] at pending
      split at pending
      · rename_i phase_eq
        simpa only [FlowRelay.pending, phase_eq] using pending
      · exact pending
  | giveUp | firstDownlinkTimeout | abort | dropGuard =>
      simp only [FlowRelay.step] at pending
      split at pending <;> first | exact pending | cases pending

/-- A step of an attended relay puts nothing on the way on a path which nobody reads. -/
theorem pending_step {state : UdpFlows} {relay : FlowRelay} {event : RelayEvent}
    (before : state.pathOpen relay.phase = false → relay.pending = false)
    (getMux : ∀ tunnel, event = .getMux tunnel → relay.phase = .setup →
      state.demuxReads tunnel = true)
    (upEnds : event = .upEnds → ∀ path sender, relay.phase = .own path sender true →
      relay.pending = false)
    (closed : state.pathOpen (relay.step state.muxes event).phase = false) :
    (relay.step state.muxes event).pending = false := by
  have idle : relay.pending = false := by
    rcases closed_of_step getMux closed with still | ⟨ends, path, sender, phase_eq⟩
    · exact before still
    · exact upEnds ends path sender phase_eq
  apply Bool.eq_false_of_not_eq_true
  intro pending
  exact Bool.false_ne_true (idle.symm.trans (pending_of_step pending))

/-- The same for an event which concerns no return path. -/
theorem pending_step_other {state : UdpFlows} {relay : FlowRelay} {event : RelayEvent}
    (before : state.pathOpen relay.phase = false → relay.pending = false)
    (getMux : ∀ tunnel, event ≠ .getMux tunnel) (upEnds : event ≠ .upEnds) :
    state.pathOpen (relay.step state.muxes event).phase = false →
      (relay.step state.muxes event).pending = false := by
  apply pending_step before
  · intro tunnel same
    exact absurd same (getMux tunnel)
  · intro same
    exact absurd same upEnds

/-- The pumps change, and every demux pump that runs goes on. -/
theorem pathOpen_of_reads {state next : UdpFlows} {phase : FlowPhase}
    (closed : next.pathOpen phase = false)
    (reads : ∀ tunnel, state.demuxReads tunnel = true → next.demuxReads tunnel = true) :
    state.pathOpen phase = false := by
  cases phase with
  | registering tunnel => exact eq_false_of_ne_true (mt (reads tunnel) (ne_true_of_eq_false closed))
  | mux tunnel sender => exact eq_false_of_ne_true (mt (reads tunnel) (ne_true_of_eq_false closed))
  | _ => exact closed

theorem demuxReads_set {state : UdpFlows} {tunnel : ℕ} {pumps new : MuxPumps} (other : ℕ)
    (found : state.muxes[tunnel]? = some pumps) (same : new.reading = pumps.reading) :
    ((state.muxes.set tunnel new)[other]?).any MuxPumps.reading = state.demuxReads other := by
  unfold demuxReads
  by_cases here : tunnel = other
  · subst here
    rw [List.getElem?_set_self (List.getElem?_eq_some_iff.mp found).1, found, Option.any_some,
      Option.any_some, same]
  · rw [List.getElem?_set_ne here]

theorem demuxReads_modify {state : UdpFlows} {tunnel : ℕ} {change : MuxPumps → MuxPumps}
    (other : ℕ) (same : ∀ pumps, (change pumps).reading = pumps.reading) :
    ((state.muxes.modify tunnel change)[other]?).any MuxPumps.reading = state.demuxReads other := by
  unfold demuxReads
  rw [List.getElem?_modify, Option.map_eq_map, Option.any_map]
  congr 1
  funext pumps
  split
  · exact same pumps
  · rfl

theorem Attended.set_relay {state : UdpFlows} {index : ℕ} {new : FlowRelay}
    {flows : List (FlowKey × ℕ)} (attended : state.Attended)
    (step : state.pathOpen new.phase = false → new.pending = false) :
    { state with flows := flows, relays := state.relays.set index new }.Attended := by
  constructor
  · intro relay there
    rcases List.mem_or_eq_of_mem_set there with before | rfl
    · exact attended.relays relay before
    · exact step
  · exact attended.muxes
  · exact attended.forwards

/-- The pumps of one tunnel change, but not its demux pump. -/
theorem Attended.set_pumps {state : UdpFlows} {tunnel : ℕ} {pumps new : MuxPumps}
    {forwards : List Forward} (attended : state.Attended)
    (found : state.muxes[tunnel]? = some pumps) (same : new.reading = pumps.reading)
    (idle : new.reading = false → new.idle = true)
    (read : ∀ forward ∈ forwards, forward.read = true) :
    { state with muxes := state.muxes.set tunnel new, forwards := forwards }.Attended := by
  constructor
  · intro relay there closed
    apply attended.relays relay there
    exact pathOpen_of_reads closed fun other reads => (demuxReads_set other found same).trans reads
  · intro other there
    rcases List.mem_or_eq_of_mem_set there with before | rfl
    · exact attended.muxes other before
    · exact idle
  · exact read

theorem Attended.modify_pumps {state : UdpFlows} {tunnel : ℕ} {change : MuxPumps → MuxPumps}
    (attended : state.Attended) (same : ∀ pumps, (change pumps).reading = pumps.reading)
    (idle : ∀ pumps, pumps.idle = true → (change pumps).idle = true) :
    { state with muxes := state.muxes.modify tunnel change }.Attended := by
  constructor
  · intro relay there closed
    apply attended.relays relay there
    exact pathOpen_of_reads closed fun other reads => (demuxReads_modify other same).trans reads
  · apply forall_mem_modify attended.muxes
    intro pumps _ before reading
    rw [same] at reading
    exact idle pumps (before reading)
  · exact attended.forwards

theorem idle_take {pumps : MuxPumps} (count : ℕ) (idle : pumps.idle = true) :
    (pumps.take count).idle = true := by
  simp only [MuxPumps.take]
  split
  · rename_i first rest _ _ uplink
    simp [MuxPumps.idle, uplink] at idle
  · exact idle

theorem take_reading (pumps : MuxPumps) (count : ℕ) :
    (pumps.take count).reading = pumps.reading := by
  simp only [MuxPumps.take]
  split <;> rfl

theorem idle_wrote {pumps : MuxPumps} (ok : Bool) (idle : pumps.idle = true) :
    (pumps.wrote ok).idle = true := by
  simp only [MuxPumps.wrote]
  split
  · simp only [MuxPumps.idle, Bool.and_eq_true] at idle ⊢
    exact ⟨idle.1, rfl⟩
  · exact idle

theorem wrote_reading (pumps : MuxPumps) (ok : Bool) :
    (pumps.wrote ok).reading = pumps.reading := by
  simp only [MuxPumps.wrote]
  split <;> rfl

theorem Attended.feed {state : UdpFlows} {key : FlowKey} {payload : List UInt8}
    (attended : state.Attended) (registered : state.Registered)
    (read : ∀ relay ∈ state.relays, relay.key = key → state.pathOpen relay.phase = true) :
    (state.feed key payload).Attended := by
  simp only [UdpFlows.feed]
  split
  · rename_i index hit
    rcases registered.relay key index (find?_flows_eq_some hit) with ⟨own, at_index, its_key, _⟩
    refine ⟨?_, attended.muxes, attended.forwards⟩
    apply forall_mem_modify attended.relays
    intro relay found _ closed
    obtain rfl : own = relay := Option.some.inj (at_index.symm.trans found)
    have unread : state.pathOpen own.phase = false := by
      rw [← own.trySend_phase payload]
      exact closed
    rw [read own (List.mem_of_getElem? found) its_key] at unread
    cases unread
  · split
    · refine ⟨?_, attended.muxes, attended.forwards⟩
      intro relay there
      rcases List.mem_append.mp there with before | new
      · exact attended.relays relay before
      · rw [List.mem_singleton] at new
        subst new
        intro closed
        cases closed
    · exact attended

/-- What is on the way goes where the return path is read. -/
theorem Attended.sent {state : UdpFlows} {index : ℕ} {relay : FlowRelay} (ok : Bool)
    (attended : state.Attended) (found : state.relays[index]? = some relay) :
    (state.sent index relay ok).Attended := by
  have before := attended.relays relay (List.mem_of_getElem? found)
  have stepped : ∀ ok, state.pathOpen (relay.step state.muxes (.sent ok)).phase = false →
      (relay.step state.muxes (.sent ok)).pending = false :=
    fun ok => pending_step_other before (by simp) (by simp)
  simp only [UdpFlows.sent]
  split
  · rename_i tunnel batch phase
    have reads : state.demuxReads tunnel = true := by
      by_contra unread
      have idle := before (by simpa [phase, pathOpen] using unread)
      simp [FlowRelay.pending, phase] at idle
    split
    · rename_i pumps there
      rw [demuxReads, there, Option.any_some] at reads
      split
      · exact attended.set_relay (stepped false)
      · split
        · refine Attended.set_pumps (attended.set_relay (stepped true)) there ?_ ?_ ?_
          · rfl
          · intro unread
            have unread : pumps.reading = false := unread
            rw [reads] at unread
            cases unread
          · intro forward logged
            rcases List.mem_append.mp logged with earlier | new
            · exact attended.forwards forward earlier
            · rcases List.mem_map.mp new with ⟨payload, _, rfl⟩
              exact reads
        · exact attended
    · exact attended
  · rename_i path batch reading phase
    have reads : reading = true := by
      by_contra unread
      have idle := before (by simpa [phase, pathOpen] using unread)
      simp [FlowRelay.pending, phase] at idle
    split
    · have after : { state with
          relays := state.relays.set index (relay.step state.muxes (.sent true)) }.Attended :=
        attended.set_relay (stepped true)
      refine ⟨after.relays, after.muxes, ?_⟩
      intro forward logged
      rcases List.mem_append.mp logged with earlier | new
      · exact attended.forwards forward earlier
      · rcases List.mem_map.mp new with ⟨payload, _, rfl⟩
        exact reads
    · exact attended.set_relay (stepped false)
  · exact attended

theorem Attended.demuxEnds {state : UdpFlows} {tunnel : ℕ} (attended : state.Attended)
    (guard : state.attended (.demuxEnds tunnel) = true) :
    (state.step (.demuxEnds tunnel)).Attended := by
  simp only [UdpFlows.attended, Bool.and_eq_true, List.all_eq_true, Bool.or_eq_true,
    Bool.not_eq_true'] at guard
  rcases guard with ⟨quiet, idle⟩
  have other_reads : ∀ other, other ≠ tunnel →
      (state.step (.demuxEnds tunnel)).demuxReads other = state.demuxReads other := by
    intro other different
    simp only [UdpFlows.step, demuxReads]
    rw [List.getElem?_modify_ne _ _ different.symm]
  constructor
  · intro relay there closed
    rcases quiet relay there with unused | done
    · apply attended.relays relay there
      -- the relay does not use the tunnel, and its path is what it was
      cases phase : relay.phase with
      | registering number =>
          rw [phase] at unused closed
          have different : number ≠ tunnel := by simpa [FlowPhase.uses] using unused
          exact (other_reads number different).symm.trans closed
      | mux number sender =>
          rw [phase] at unused closed
          have different : number ≠ tunnel := by simpa [FlowPhase.uses] using unused
          exact (other_reads number different).symm.trans closed
      | _ =>
          rw [phase] at closed
          exact closed
    · exact done
  · apply forall_mem_modify attended.muxes
    intro pumps found _ _
    rw [found, Option.all_some] at idle
    exact idle
  · exact attended.forwards

theorem Attended.step {state : UdpFlows} {event : FlowEvent} (registered : state.Registered)
    (attended : state.Attended) (guard : state.attended event = true) :
    (state.step event).Attended := by
  cases event with
  | feed key payload refused =>
      cases refused with
      | true => exact attended
      | false =>
          apply attended.feed registered
          intro relay there same
          simpa [UdpFlows.attended, same] using List.all_eq_true.mp guard relay there
  | relay index event =>
      simp only [UdpFlows.step]
      split
      case h_2 => exact attended
      rename_i relay found
      have before := attended.relays relay (List.mem_of_getElem? found)
      cases event with
      | sent ok => exact attended.sent ok found
      | dropGuard =>
          simp only [UdpFlows.stepRelay, UdpFlows.dropGuard]
          split
          · exact attended.set_relay (pending_step_other before (by simp) (by simp))
          · exact attended
      | getMux tunnel =>
          have reads : ∀ number, RelayEvent.getMux tunnel = .getMux number →
              relay.phase = .setup → state.demuxReads number = true := by
            intro number same phase
            obtain rfl : tunnel = number := RelayEvent.getMux.inj same
            simpa [UdpFlows.attended, found, phase] using guard
          refine attended.set_relay (pending_step before reads ?_)
          intro same
          cases same
      | upEnds =>
          have idle : RelayEvent.upEnds = .upEnds → ∀ path sender,
              relay.phase = .own path sender true → relay.pending = false := by
            intro _ path sender phase
            simpa [UdpFlows.attended, found, phase] using guard
          refine attended.set_relay (pending_step before ?_ idle)
          intro tunnel same
          cases same
      | _ => exact attended.set_relay (pending_step_other before (by simp) (by simp))
  | createMux =>
      constructor
      · intro relay there closed
        apply attended.relays relay there
        apply pathOpen_of_reads closed
        intro tunnel reads
        simp only [demuxReads] at reads ⊢
        cases found : state.muxes[tunnel]? with
        | none => simp [found] at reads
        | some pumps =>
            have inside := (List.getElem?_eq_some_iff.mp found).1
            simp only [UdpFlows.step, List.getElem?_append_left inside]
            exact reads
      · intro pumps there
        rcases List.mem_append.mp there with before | new
        · exact attended.muxes pumps before
        · rw [List.mem_singleton] at new
          subst new
          intro unread
          cases unread
      · exact attended.forwards
  | demuxEnds tunnel => exact attended.demuxEnds guard
  | demuxStores tunnel => exact attended.modify_pumps (fun _ => rfl) fun _ idle => idle
  | writerStores tunnel => exact attended.modify_pumps (fun _ => rfl) fun _ idle => idle
  | writerTakes tunnel count =>
      exact attended.modify_pumps (take_reading · count) fun _ => idle_take count
  | writerSends tunnel ok =>
      simp only [UdpFlows.step]
      split
      case h_2 => exact attended
      rename_i pumps found
      have idle := attended.muxes pumps (List.mem_of_getElem? found)
      apply attended.set_pumps found (wrote_reading pumps ok)
      · rw [wrote_reading]
        exact fun unread => idle_wrote ok (idle unread)
      · intro forward logged
        split at logged
        case isFalse => exact attended.forwards forward logged
        rcases List.mem_append.mp logged with earlier | new
        · exact attended.forwards forward earlier
        · rcases List.mem_map.mp new with ⟨frame, taken, rfl⟩
          by_contra unread
          have empty := idle (eq_false_of_ne_true unread)
          simp only [MuxPumps.idle, Bool.and_eq_true, List.isEmpty_iff] at empty
          rw [empty.2] at taken
          cases taken

/-- In an attended run no datagram goes out on a path whose return path nobody reads. -/
theorem neverHalfOpen_of_attended (events : List FlowEvent)
    (guarded : Along step (fun state event => state.attended event = true) start events) :
    Throughout step NeverHalfOpen start events := by
  have kept : ∀ {state : UdpFlows} {event}, state.Registered ∧ state.Attended →
      state.attended event = true →
      (state.step event).Registered ∧ (state.step event).Attended := by
    rintro state event ⟨registered, attended⟩ guard
    exact ⟨registered.step event, attended.step registered guard⟩
  exact throughout_of_along (fun state => state.Registered ∧ state.Attended)
    (fun invariant => invariant.2.forwards) kept guarded ⟨registered_start, nofun, nofun, nofun⟩

/-- A flow on a legacy tunnel and one on a mux tunnel, each with a reply, and both end. -/
theorem neverHalfOpen_of_attended_flows :
    Throughout step NeverHalfOpen start
      [.createMux, .feed ⟨.v4 0, 5000, .v4 1, 443⟩ [1] false,
        .feed ⟨.v4 0, 5001, .v4 1, 443⟩ [2] false, .relay 0 (.startOwn .legacy),
        .relay 1 (.getMux 0), .relay 0 (.recv 0), .relay 1 .register, .relay 0 (.sent true),
        .relay 1 (.recv 0), .relay 1 (.sent true), .writerTakes 0 4, .writerSends 0 true,
        .relay 0 .upEnds, .relay 0 .idle, .relay 0 .dropGuard, .demuxEnds 0, .relay 1 .idle,
        .relay 1 .dropGuard] :=
  neverHalfOpen_of_attended _ (by decide)

/-- The server stays silent, `up` ends after its timeout, and the client's next datagram is sent. -/
theorem not_neverHalfOpen_legacy :
    ¬ ∀ events, Throughout step NeverHalfOpen start events := by
  intro claimed
  let key : FlowKey := ⟨.v4 (ipv4 10 0 0 2), 5000, .v4 (ipv4 1 1 1 1), 5001⟩
  have good := (claimed [.feed key [1] false, .relay 0 (.startOwn .legacy), .relay 0 (.recv 0),
    .relay 0 (.sent true), .relay 0 .upEnds, .feed key [2] false, .relay 0 (.recv 0),
    .relay 0 (.sent true)]).run
  exact absurd (good ⟨0, [2], false⟩ (by decide)) (by decide)

/-- The demux pump of a mux tunnel ends, and the flow goes on using its writer. -/
example (payload : List UInt8) :
    ⟨0, payload, false⟩ ∈ (run step start
      [.createMux, .feed ⟨.v4 0, 5000, .v4 1, 443⟩ payload false, .relay 0 (.getMux 0),
        .relay 0 .register, .demuxEnds 0, .demuxStores 0, .relay 0 (.recv 0),
        .relay 0 (.sent true)]).forwards :=
  List.mem_singleton.mpr rfl

end UdpFlows

end Mirage.Tun
