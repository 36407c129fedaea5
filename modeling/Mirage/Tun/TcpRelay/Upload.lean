import Mirage.Tun.TcpRelay

/-!
# What an upstream connection carries

The first bytes of a client are read before the upstream connection is known,
and wait in `initialPayload`.  `Carries` says for each phase where the client's
stream stands: before the payload is handed over, the payload and the unread
bytes are the whole stream; in the relay loop the current connection has, after
its preamble, everything which is no longer unread.
-/

namespace Mirage.Tun

open Mirage.Foundations Mirage.Routing Mirage.Proxy

/-- What a read takes and what it leaves is what there was. -/
theorem TunTcpStream.pollRead_split {stream next : TunTcpStream} {room : ℕ} {bytes : List UInt8}
    (reads : stream.pollRead room = (some bytes, next)) :
    bytes ++ next.received = stream.received := by
  simp only [pollRead] at reads
  split at reads
  · simp only [Prod.mk.injEq, Option.some.injEq] at reads
    rcases reads with ⟨rfl, rfl⟩
    rfl
  · split at reads
    · simp only [Prod.mk.injEq, Option.some.injEq] at reads
      rcases reads with ⟨rfl, rfl⟩
      exact List.take_append_drop room stream.received
    · split at reads
      · simp only [Prod.mk.injEq, Option.some.injEq] at reads
        rcases reads with ⟨rfl, rfl⟩
        rfl
      · simp at reads

namespace TcpFlow

variable {sniffTcp : List UInt8 → Option String} {shared : Shared} {flow : TcpFlow}

/-- The payload and the unread bytes are the client's stream. -/
def Unsent (flow : TcpFlow) : Prop :=
  flow.initialPayload ++ flow.stream.received = flow.sent

/-- The current connection has its preamble and nothing else. -/
def Ready (flow : TcpFlow) : Prop :=
  flow.Unsent ∧ ∃ upstream older, flow.upstreams = upstream :: older ∧
    upstream.handed = upstream.via.preamble

/-- After its preamble the current connection has what is neither `pending` nor unread. -/
def Handed (flow : TcpFlow) (pending : List UInt8) : Prop :=
  ∃ upstream older, flow.upstreams = upstream :: older ∧
    upstream.handed ++ pending ++ flow.stream.received = upstream.via.preamble ++ flow.sent

/-- Where the stream of the client stands in a phase. -/
def Carries (flow : TcpFlow) : TcpPhase → Prop
  | .opened | .sniffing => flow.Unsent ∧ flow.upstreams = []
  | .routing | .directEntry _ | .lanLookup | .upstreamLookup | .dialing _ _ | .tunnelEntry _
  | .tunnelTag _ | .acquiring _ _ => flow.Unsent
  | .headerWrite _ _ =>
      flow.Unsent ∧ ∃ older, flow.upstreams = ⟨.tunnel flow.target, []⟩ :: older
  | .directInitial | .preRead | .initialWrite _ => flow.Ready
  | .relayRead => flow.Handed []
  | .relayWrite chunk => flow.Handed chunk
  | .ended => True

/-- Every connection has a part of its own preamble and of the stream, from their start. -/
def Faithful (flow : TcpFlow) : Prop :=
  ∀ upstream ∈ flow.upstreams, upstream.handed <+: upstream.via.preamble ++ flow.sent ∧
    ∀ target, upstream.via = .tunnel target → target = flow.target

structure Intact (flow : TcpFlow) : Prop where
  faithful : flow.Faithful
  carries : flow.Carries flow.phase

theorem Faithful.of_nil (fresh : flow.upstreams = []) : flow.Faithful := by
  intro upstream current
  simp [fresh] at current

theorem accepted_intact (dst : IpAddr) (dstPort : ℕ) : (accepted dst dstPort).Intact :=
  ⟨.of_nil rfl, rfl, rfl⟩

/-- Bytes which are read and kept with the payload stay in their place. -/
theorem Unsent.read (unsent : flow.Unsent) {next : TunTcpStream} {room : ℕ} {bytes : List UInt8}
    (reads : flow.stream.pollRead room = (some bytes, next)) :
    (flow.initialPayload ++ bytes) ++ next.received = flow.sent := by
  rw [List.append_assoc, TunTcpStream.pollRead_split reads]
  exact unsent

theorem Ready.handed (ready : flow.Ready) : flow.Handed flow.initialPayload := by
  rcases ready with ⟨unsent, upstream, older, current, preamble⟩
  refine ⟨upstream, older, current, ?_⟩
  rw [preamble, List.append_assoc, unsent]

section Routing

theorem Unsent.reverse (unsent : flow.Unsent) (fresh : flow.upstreams = []) :
    (flow.reverse shared).Intact := by
  refine ⟨.of_nil fresh, ?_⟩
  simp only [TcpFlow.reverse]
  split
  · exact ⟨unsent, fresh⟩
  · exact unsent

theorem Unsent.sniffed (unsent : flow.Unsent) (fresh : flow.upstreams = []) {next : TunTcpStream}
    {room : ℕ} {bytes : List UInt8} (reads : flow.stream.pollRead room = (some bytes, next)) :
    ({ flow with stream := next }.sniffed sniffTcp bytes).Intact := by
  have kept := unsent.read reads
  simp only [TcpFlow.sniffed]
  split
  · rename_i nothing
    subst nothing
    rw [List.append_nil] at kept
    exact ⟨.of_nil fresh, kept⟩
  · exact ⟨.of_nil fresh, kept⟩

variable (faithful : flow.Faithful) (unsent : flow.Unsent)

include faithful unsent

theorem Faithful.route : (flow.route shared).Intact := by
  simp only [TcpFlow.route]
  split
  · exact ⟨faithful, trivial⟩
  · exact ⟨faithful, unsent⟩
  · exact ⟨faithful, unsent⟩

theorem Faithful.dial (target : IpAddr) (isFake : Bool) :
    (flow.dial shared target isFake).Intact := by
  simp only [TcpFlow.dial]
  split
  · exact ⟨faithful, unsent⟩
  · exact ⟨faithful, unsent⟩

theorem Faithful.resolved (target : DirectTarget) : (flow.resolved shared target).Intact := by
  cases target with
  | ip target => exact faithful.dial unsent target true
  | routerIp target => exact faithful.dial unsent target true
  | fallbackProxy => exact ⟨faithful, unsent⟩
  | drop => exact ⟨faithful, trivial⟩

theorem Faithful.enterDirect (source : DecisionSource) :
    (flow.enterDirect shared source).Intact := by
  have read : (flow.readEngine shared).Faithful := faithful
  have read_unsent : (flow.readEngine shared).Unsent := unsent
  simp only [TcpFlow.enterDirect]
  split
  · split
    · split
      · exact read.resolved read_unsent _
      · exact ⟨faithful, unsent⟩
      · exact ⟨faithful, unsent⟩
    · exact ⟨faithful, trivial⟩
  · exact read.dial read_unsent _ _

theorem Faithful.dialFailed (closeOnFailure : Bool) :
    (flow.dialFailed closeOnFailure).Intact := by
  simp only [TcpFlow.dialFailed]
  split
  · exact ⟨faithful, trivial⟩
  · exact ⟨faithful, unsent⟩

theorem Faithful.nextAttempt (retry : Bool) (attempt : ℕ) :
    (flow.nextAttempt retry attempt).Intact := by
  refine ⟨faithful, ?_⟩
  simp only [TcpFlow.nextAttempt]
  split
  · exact unsent
  · trivial

end Routing

section Connecting

variable (faithful : flow.Faithful)

include faithful

/-- A new connection carries nothing yet. -/
theorem Faithful.connect {via : Via} (own : ∀ target, via = .tunnel target → target = flow.target)
    (phase : TcpPhase) :
    Faithful { flow with upstreams := ⟨via, []⟩ :: flow.upstreams, phase } := by
  intro upstream member
  rcases List.mem_cons.mp member with rfl | older
  · exact ⟨List.nil_prefix, own⟩
  · exact faithful upstream older

theorem Faithful.dialed (unsent : flow.Unsent) (target : IpAddr) :
    (flow.dialed target).Intact := by
  refine ⟨faithful.connect (by simp) _, ?_⟩
  simp only [TcpFlow.dialed]
  split
  · rename_i nothing
    refine ⟨_, _, rfl, ?_⟩
    simpa [Unsent, nothing, Via.preamble] using unsent
  · exact ⟨unsent, _, _, rfl, rfl⟩

theorem Faithful.acquired (unsent : flow.Unsent) (retry : Bool) (attempt : ℕ) :
    Intact
      { flow with
        upstreams := ⟨.tunnel flow.target, []⟩ :: flow.upstreams
        phase := .headerWrite retry attempt } := by
  refine ⟨faithful.connect ?_ _, unsent, _, rfl⟩
  intro target tunnel
  exact (Via.tunnel.inj tunnel).symm

theorem Faithful.sendInitial (ready : flow.Ready) : flow.sendInitial.Intact := by
  refine ⟨faithful, ?_⟩
  simp only [TcpFlow.sendInitial]
  split
  · rename_i nothing
    have handed := ready.handed
    rw [nothing] at handed
    exact handed
  · exact ready

theorem Faithful.tunnelReady (ready : flow.Ready) (retry : Bool) :
    (flow.tunnelReady retry).Intact := by
  simp only [TcpFlow.tunnelReady]
  split
  · exact ⟨faithful, ready⟩
  · split
    · exact ⟨faithful, ready⟩
    · exact faithful.sendInitial ready

end Connecting

section Writing

variable {bytes pending part : List UInt8}

@[simp]
theorem handOver_unsent : (flow.handOver bytes).Unsent ↔ flow.Unsent := by
  simp only [handOver]
  split <;> rfl

/-- Handing over what was pending leaves only the unread bytes. -/
theorem Handed.handOver (handed : flow.Handed pending) : (flow.handOver pending).Handed [] := by
  rcases handed with ⟨upstream, older, current, stream_eq⟩
  simp only [TcpFlow.handOver, current]
  refine ⟨_, _, rfl, ?_⟩
  simpa using stream_eq

/-- A complete preamble makes the current connection ready for the payload. -/
theorem Intact.headerWritten (intact : flow.Intact) {retry : Bool} {attempt : ℕ}
    (phase_eq : flow.phase = .headerWrite retry attempt) :
    (flow.handOver flow.target.targetHeader).Ready := by
  have carries := intact.carries
  rw [phase_eq] at carries
  rcases carries with ⟨unsent, older, current⟩
  simp only [TcpFlow.handOver, current]
  exact ⟨unsent, _, _, rfl, rfl⟩

/-- Only the current connection changes when bytes are handed over. -/
theorem Faithful.handOver (faithful : flow.Faithful)
    (continues : ∀ upstream older, flow.upstreams = upstream :: older →
      upstream.handed ++ part <+: upstream.via.preamble ++ flow.sent) :
    (flow.handOver part).Faithful := by
  cases upstreams_eq : flow.upstreams with
  | nil =>
      simp only [TcpFlow.handOver, upstreams_eq]
      exact faithful
  | cons current older =>
      simp only [TcpFlow.handOver, upstreams_eq]
      intro upstream member
      rcases List.mem_cons.mp member with rfl | earlier
      · exact ⟨continues current older upstreams_eq, (faithful current (by simp [upstreams_eq])).2⟩
      · exact faithful upstream (by simp [upstreams_eq, earlier])

/-- A part of what is pending continues the stream. -/
theorem Handed.continues (handed : flow.Handed pending) (delivered : part <+: pending)
    {upstream : Upstream} {older : List Upstream} (current : flow.upstreams = upstream :: older) :
    upstream.handed ++ part <+: upstream.via.preamble ++ flow.sent := by
  rcases handed with ⟨first, rest, upstreams_eq, stream_eq⟩
  rw [current] at upstreams_eq
  rcases List.cons.inj upstreams_eq with ⟨rfl, rfl⟩
  rcases delivered with ⟨missing, rfl⟩
  refine ⟨missing ++ flow.stream.received, ?_⟩
  simpa using stream_eq

/-- However much of the pending write is delivered, every connection stays faithful. -/
theorem Intact.partly (intact : flow.Intact) (delivered : part <+: flow.outgoing) :
    (flow.handOver part).Faithful := by
  apply intact.faithful.handOver
  intro upstream older current
  have carries := intact.carries
  cases phase_eq : flow.phase with
  | headerWrite retry attempt =>
      rw [phase_eq] at carries
      rcases carries with ⟨unsent, rest, fresh⟩
      rw [current] at fresh
      rcases List.cons.inj fresh with ⟨rfl, rfl⟩
      simp only [outgoing, phase_eq] at delivered
      exact delivered.trans (List.prefix_append _ _)
  | directInitial | initialWrite retry =>
      rw [phase_eq] at carries
      simp only [outgoing, phase_eq] at delivered
      exact (Ready.handed carries).continues delivered current
  | relayWrite chunk =>
      rw [phase_eq] at carries
      simp only [outgoing, phase_eq] at delivered
      exact Handed.continues carries delivered current
  | _ =>
      simp only [outgoing, phase_eq, List.prefix_nil] at delivered
      subst delivered
      rw [List.append_nil]
      exact (intact.faithful upstream (by simp [current])).1

theorem handOver_nil (flow : TcpFlow) : flow.handOver [] = flow := by
  cases upstreams_eq : flow.upstreams with
  | nil => simp [TcpFlow.handOver, upstreams_eq]
  | cons current older =>
      simp only [TcpFlow.handOver, upstreams_eq, List.append_nil]
      rw [← upstreams_eq]

theorem Intact.written (intact : flow.Intact) :
    (flow.handOver flow.outgoing).afterWrite.Intact := by
  have faithful := intact.partly List.prefix_rfl
  have carries := intact.carries
  cases phase_eq : flow.phase with
  | headerWrite retry attempt =>
      have ready := intact.headerWritten phase_eq
      simp only [afterWrite, handOver_phase, outgoing, phase_eq] at faithful ⊢
      exact faithful.tunnelReady ready retry
  | directInitial | initialWrite retry =>
      rw [phase_eq] at carries
      simp only [afterWrite, handOver_phase, outgoing, phase_eq] at faithful ⊢
      exact ⟨faithful, (Ready.handed carries).handOver⟩
  | relayWrite chunk =>
      rw [phase_eq] at carries
      simp only [afterWrite, handOver_phase, outgoing, phase_eq] at faithful ⊢
      exact ⟨faithful, Handed.handOver carries⟩
  | _ =>
      simp only [afterWrite, handOver_nil, outgoing, phase_eq]
      exact intact

theorem Intact.writeFailed (intact : flow.Intact) (count : ℕ) :
    (flow.handOver (flow.outgoing.take count)).afterFailure.Intact := by
  have faithful := intact.partly (List.take_prefix count flow.outgoing)
  have carries := intact.carries
  cases phase_eq : flow.phase with
  | headerWrite retry attempt =>
      rw [phase_eq] at carries
      simp only [afterFailure, handOver_phase, phase_eq]
      exact faithful.nextAttempt (handOver_unsent.mpr carries.1) retry attempt
  | initialWrite retry =>
      rw [phase_eq] at carries
      simp only [afterFailure, handOver_phase, phase_eq]
      cases retry with
      | false => exact ⟨faithful, handOver_unsent.mpr carries.1⟩
      | true => exact ⟨faithful, trivial⟩
  | directInitial | relayWrite chunk =>
      simp only [afterFailure, handOver_phase, phase_eq]
      exact ⟨faithful, trivial⟩
  | _ =>
      simp only [afterFailure, handOver_nil, outgoing, phase_eq, List.take_nil]
      exact intact

end Writing

/-- What arrives is unread at first. -/
theorem Intact.arrive (intact : flow.Intact) (bytes : List UInt8) :
    Intact
      { flow with
        sent := flow.sent ++ bytes
        stream := { flow.stream with received := flow.stream.received ++ bytes } } := by
  have unsent : flow.Unsent → Unsent
      { flow with
        sent := flow.sent ++ bytes
        stream := { flow.stream with received := flow.stream.received ++ bytes } } := by
    intro unsent
    simp only [Unsent, ← List.append_assoc]
    rw [show flow.initialPayload ++ flow.stream.received = flow.sent from unsent]
  have handed : ∀ {pending}, flow.Handed pending → Handed
      { flow with
        sent := flow.sent ++ bytes
        stream := { flow.stream with received := flow.stream.received ++ bytes } } pending := by
    rintro pending ⟨upstream, older, current, stream_eq⟩
    refine ⟨upstream, older, current, ?_⟩
    simp only [← List.append_assoc]
    rw [stream_eq]
  have carries := intact.carries
  refine ⟨?_, ?_⟩
  · intro upstream member
    rcases intact.faithful upstream member with ⟨carried, own⟩
    refine ⟨carried.trans ?_, own⟩
    rw [← List.append_assoc]
    exact List.prefix_append _ _
  · change Carries _ flow.phase
    cases phase_eq : flow.phase with
    | opened | sniffing | headerWrite retry attempt | directInitial | preRead
    | initialWrite retry =>
        rw [phase_eq] at carries
        exact ⟨unsent carries.1, carries.2⟩
    | relayRead | relayWrite chunk =>
        rw [phase_eq] at carries
        exact handed carries
    | ended => trivial
    | _ =>
        rw [phase_eq] at carries
        exact unsent carries

theorem Intact.proceed (intact : flow.Intact) : (flow.proceed sniffTcp shared).Intact := by
  have carries := intact.carries
  simp only [TcpFlow.proceed]
  cases phase_eq : flow.phase with
  | opened =>
      rw [phase_eq] at carries
      exact carries.1.reverse carries.2
  | sniffing =>
      rw [phase_eq] at carries
      rcases reads : flow.stream.pollRead 2048 with ⟨_ | bytes, next⟩
      · exact intact
      · exact carries.1.sniffed carries.2 reads
  | routing =>
      rw [phase_eq] at carries
      exact intact.faithful.route carries
  | directEntry source =>
      rw [phase_eq] at carries
      exact intact.faithful.enterDirect carries source
  | tunnelEntry retry | tunnelTag retry =>
      rw [phase_eq] at carries
      exact ⟨intact.faithful, carries⟩
  | preRead =>
      rw [phase_eq] at carries
      rcases reads : flow.stream.pollRead 16384 with ⟨_ | bytes, next⟩
      · exact intact
      · exact Faithful.sendInitial intact.faithful ⟨carries.1.read reads, carries.2⟩
  | relayRead =>
      rw [phase_eq] at carries
      rcases reads : flow.stream.pollRead 65536 with ⟨_ | _ | ⟨byte, bytes⟩, next⟩
      · exact intact
      · exact ⟨intact.faithful, trivial⟩
      · rcases carries with ⟨upstream, older, current, stream_eq⟩
        refine ⟨intact.faithful, upstream, older, current, ?_⟩
        rw [← stream_eq, ← TunTcpStream.pollRead_split reads]
        simp
  | _ => exact intact

/-- Every step keeps the stream in its place. -/
theorem Intact.step (intact : flow.Intact) (event : TcpEvent) :
    (flow.step sniffTcp shared event).Intact := by
  have carries := intact.carries
  cases event with
  | arrive bytes =>
      simp only [TcpFlow.step]
      split
      · exact intact
      · exact intact.arrive bytes
  | finish | remove => exact ⟨intact.faithful, intact.carries⟩
  | proceed => exact intact.proceed
  | timeout active =>
      simp only [TcpFlow.step, TcpFlow.timeout]
      split <;> rename_i phase_eq
      · rw [phase_eq] at carries
        exact ⟨intact.faithful, carries.1⟩
      · rw [phase_eq] at carries
        exact intact.faithful.dialFailed carries _
      · rw [phase_eq] at carries
        exact intact.faithful.sendInitial carries
      · split
        · exact intact
        · exact ⟨intact.faithful, trivial⟩
      · exact intact
  | lanAnswer answer | upstreamAnswer answer =>
      simp only [TcpFlow.step]
      split <;> rename_i phase_eq
      · rw [phase_eq] at carries
        exact intact.faithful.resolved carries _
      · exact intact
  | connected =>
      simp only [TcpFlow.step]
      split <;> rename_i phase_eq
      · rw [phase_eq] at carries
        exact intact.faithful.dialed carries _
      · exact intact
  | connectFailed =>
      simp only [TcpFlow.step]
      split <;> rename_i phase_eq
      · rw [phase_eq] at carries
        exact intact.faithful.dialFailed carries _
      · exact intact
  | tunnel available =>
      simp only [TcpFlow.step]
      split <;> rename_i phase_eq
      · rw [phase_eq] at carries
        split
        · exact intact.faithful.acquired carries _ _
        · exact intact.faithful.nextAttempt carries _ _
      · exact intact
  | written => exact intact.written
  | writeFailed count => exact intact.writeFailed count
  | stop count => exact ⟨intact.partly (List.take_prefix count flow.outgoing), trivial⟩

/--
However the bytes of the client arrive, and whatever fails, every upstream
connection has been handed a part of its own target header and of the client's
stream, in order and from their start; and when the relay loop waits for more,
the connection it relays has all of them but those which are still unread.
-/
theorem upload_integrity (sniffTcp : List UInt8 → Option String) (dst : IpAddr) (dstPort : ℕ)
    (events : List (Shared × TcpEvent)) :
    let flow := run (fun flow event => step sniffTcp event.1 flow event.2) (accepted dst dstPort)
      events
    (∀ upstream ∈ flow.upstreams, upstream.handed <+: upstream.via.preamble ++ flow.sent ∧
        ∀ target, upstream.via = .tunnel target → target = flow.target) ∧
      (flow.phase = .relayRead → ∃ upstream older, flow.upstreams = upstream :: older ∧
        upstream.handed ++ flow.stream.received = upstream.via.preamble ++ flow.sent) := by
  intro flow
  have intact : flow.Intact :=
    run_invariant events (fun event intact => intact.step event.2) (accepted_intact dst dstPort)
  refine ⟨intact.faithful, ?_⟩
  intro phase_eq
  have carries := intact.carries
  rw [phase_eq] at carries
  rcases carries with ⟨upstream, older, current, stream_eq⟩
  refine ⟨upstream, older, current, ?_⟩
  simpa using stream_eq

end TcpFlow

end Mirage.Tun
