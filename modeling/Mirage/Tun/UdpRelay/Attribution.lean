import Mirage.Foundations.Run
import Mirage.Proxy.UdpMux
import Mirage.Tun.Datagrams.Layout
import Mirage.Tun.LegacyFrames.Encoding

/-!
# Whom a reply is attributed to

The three return paths of a flow build the source of a reply from the key of the flow, so
that the client takes it for an answer of the address it has asked.  Frames of a tunnel name
where their payload comes from, and a datagram comes from somewhere; neither is looked at, and
the direct socket is not connected.
-/

namespace Mirage.Tun

open Mirage.Foundations Mirage.Proxy

namespace FlowKey

/-- `SocketAddr::new(key.dst, key.dst_port)` -/
def replySrc (key : FlowKey) : SocketAddr :=
  ⟨key.dst, UInt16.ofNat key.dstPort⟩

/-- `SocketAddr::new(key.src, key.src_port)` -/
def replyDst (key : FlowKey) : SocketAddr :=
  ⟨key.src, UInt16.ofNat key.srcPort⟩

/-- The addresses are of one family, as those of a packet are. -/
def OneFamily (key : FlowKey) : Prop :=
  match key.dst, key.src with
  | .v4 _, .v4 _ | .v6 _, .v6 _ => True
  | _, _ => False

end FlowKey

/-- Who has sent a payload: as the socket tells, or as its frame says. -/
inductive Sender where
  | socket (addr : SocketAddr)
  | frame (destination : Destination) (port : UInt16)
  | unnamed
  deriving DecidableEq

/-- What a frame of the way back says of its sender -/
def frameSender (body : List UInt8) : Sender :=
  match readDestination body with
  | some (destination, rest) =>
      if rest.length < 2 then .unnamed
      else .frame destination (UInt16.ofNat (ofBigEndian (rest.take 2)))
  | none => .unnamed

structure Received where
  sender : Sender
  payload : List UInt8
  deriving DecidableEq

/-- A packet which was written to the device -/
structure ReplyPacket where
  src : SocketAddr
  dst : SocketAddr
  payload : List UInt8
  bytes : List UInt8
  built : buildReplyIp src dst payload = .done bytes
  /-- What it was built for -/
  origin : Received

/-- `build_reply_ip` with the addresses of the flow -/
def replyPacket (key : FlowKey) (item : Received) : Option ReplyPacket :=
  match built : buildReplyIp key.replySrc key.replyDst item.payload with
  | .done bytes => some ⟨key.replySrc, key.replyDst, item.payload, bytes, built, item⟩
  | .refused | .panicked => none

/-- A task which reads a return path -/
structure ReturnPath where
  /-- What was read from a tunnel and not parsed yet -/
  acc : List UInt8
  /-- The flows by their session ids, if the tunnel is shared -/
  flows : FiniteMap UInt32 FlowKey
  reading : Bool
  received : List Received
  written : List ReplyPacket

inductive DirectRead where
  | recvFrom (addr : SocketAddr) (payload : List UInt8)
  /-- A timeout, an error or an abort -/
  | ends

inductive StreamRead where
  | recvData (chunk : List UInt8)
  /-- A turn of the loop over the frames -/
  | parse
  | ends

inductive DemuxRead where
  | stream (read : StreamRead)
  | register (sid : UInt32) (key : FlowKey)
  | unregister (sid : UInt32)

namespace ReturnPath

def start : ReturnPath :=
  ⟨[], ∅, true, [], []⟩

def take (path : ReturnPath) (item : Received) : ReturnPath :=
  { path with received := path.received ++ [item] }

def deliver (path : ReturnPath) (key : FlowKey) (item : Received) : ReturnPath :=
  { path.take item with written := path.written ++ (replyPacket key item).toList }

/-- `acc.drain(..consumed)` -/
def drain (path : ReturnPath) (consumed : ℕ) : ReturnPath :=
  { path with acc := path.acc.drop consumed }

/-- A frame was parsed; the flow of a shared tunnel may be gone. -/
def handOver (path : ReturnPath) (flow : Option FlowKey) (item : Received) : ReturnPath :=
  if item.payload = [] then path.take item
  else
    match flow with
    | some key => path.deliver key item
    | none => path.take item

/-- The half `up` of `udp_flow_direct` -/
def directStep (key : FlowKey) (path : ReturnPath) : DirectRead → ReturnPath
  | .recvFrom addr payload =>
      if path.reading then path.deliver key ⟨.socket addr, payload⟩ else path
  | .ends => { path with reading := false }

/-- The half `up` of a flow with a tunnel of its own -/
def legacyStep (key : FlowKey) (path : ReturnPath) : StreamRead → ReturnPath
  | .recvData chunk =>
      if path.reading ∧ parseUdpFramePayload path.acc = none then
        { path with acc := path.acc ++ chunk }
      else path
  | .parse =>
      match parseUdpFramePayload path.acc with
      | some (payload, consumed) =>
          let item : Received := ⟨frameSender ((path.acc.take consumed).drop 2), payload⟩
          (path.drain consumed).handOver (some key) item
      | none => path
  | .ends =>
      if parseUdpFramePayload path.acc = none then { path with reading := false } else path

/-- The demux pump; the tasks of the flows register and unregister them in between. -/
def demuxStep (path : ReturnPath) : DemuxRead → ReturnPath
  | .stream (.recvData chunk) =>
      if path.reading ∧ parseMuxFrame path.acc = none ∧ path.acc.length ≤ 65536 * 2 then
        { path with acc := path.acc ++ chunk }
      else path
  | .stream .parse =>
      match parseMuxFrame path.acc with
      | some (sid, payload, consumed) =>
          let item : Received := ⟨frameSender ((path.acc.take consumed).drop (2 + 4)), payload⟩
          (path.drain consumed).handOver (path.flows.lookup sid) item
      | none => path
  | .stream .ends =>
      if parseMuxFrame path.acc = none then { path with reading := false } else path
  | .register sid key => { path with flows := path.flows.insert sid key }
  | .unregister sid => { path with flows := path.flows.erase sid }

end ReturnPath

section Frames

variable {body payload : List UInt8}

theorem frameSender_of_readDestination {destination : Destination} {rest : List UInt8}
    (read : readDestination body = some (destination, rest)) (port : 2 ≤ rest.length) :
    frameSender body = .frame destination (UInt16.ofNat (ofBigEndian (rest.take 2))) := by
  simp only [frameSender, read, if_neg (Nat.not_lt.mpr port)]

/-- An address and a port of which the parsers skip the size -/
theorem frameSender_ne_unnamed {atyp : UInt8} {rest : List UInt8} {size : ℕ}
    (kind : atyp = 1 ∧ size = 4 ∨ atyp = 4 ∧ size = 16 ∨
      atyp = 3 ∧ ∃ dlen name, rest = dlen :: name ∧ size = 1 + dlen.toNat)
    (behind : size + 2 ≤ rest.length) : frameSender (atyp :: rest) ≠ .unnamed := by
  have named : ∃ destination, readDestination (atyp :: rest) =
      some (destination, rest.drop size) := by
    rcases kind with ⟨rfl, rfl⟩ | ⟨rfl, rfl⟩ | ⟨rfl, dlen, name, rfl, rfl⟩
    · refine ⟨.ip (.v4 (BitVec.ofNat 32 (ofBigEndian (rest.take 4)))), ?_⟩
      simp only [readDestination]
      rw [if_pos trivial, if_neg (by omega)]
    · refine ⟨.ip (.v6 (BitVec.ofNat 128 (ofBigEndian (rest.take 16)))), ?_⟩
      simp only [readDestination]
      rw [if_neg (by decide), if_pos trivial, if_neg (by omega)]
    · refine ⟨.domain (name.take dlen.toNat), ?_⟩
      rw [List.length_cons] at behind
      simp only [readDestination]
      rw [if_neg (by decide), if_neg (by decide), if_pos trivial, if_neg (by omega),
        Nat.add_comm, List.drop_succ_cons]
  rcases named with ⟨destination, read⟩
  rw [frameSender_of_readDestination read (by rw [List.length_drop]; omega)]
  exact Sender.noConfusion

/-- The parser of the legacy frames takes a payload from behind a sender only. -/
theorem named_of_parseUdpFrameBody (parsed : parseUdpFrameBody body = some payload)
    (nonempty : payload ≠ []) : frameSender body ≠ .unnamed := by
  have behind : ∀ off, (if body.length < off then some [] else some (body.drop off)) =
      some payload → off ≤ body.length := by
    intro off found
    split at found
    · cases found
      exact absurd rfl nonempty
    · omega
  rcases body with _ | ⟨atyp, rest⟩
  · cases parsed
    exact absurd rfl nonempty
  · simp only [parseUdpFrameBody] at parsed
    simp only [List.length_cons] at behind parsed
    split at parsed
    next domain =>
      rcases Option.bind_eq_some_iff.mp parsed with ⟨dlen, length_eq, found⟩
      have room := behind _ found
      rcases rest with _ | ⟨first, name⟩
      · cases length_eq
      · cases length_eq
        exact frameSender_ne_unnamed (.inr (.inr ⟨domain, dlen, name, rfl, rfl⟩)) (by omega)
    next =>
      split at parsed
      next v4 =>
        have room := behind _ parsed
        exact frameSender_ne_unnamed (.inl ⟨v4, rfl⟩) (by omega)
      next =>
        split at parsed
        next v6 =>
          have room := behind _ parsed
          exact frameSender_ne_unnamed (.inr (.inl ⟨v6, rfl⟩)) (by omega)
        next =>
          cases parsed
          exact absurd rfl nonempty

/-- So does the parser of the shared tunnels. -/
theorem named_of_parseMuxBody {sid : UInt32} (parsed : parseMuxBody body = (sid, payload))
    (nonempty : payload ≠ []) : frameSender (body.drop 4) ≠ .unnamed := by
  have empty : ∀ {given : UInt32}, (given, []) = (sid, payload) → False := by
    intro given same
    cases same
    exact nonempty rfl
  simp only [parseMuxBody] at parsed
  split at parsed
  · exact absurd parsed empty
  · generalize body.drop 4 = inner at *
    cases offset : portOffset inner with
    | none =>
        rw [offset] at parsed
        exact absurd parsed empty
    | some off =>
        rw [offset] at parsed
        dsimp only at parsed
        split at parsed
        · exact absurd parsed empty
        · rename_i room
          rcases inner with _ | ⟨atyp, rest⟩
          · cases offset
          · rw [List.length_cons] at room
            simp only [portOffset] at offset
            split at offset
            next v4 =>
              cases offset
              exact frameSender_ne_unnamed (.inl ⟨v4, rfl⟩) (by omega)
            next =>
              split at offset
              next v6 =>
                cases offset
                exact frameSender_ne_unnamed (.inr (.inl ⟨v6, rfl⟩)) (by omega)
              next =>
                split at offset
                next domain =>
                  rcases rest with _ | ⟨first, name⟩
                  · cases offset
                  · cases offset
                    exact frameSender_ne_unnamed (.inr (.inr ⟨domain, first, name, rfl, rfl⟩))
                      (by omega)
                next => cases offset

variable {acc : List UInt8} {consumed : ℕ}

theorem named_of_parseUdpFramePayload
    (parsed : parseUdpFramePayload acc = some (payload, consumed)) (nonempty : payload ≠ []) :
    frameSender ((acc.take consumed).drop 2) ≠ .unnamed := by
  by_cases complete : Complete acc
  · rw [parseUdpFramePayload_of_complete complete] at parsed
    rcases Option.map_eq_some_iff.mp parsed with ⟨found, body_parsed, same⟩
    cases same
    rw [List.drop_take, Nat.add_sub_cancel_left]
    exact named_of_parseUdpFrameBody body_parsed nonempty
  · rw [parseUdpFramePayload_of_incomplete complete] at parsed
    cases parsed

theorem named_of_parseMuxFrame {sid : UInt32}
    (parsed : parseMuxFrame acc = some (sid, payload, consumed)) (nonempty : payload ≠ []) :
    frameSender ((acc.take consumed).drop (2 + 4)) ≠ .unnamed := by
  have complete := complete_of_parsed parsed
  rw [parseMuxFrame_of_complete complete] at parsed
  cases parsed
  rw [← List.drop_drop, List.drop_take, Nat.add_sub_cancel_left]
  exact named_of_parseMuxBody rfl nonempty

end Frames

/-! ## Attribution -/

variable {key : FlowKey} {item : Received} {packet : ReplyPacket}

/-- A packet is built unless the families are mixed. -/
theorem replyPacket_isSome_iff : (replyPacket key item).isSome = true ↔ key.OneFamily := by
  have built : (replyPacket key item).isSome = true ↔
      ∃ bytes, buildReplyIp key.replySrc key.replyDst item.payload = .done bytes := by
    unfold replyPacket
    split
    · rename_i bytes done
      exact iff_of_true rfl ⟨bytes, done⟩
    · rename_i refused
      simp [refused]
    · rename_i panicked
      simp [panicked]
  rw [built]
  rcases key with ⟨src | src, srcPort, dst | dst, dstPort⟩
  · exact iff_of_true ⟨_, buildIpv4Udp_eq _ _ _ _ _⟩ trivial
  · exact iff_of_false nofun id
  · exact iff_of_false nofun id
  · exact iff_of_true ⟨_, buildIpv6Udp_eq _ _ _ _ _⟩ trivial

theorem replyPacket_origin (made : replyPacket key item = some packet) :
    packet.src = key.replySrc ∧ packet.payload = item.payload ∧ packet.origin = item := by
  unfold replyPacket at made
  split at made
  · cases made
    exact ⟨rfl, rfl, rfl⟩
  · cases made
  · cases made

namespace ReturnPath

variable {path : ReturnPath} {address : SocketAddr} {target : Sender → Prop}

/-- What a packet with the address of the target as its source carries was sent by the target. -/
def Attributed (address : SocketAddr) (target : Sender → Prop) (path : ReturnPath) : Prop :=
  ∀ packet ∈ path.written, packet.src = address →
    packet.origin ∈ path.received ∧ packet.payload = packet.origin.payload ∧
      target packet.origin.sender

/-- Packets carry what was received. -/
def Rebuilt (path : ReturnPath) : Prop :=
  ∀ packet ∈ path.written, packet.origin ∈ path.received ∧ packet.payload = packet.origin.payload

/-- An item for which a packet with the address of the target is built is from the target. -/
def Genuine (address : SocketAddr) (target : Sender → Prop) (key : FlowKey) (item : Received) :
    Prop :=
  key.replySrc = address → key.OneFamily → target item.sender

theorem Rebuilt.attributed_iff (rebuilt : path.Rebuilt) :
    path.Attributed address target ↔
      ∀ packet ∈ path.written, packet.src = address → target packet.origin.sender := by
  apply forall₂_congr
  intro packet member
  apply imp_congr_right
  intro _
  rw [← and_assoc, and_iff_right (rebuilt packet member)]

theorem Rebuilt.take (rebuilt : path.Rebuilt) (item : Received) : (path.take item).Rebuilt := by
  intro packet member
  rcases rebuilt packet member with ⟨received, same⟩
  exact ⟨List.mem_append_left _ received, same⟩

theorem Rebuilt.deliver (rebuilt : path.Rebuilt) (key : FlowKey) (item : Received) :
    (path.deliver key item).Rebuilt := by
  intro packet member
  rcases List.mem_append.mp member with old | new
  · exact rebuilt.take item packet old
  · rw [Option.mem_toList] at new
    rcases replyPacket_origin new with ⟨-, payload, rfl⟩
    exact ⟨List.mem_append_right _ (List.mem_singleton_self _), payload⟩

theorem Rebuilt.attributed_take_iff (rebuilt : path.Rebuilt) (item : Received) :
    (path.take item).Attributed address target ↔ path.Attributed address target := by
  rw [(rebuilt.take item).attributed_iff, rebuilt.attributed_iff]
  exact Iff.rfl

/-- One more item is handed to a flow. -/
theorem Rebuilt.attributed_deliver_iff (rebuilt : path.Rebuilt) (key : FlowKey)
    (item : Received) :
    (path.deliver key item).Attributed address target ↔
      path.Attributed address target ∧ Genuine address target key item := by
  rw [(rebuilt.deliver key item).attributed_iff, rebuilt.attributed_iff]
  simp only [ReturnPath.deliver, List.forall_mem_append]
  apply and_congr_right
  intro _
  cases made : replyPacket key item with
  | none =>
      have mixed : ¬key.OneFamily := by
        rw [← @replyPacket_isSome_iff key item, made]
        exact Bool.false_ne_true
      exact iff_of_true nofun fun _ family => absurd family mixed
  | some packet =>
      have family : key.OneFamily := by
        rw [← @replyPacket_isSome_iff key item, made]
        rfl
      rcases replyPacket_origin made with ⟨src, -, origin⟩
      simp only [Option.toList_some, List.forall_mem_singleton, Genuine, src, origin, family,
        forall_const]

theorem Rebuilt.handOver (rebuilt : path.Rebuilt) (flow : Option FlowKey) (item : Received) :
    (path.handOver flow item).Rebuilt := by
  simp only [ReturnPath.handOver]
  split
  · exact rebuilt.take item
  · split
    · exact rebuilt.deliver _ item
    · exact rebuilt.take item

/-- A frame is handed over; one without a payload, or of no flow, does no harm. -/
theorem Rebuilt.attributed_handOver_iff (rebuilt : path.Rebuilt) (flow : Option FlowKey)
    (item : Received) :
    (path.handOver flow item).Attributed address target ↔
      path.Attributed address target ∧
        (item.payload ≠ [] → ∀ key, flow = some key → Genuine address target key item) := by
  simp only [ReturnPath.handOver]
  split
  · rename_i empty
    rw [rebuilt.attributed_take_iff]
    exact (and_iff_left fun nonempty => absurd empty nonempty).symm
  · rename_i nonempty
    cases flow with
    | none =>
        rw [rebuilt.attributed_take_iff]
        exact (and_iff_left fun _ _ same => nomatch same).symm
    | some key =>
        rw [rebuilt.attributed_deliver_iff, forall_prop_of_true nonempty]
        simp only [Option.some.injEq, forall_eq']

/-- The buffer, the map and the end of the reads make no difference. -/
theorem attributed_congr {other : ReturnPath} (received : other.received = path.received)
    (written : other.written = path.written) :
    other.Attributed address target ↔ path.Attributed address target := by
  rw [Attributed, Attributed, received, written]

theorem Rebuilt.congr {other : ReturnPath} (rebuilt : path.Rebuilt)
    (received : other.received = path.received) (written : other.written = path.written) :
    other.Rebuilt := by
  rw [Rebuilt, received, written]
  exact rebuilt

theorem Rebuilt.drain (rebuilt : path.Rebuilt) (consumed : ℕ) : (path.drain consumed).Rebuilt :=
  rebuilt.congr rfl rfl

theorem rebuilt_start : start.Rebuilt :=
  fun _ member => nomatch member

theorem attributed_start : start.Attributed address target :=
  fun _ member => nomatch member

/-! ### The direct socket -/

/-- A datagram which the flow still takes is from the target. -/
def DirectGenuine (address : SocketAddr) (target : Sender → Prop) (key : FlowKey)
    (path : ReturnPath) : DirectRead → Prop
  | .recvFrom addr payload =>
      path.reading = true → Genuine address target key ⟨.socket addr, payload⟩
  | .ends => True

theorem Rebuilt.directStep (rebuilt : path.Rebuilt) (read : DirectRead) :
    (path.directStep key read).Rebuilt := by
  cases read with
  | recvFrom addr payload =>
      simp only [ReturnPath.directStep]
      split
      · exact rebuilt.deliver key _
      · exact rebuilt
  | ends => exact rebuilt.congr rfl rfl

theorem Rebuilt.attributed_directStep_iff (rebuilt : path.Rebuilt) (read : DirectRead) :
    (path.directStep key read).Attributed address target ↔
      path.Attributed address target ∧ DirectGenuine address target key path read := by
  cases read with
  | recvFrom addr payload =>
      simp only [ReturnPath.directStep, DirectGenuine]
      split
      · rename_i reading
        rw [rebuilt.attributed_deliver_iff, forall_prop_of_true reading]
      · rename_i stopped
        exact (and_iff_left fun reading => absurd reading stopped).symm
  | ends => exact (attributed_congr rfl rfl).trans (and_iff_left trivial).symm

/-! ### Frames of a tunnel -/

/-- A frame with a payload which is parsed next names the target. -/
def LegacyGenuine (address : SocketAddr) (target : Sender → Prop) (key : FlowKey)
    (path : ReturnPath) : StreamRead → Prop
  | .parse => ∀ payload consumed, parseUdpFramePayload path.acc = some (payload, consumed) →
      payload ≠ [] →
        Genuine address target key ⟨frameSender ((path.acc.take consumed).drop 2), payload⟩
  | .recvData _ | .ends => True

/-- So does such a frame of a shared tunnel, if it is for a flow to the address. -/
def DemuxGenuine (address : SocketAddr) (target : Sender → Prop) (path : ReturnPath) :
    DemuxRead → Prop
  | .stream .parse => ∀ sid payload consumed,
      parseMuxFrame path.acc = some (sid, payload, consumed) → payload ≠ [] →
        ∀ key, path.flows.lookup sid = some key →
          Genuine address target key
            ⟨frameSender ((path.acc.take consumed).drop (2 + 4)), payload⟩
  | _ => True

theorem Rebuilt.legacyStep (rebuilt : path.Rebuilt) (read : StreamRead) :
    (path.legacyStep key read).Rebuilt := by
  cases read with
  | recvData chunk =>
      simp only [ReturnPath.legacyStep]
      split
      · exact rebuilt.congr rfl rfl
      · exact rebuilt
  | parse =>
      simp only [ReturnPath.legacyStep]
      split
      · exact (rebuilt.drain _).handOver _ _
      · exact rebuilt
  | ends =>
      simp only [ReturnPath.legacyStep]
      split
      · exact rebuilt.congr rfl rfl
      · exact rebuilt

theorem Rebuilt.attributed_legacyStep_iff (rebuilt : path.Rebuilt) (read : StreamRead) :
    (path.legacyStep key read).Attributed address target ↔
      path.Attributed address target ∧ LegacyGenuine address target key path read := by
  cases read with
  | recvData chunk =>
      apply Iff.trans _ (and_iff_left trivial).symm
      simp only [ReturnPath.legacyStep]
      split
      · exact attributed_congr rfl rfl
      · exact Iff.rfl
  | parse =>
      simp only [ReturnPath.legacyStep, LegacyGenuine]
      cases parseUdpFramePayload path.acc with
      | none => exact (and_iff_left fun _ _ found => nomatch found).symm
      | some found =>
          rcases found with ⟨payload, consumed⟩
          dsimp only
          rw [(rebuilt.drain consumed).attributed_handOver_iff]
          simp only [Option.some.injEq, Prod.mk.injEq, and_imp, forall_eq', forall_apply_eq_imp_iff]
          exact Iff.rfl
  | ends =>
      apply Iff.trans _ (and_iff_left trivial).symm
      simp only [ReturnPath.legacyStep]
      split
      · exact attributed_congr rfl rfl
      · exact Iff.rfl

theorem Rebuilt.demuxStep (rebuilt : path.Rebuilt) (read : DemuxRead) :
    (path.demuxStep read).Rebuilt := by
  cases read with
  | stream read =>
      cases read with
      | recvData chunk =>
          simp only [ReturnPath.demuxStep]
          split
          · exact rebuilt.congr rfl rfl
          · exact rebuilt
      | parse =>
          simp only [ReturnPath.demuxStep]
          split
          · exact (rebuilt.drain _).handOver _ _
          · exact rebuilt
      | ends =>
          simp only [ReturnPath.demuxStep]
          split
          · exact rebuilt.congr rfl rfl
          · exact rebuilt
  | register sid key => exact rebuilt.congr rfl rfl
  | unregister sid => exact rebuilt.congr rfl rfl

theorem Rebuilt.attributed_demuxStep_iff (rebuilt : path.Rebuilt) (read : DemuxRead) :
    (path.demuxStep read).Attributed address target ↔
      path.Attributed address target ∧ DemuxGenuine address target path read := by
  cases read with
  | stream read =>
      cases read with
      | recvData chunk =>
          apply Iff.trans _ (and_iff_left trivial).symm
          simp only [ReturnPath.demuxStep]
          split
          · exact attributed_congr rfl rfl
          · exact Iff.rfl
      | parse =>
          simp only [ReturnPath.demuxStep, DemuxGenuine]
          cases parseMuxFrame path.acc with
          | none => exact (and_iff_left fun _ _ _ found => nomatch found).symm
          | some found =>
              rcases found with ⟨sid, payload, consumed⟩
              dsimp only
              rw [(rebuilt.drain consumed).attributed_handOver_iff]
              apply and_congr_right
              intro _
              constructor
              · rintro genuine _ _ _ same
                cases same
                exact genuine
              · exact fun genuine => genuine sid payload consumed rfl
      | ends =>
          apply Iff.trans _ (and_iff_left trivial).symm
          simp only [ReturnPath.demuxStep]
          split
          · exact attributed_congr rfl rfl
          · exact Iff.rfl
  | register sid key => exact (attributed_congr rfl rfl).trans (and_iff_left trivial).symm
  | unregister sid => exact (attributed_congr rfl rfl).trans (and_iff_left trivial).symm

/-! ### What the frames name -/

/-- The items which packets are built for have a sender. -/
def Named (path : ReturnPath) : Prop :=
  ∀ packet ∈ path.written, packet.origin.sender ≠ .unnamed

theorem Named.handOver (named : path.Named) (flow : Option FlowKey)
    (readable : item.payload ≠ [] → item.sender ≠ .unnamed) :
    (path.handOver flow item).Named := by
  simp only [ReturnPath.handOver]
  split
  · exact named
  · rename_i nonempty
    cases flow with
    | none => exact named
    | some key =>
        intro packet member
        rcases List.mem_append.mp member with old | new
        · exact named packet old
        · rw [Option.mem_toList] at new
          rw [(replyPacket_origin new).2.2]
          exact readable nonempty

theorem Named.legacyStep (named : path.Named) (read : StreamRead) :
    (path.legacyStep key read).Named := by
  cases read with
  | recvData chunk =>
      simp only [ReturnPath.legacyStep]
      split <;> exact named
  | parse =>
      simp only [ReturnPath.legacyStep]
      split
      · rename_i payload consumed parsed
        have drained : (path.drain consumed).Named := named
        exact drained.handOver _ fun nonempty => named_of_parseUdpFramePayload parsed nonempty
      · exact named
  | ends =>
      simp only [ReturnPath.legacyStep]
      split <;> exact named

theorem Named.demuxStep (named : path.Named) (read : DemuxRead) :
    (path.demuxStep read).Named := by
  cases read with
  | stream read =>
      cases read with
      | recvData chunk =>
          simp only [ReturnPath.demuxStep]
          split <;> exact named
      | parse =>
          simp only [ReturnPath.demuxStep]
          split
          · rename_i sid payload consumed parsed
            have drained : (path.drain consumed).Named := named
            exact drained.handOver _ fun nonempty => named_of_parseMuxFrame parsed nonempty
          · exact named
      | ends =>
          simp only [ReturnPath.demuxStep]
          split <;> exact named
  | register sid key => exact named
  | unregister sid => exact named

/-- Every reply of a tunnel was built for a frame whose address can be read. -/
theorem tunnel_replies_named (key : FlowKey) :
    (∀ reads, (run (legacyStep key) start reads).Named) ∧
      ∀ reads, (run demuxStep start reads).Named := by
  have initially : start.Named := fun _ member => nomatch member
  constructor
  · intro reads
    exact run_invariant reads (fun read named => Named.legacyStep named read) initially
  · intro reads
    exact run_invariant reads (fun read named => Named.demuxStep named read) initially

/-! ### The replies of a flow -/

/--
Whoever is the target of a flow, the replies which the client gets from its address are
from the target, exactly if nothing which is handed to a flow to this address is from others.
This holds of a direct socket, of a tunnel of the flow's own, and of a shared one.
-/
theorem replies_attributed_iff (key : FlowKey) (target : Sender → Prop) :
    (∀ reads, (run (directStep key) start reads).Attributed key.replySrc target ↔
      Along (directStep key) (DirectGenuine key.replySrc target key) start reads) ∧
    (∀ reads, (run (legacyStep key) start reads).Attributed key.replySrc target ↔
      Along (legacyStep key) (LegacyGenuine key.replySrc target key) start reads) ∧
    ∀ reads, (run demuxStep start reads).Attributed key.replySrc target ↔
      Along demuxStep (DemuxGenuine key.replySrc target) start reads := by
  refine ⟨?_, ?_, ?_⟩
  · intro reads
    rw [run_iff_along reads (fun read rebuilt => Rebuilt.directStep rebuilt read)
      (fun read rebuilt => rebuilt.attributed_directStep_iff read) rebuilt_start]
    exact and_iff_right attributed_start
  · intro reads
    rw [run_iff_along reads (fun read rebuilt => Rebuilt.legacyStep rebuilt read)
      (fun read rebuilt => rebuilt.attributed_legacyStep_iff read) rebuilt_start]
    exact and_iff_right attributed_start
  · intro reads
    rw [run_iff_along reads (fun read rebuilt => Rebuilt.demuxStep rebuilt read)
      (fun read rebuilt => rebuilt.attributed_demuxStep_iff read) rebuilt_start]
    exact and_iff_right attributed_start

/-- A datagram from somebody else is taken for one from the target. -/
theorem not_attributed_stranger :
    let key : FlowKey := ⟨.v4 (ipv4 10 0 0 2), 5000, .v4 (ipv4 1 1 1 1), 443⟩
    ¬(run (directStep key) start [.recvFrom ⟨.v4 (ipv4 6 6 6 6), 9999⟩ [1]]).Attributed
      key.replySrc fun sender => sender = .socket key.replySrc := by
  intro key attributed
  rw [run_cons, run_nil, rebuilt_start.attributed_directStep_iff] at attributed
  exact absurd (attributed.2 rfl rfl trivial) (by decide)

end ReturnPath

end Mirage.Tun
