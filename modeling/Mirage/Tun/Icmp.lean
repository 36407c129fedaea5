import Mirage.Tun.Datagrams
import Mirage.Tun.Datagrams.Checksums
import Mirage.Tun.Engine

/-!
# Answers of the internet layer

A UDP datagram which the rules reject is answered with "port unreachable"; an echo
request for a fake address is turned round in place.  Neither relies on what the
lengths in the packet say beyond its bounds.
-/

namespace Mirage.Tun

open Mirage.Foundations
open Mirage.Foundations.Checked (refuseIf index slice overwrite writes)

def buildIcmpPortUnreachable (origPkt : List UInt8) : Checked (List UInt8) := do
  refuseIf (origPkt.length < 28)
  let first ← index origPkt 0
  match first.toNat / 2 ^ 4 with
  | 4 =>
      let origIpHeaderLen := first.toNat % 2 ^ 4 * 4
      refuseIf (origPkt.length < origIpHeaderLen + 8)
      let origSrc ← slice origPkt 12 16
      let origDst ← slice origPkt 16 20
      let icmpPayloadLen := min (origIpHeaderLen + 8) origPkt.length
      let totalLen := 20 + 8 + icmpPayloadLen
      let pkt ← writes (List.replicate totalLen 0)
        [(0, [0x45]), (2, bigEndian 2 totalLen), (8, [64]), (9, [1]), (12, origDst), (16, origSrc)]
      let ipCsum := checksum (← slice pkt 0 20)
      let pkt ← overwrite pkt 10 (bigEndian 2 ipCsum)
      let quoted ← slice origPkt 0 icmpPayloadLen
      let pkt ← writes pkt [(20, [3]), (21, [3]), (28, quoted)]
      let icmpCsum := checksum (← slice pkt 20 pkt.length)
      overwrite pkt 22 (bigEndian 2 icmpCsum)
  | 6 =>
      refuseIf (origPkt.length < 40 + 8)
      let origSrc ← slice origPkt 8 24
      let origDst ← slice origPkt 24 40
      let icmpPayloadLen := min origPkt.length 1232
      let icmpMsgLen := 8 + icmpPayloadLen
      let totalLen := 40 + icmpMsgLen
      let quoted ← slice origPkt 0 icmpPayloadLen
      let pkt ← writes (List.replicate totalLen 0)
        [(0, [0x60]), (4, bigEndian 2 icmpMsgLen), (6, [58]), (7, [64]), (8, origDst),
          (24, origSrc), (40, [1]), (41, [4]), (48, quoted)]
      let message ← slice pkt 40 pkt.length
      let pseudo := origDst ++ (origSrc ++ (bigEndian 4 icmpMsgLen ++ ([0, 0, 0, 58] ++ message)))
      overwrite pkt 42 (bigEndian 2 (checksum pseudo))
  | _ => .refused

/-- A packet as it is read from the device, into a buffer of 64 KiB -/
abbrev TunPacket : Type :=
  { bytes : List UInt8 // bytes.length ≤ 65536 }

/-- The reply is built in a copy of the packet. -/
def handleFakeIpIcmpEcho (engine : Engine) (pkt : List UInt8) : Checked (List UInt8) := do
  refuseIf (pkt.length < 28)
  let first ← index pkt 0
  refuseIf (first.toNat / 2 ^ 4 ≠ 4)
  let ihl := first.toNat % 2 ^ 4 * 4
  refuseIf (ihl < 20 ∨ pkt.length < ihl + 8)
  refuseIf ((← index pkt 9) ≠ 1)
  let srcBytes ← slice pkt 12 16
  let dstBytes ← slice pkt 16 20
  let dstIp : Ipv4Addr := BitVec.ofNat 32 (ofBigEndian dstBytes)
  let isFake := (engine.fakeIpReverse (.v4 dstIp)).isSome ||
    ((← index pkt 16) == 198 && (← index pkt 17) &&& 0xFE == 18)
  refuseIf (isFake = false)
  let icmpType ← index pkt ihl
  let icmpCode ← index pkt (ihl + 1)
  refuseIf (icmpType ≠ 8 ∨ icmpCode ≠ 0)
  let reply ← writes pkt [(12, dstBytes), (16, srcBytes), (10, [0, 0])]
  let ipCsum := checksum (← slice reply 0 ihl)
  let reply ← writes reply [(10, bigEndian 2 ipCsum), (ihl, [0]), (ihl + 2, [0, 0])]
  let icmpCsum := checksum (← slice reply ihl reply.length)
  overwrite reply (ihl + 2) (bigEndian 2 icmpCsum)

/-!
## Answers which a host accepts

An answer goes back where the packet came from, its checksums verify, and it shows
the packet it is about.  The echo is answered in the request's own bytes, whose length
field is left as it was.
-/

def ipVersion (pkt : List UInt8) : ℕ :=
  numberAt pkt 0 1 / 2 ^ 4

/-- The length of an IPv4 header, as the packet says -/
def headerLength (pkt : List UInt8) : ℕ :=
  numberAt pkt 0 1 % 2 ^ 4 * 4

structure UnreachableV4 (pkt reply : List UInt8) : Prop where
  src : bytesAt reply 12 4 = bytesAt pkt 16 4
  dst : bytesAt reply 16 4 = bytesAt pkt 12 4
  total : numberAt reply 2 2 = reply.length
  header : Verifies (reply.take 20)
  kind : bytesAt reply 20 2 = [3, 3]
  message : Verifies (reply.drop 20)
  quoted : reply.drop 28 = pkt.take (headerLength pkt + 8)

structure UnreachableV6 (pkt reply : List UInt8) : Prop where
  src : bytesAt reply 8 16 = bytesAt pkt 24 16
  dst : bytesAt reply 24 16 = bytesAt pkt 8 16
  total : 40 + numberAt reply 4 2 = reply.length
  small : reply.length ≤ 1280
  kind : bytesAt reply 40 2 = [1, 4]
  message : Verifies (ipv6Pseudo 58 (bytesAt reply 8 16) (bytesAt reply 24 16)
    (reply.length - 40) ++ reply.drop 40)
  quoted : reply.drop 48 = pkt.take 1232

/-- The answer to a packet which is rejected, in the family of the packet -/
def Unreachable (pkt reply : List UInt8) : Prop :=
  ipVersion pkt = 4 ∧ UnreachableV4 pkt reply ∨ ipVersion pkt = 6 ∧ UnreachableV6 pkt reply

/-- Whatever an echo's answer does not have to change is the request's. -/
structure EchoReply (pkt reply : List UInt8) : Prop where
  src : bytesAt reply 12 4 = bytesAt pkt 16 4
  dst : bytesAt reply 16 4 = bytesAt pkt 12 4
  size : reply.length = pkt.length
  total : numberAt reply 2 2 = numberAt pkt 2 2
  header : Verifies (reply.take (headerLength pkt))
  kind : bytesAt reply (headerLength pkt) 2 = [0, 0]
  message : Verifies (reply.drop (headerLength pkt))
  front : reply.take 10 = pkt.take 10
  options : bytesAt reply 20 (headerLength pkt - 20) = bytesAt pkt 20 (headerLength pkt - 20)
  quoted : reply.drop (headerLength pkt + 4) = pkt.drop (headerLength pkt + 4)

/-! ### Messages -/

def icmpMessage (kind : List UInt8) (csum : ℕ) (rest : List UInt8) : List UInt8 :=
  kind ++ (bigEndian 2 csum ++ rest)

section Messages

variable {kind rest front : List UInt8} {csum : ℕ}

theorem icmpMessage_length (kindSize : kind.length = 2) :
    (icmpMessage kind csum rest).length = 4 + rest.length := by
  simp only [icmpMessage, List.length_append, bigEndian_length, kindSize]
  omega

theorem icmpMessage_kind {place : ℕ} (kindSize : kind.length = 2)
    (at_field : place = front.length) :
    bytesAt (front ++ icmpMessage kind csum rest) place 2 = kind :=
  bytesAt_append at_field kindSize _

theorem icmpMessage_rest {place size : ℕ} (kindSize : kind.length = 2)
    (at_field : place = front.length + 4 + size) :
    (front ++ icmpMessage kind csum rest).drop place = rest.drop size := by
  rw [icmpMessage, ← List.append_assoc, ← List.append_assoc, at_field, ← List.drop_drop,
    List.drop_left' (by simp [kindSize])]

theorem append_icmpMessage (csum : ℕ) :
    front ++ icmpMessage kind csum rest = (front ++ kind) ++ (bigEndian 2 csum ++ rest) := by
  rw [icmpMessage, List.append_assoc]

theorem overwrite_icmpMessage {new place : ℕ} (kindSize : kind.length = 2)
    (at_field : place = front.length + 2) :
    overwrite (front ++ icmpMessage kind csum rest) place (bigEndian 2 new) =
      .done (front ++ icmpMessage kind new rest) := by
  rw [append_icmpMessage, append_icmpMessage]
  apply Checked.overwrite_append
  · rw [List.length_append, kindSize, at_field]
  · rw [bigEndian_length, bigEndian_length]

theorem icmpMessage_verifies (kindSize : kind.length = 2) (even : front.length % 2 = 0)
    (short : front.length + rest.length < 2 ^ 17 - 4) :
    Verifies (front ++ icmpMessage kind (checksum (front ++ icmpMessage kind 0 rest)) rest) := by
  have blank : bigEndian 2 0 = [0, 0] := rfl
  rw [append_icmpMessage, append_icmpMessage, blank]
  apply verifies_checksum
  · rw [List.length_append, kindSize]
    omega
  · simp only [List.length_append, List.length_cons, List.length_nil, kindSize]
    omega

end Messages

/-! ### Port unreachable -/

/-- The first byte, as the code reads it -/
theorem index_zero {pkt : List UInt8} (long : 28 ≤ pkt.length) :
    ∃ first, index pkt 0 = .done first ∧ first.toNat / 2 ^ 4 = ipVersion pkt ∧
      first.toNat % 2 ^ 4 * 4 = headerLength pkt := by
  obtain ⟨first, read, byte⟩ := @index_eq_bytesAt pkt 0 (by omega)
  refine ⟨first, read, ?_, ?_⟩
  · rw [ipVersion, numberAt_one byte]
  · rw [headerLength, numberAt_one byte]

theorem buildIcmpPortUnreachable_v4 {pkt : List UInt8} (long : 28 ≤ pkt.length)
    (version : ipVersion pkt = 4) (fits : headerLength pkt + 8 ≤ pkt.length) :
    buildIcmpPortUnreachable pkt =
      .done (ipv4Header 1 (bytesAt pkt 16 4) (bytesAt pkt 12 4) (28 + (headerLength pkt + 8))
          (checksum (ipv4Header 1 (bytesAt pkt 16 4) (bytesAt pkt 12 4)
            (28 + (headerLength pkt + 8)) 0)) ++
        icmpMessage [3, 3] (checksum (icmpMessage [3, 3] 0
            ([0, 0, 0, 0] ++ pkt.take (headerLength pkt + 8))))
          ([0, 0, 0, 0] ++ pkt.take (headerLength pkt + 8))) := by
  obtain ⟨first, read, version_eq, ihl⟩ := index_zero long
  have source_length : (bytesAt pkt 12 4).length = 4 := bytesAt_length (by omega)
  have target_length : (bytesAt pkt 16 4).length = 4 := bytesAt_length (by omega)
  have quoted : slice pkt 0 (min (headerLength pkt + 8) pkt.length) =
      .done (pkt.take (headerLength pkt + 8)) := by
    rw [Nat.min_eq_left fits, slice_eq_bytesAt (Nat.zero_le _) fits]
    rfl
  have quoted_length : (pkt.take (headerLength pkt + 8)).length = headerLength pkt + 8 :=
    List.length_take_of_le fits
  rw [buildIcmpPortUnreachable, Checked.refuseIf_of_not (by omega), Checked.done_bind, read,
    Checked.done_bind]
  simp only [version_eq, version, ihl]
  rw [Checked.refuseIf_of_not (by omega), slice_eq_bytesAt (by decide) (by omega),
    slice_eq_bytesAt (by decide) (by omega), quoted, Nat.min_eq_left fits]
  simp only [Checked.done_bind, Nat.reduceSub, Nat.reduceAdd]
  generalize bytesAt pkt 12 4 = source at *
  generalize bytesAt pkt 16 4 = target at *
  generalize pkt.take (headerLength pkt + 8) = quote at *
  generalize headerLength pkt + 8 = size at *
  set header := ipv4Header 1 target source (28 + size) with header_eq
  have header_length : ∀ csum, (header csum).length = 20 :=
    fun csum => ipv4Header_length target_length source_length
  have filled : writes (List.replicate (28 + size) 0)
      [(0, [0x45]), (2, bigEndian 2 (28 + size)), (8, [64]), (9, [1]), (12, target),
        (16, source)] = .done (header 0 ++ List.replicate (8 + size) 0) := by
    apply Checked.writes_start
    · simp [Checked.layout, header, ipv4Header, bigEndian, target_length]
    · simp [Checked.InOrder, source_length, target_length]
      omega
    · rw [header_length]
      omega
  have message_filled : ∀ csum, writes (header csum ++ List.replicate (8 + size) 0)
      [(20, [3]), (21, [3]), (28, quote)] =
        .done (header csum ++ icmpMessage [3, 3] 0 ([0, 0, 0, 0] ++ quote)) := by
    intro csum
    rw [@Checked.writes_layout _ _ _ _ (icmpMessage [3, 3] 0 ([0, 0, 0, 0] ++ quote)) _ 0]
    · rw [List.replicate_zero, List.append_nil]
    · rw [header_length]
      simp [Checked.layout, icmpMessage, bigEndian]
    · rw [header_length]
      simp [Checked.InOrder, quoted_length]
      omega
    · rw [icmpMessage_length rfl, List.length_append, quoted_length]
      simp
      omega
  rw [filled, Checked.done_bind, Checked.slice_prefix (header_length 0).symm]
  simp only [Checked.done_bind]
  rw [overwrite_ipv4Header, Checked.done_bind, message_filled, Checked.done_bind,
    Checked.slice_suffix (header_length _).symm]
  simp only [Checked.done_bind]
  rw [overwrite_icmpMessage rfl (by rw [header_length])]

theorem buildIcmpPortUnreachable_v6 {pkt : List UInt8} (long : 48 ≤ pkt.length)
    (version : ipVersion pkt = 6) :
    buildIcmpPortUnreachable pkt =
      .done (ipv6Header 58 (bytesAt pkt 24 16) (bytesAt pkt 8 16) (8 + (pkt.take 1232).length) ++
        icmpMessage [1, 4] (checksum (ipv6Pseudo 58 (bytesAt pkt 24 16) (bytesAt pkt 8 16)
            (8 + (pkt.take 1232).length) ++
              icmpMessage [1, 4] 0 ([0, 0, 0, 0] ++ pkt.take 1232)))
          ([0, 0, 0, 0] ++ pkt.take 1232)) := by
  obtain ⟨first, read, version_eq, -⟩ := @index_zero pkt (by omega)
  have source_length : (bytesAt pkt 8 16).length = 16 := bytesAt_length (by omega)
  have target_length : (bytesAt pkt 24 16).length = 16 := bytesAt_length (by omega)
  have size_eq : min pkt.length 1232 = (pkt.take 1232).length := by
    rw [List.length_take, Nat.min_comm]
  have quoted : slice pkt 0 (min pkt.length 1232) = .done (pkt.take 1232) := by
    rw [slice_eq_bytesAt (Nat.zero_le _) (Nat.min_le_left _ _), Nat.sub_zero, Nat.min_comm]
    simp [bytesAt, List.take_eq_take_iff]
  rw [buildIcmpPortUnreachable, Checked.refuseIf_of_not (by omega), Checked.done_bind, read,
    Checked.done_bind]
  simp only [version_eq, version]
  rw [Checked.refuseIf_of_not (by omega), slice_eq_bytesAt (by decide) (by omega),
    slice_eq_bytesAt (by decide) (by omega), quoted, size_eq]
  simp only [Checked.done_bind, Nat.reduceSub]
  generalize bytesAt pkt 8 16 = source at *
  generalize bytesAt pkt 24 16 = target at *
  generalize pkt.take 1232 = quote at *
  set header := ipv6Header 58 target source (8 + quote.length) with header_eq
  have header_length : header.length = 40 := ipv6Header_length target_length source_length
  have filled : writes (List.replicate (40 + (8 + quote.length)) 0)
      [(0, [0x60]), (4, bigEndian 2 (8 + quote.length)), (6, [58]), (7, [64]), (8, target),
        (24, source), (40, [1]), (41, [4]), (48, quote)] =
      .done (header ++ icmpMessage [1, 4] 0 ([0, 0, 0, 0] ++ quote)) := by
    apply Checked.writes_whole
    · simp [Checked.layout, header, ipv6Header, icmpMessage, bigEndian, source_length,
        target_length]
    · simp [Checked.InOrder, source_length, target_length]
      omega
    · rw [List.length_append, header_length, icmpMessage_length rfl, List.length_append]
      simp
      omega
  rw [filled, Checked.done_bind, Checked.slice_suffix header_length.symm]
  simp only [Checked.done_bind]
  rw [overwrite_icmpMessage rfl (by rw [header_length])]
  simp only [ipv6Pseudo, List.append_assoc]

theorem unreachableV4_of_message {pkt : List UInt8} (long : 28 ≤ pkt.length)
    (fits : headerLength pkt + 8 ≤ pkt.length) :
    UnreachableV4 pkt
      (ipv4Header 1 (bytesAt pkt 16 4) (bytesAt pkt 12 4) (28 + (headerLength pkt + 8))
          (checksum (ipv4Header 1 (bytesAt pkt 16 4) (bytesAt pkt 12 4)
            (28 + (headerLength pkt + 8)) 0)) ++
        icmpMessage [3, 3] (checksum (icmpMessage [3, 3] 0
            ([0, 0, 0, 0] ++ pkt.take (headerLength pkt + 8))))
          ([0, 0, 0, 0] ++ pkt.take (headerLength pkt + 8))) := by
  have source_length : (bytesAt pkt 12 4).length = 4 := bytesAt_length (by omega)
  have target_length : (bytesAt pkt 16 4).length = 4 := bytesAt_length (by omega)
  have quoted_length : (pkt.take (headerLength pkt + 8)).length = headerLength pkt + 8 :=
    List.length_take_of_le fits
  have header_small : headerLength pkt ≤ 60 := by
    rw [headerLength]
    omega
  have header_length : ∀ total csum,
      (ipv4Header 1 (bytesAt pkt 16 4) (bytesAt pkt 12 4) total csum).length = 20 :=
    fun total csum => ipv4Header_length target_length source_length
  constructor
  case src => exact ipv4Header_src target_length
  case dst => exact ipv4Header_dst target_length source_length
  case total =>
    rw [ipv4Header_total, List.length_append, header_length, icmpMessage_length rfl,
      List.length_append, quoted_length, List.length_cons, List.length_cons, List.length_cons,
      List.length_singleton]
    omega
  case header =>
    rw [List.take_left' (header_length _ _)]
    exact ipv4Header_verifies _ target_length source_length
  case kind => exact icmpMessage_kind rfl (header_length _ _).symm
  case message =>
    rw [List.drop_left' (header_length _ _)]
    apply @icmpMessage_verifies [3, 3] _ [] rfl rfl
    simp only [List.length_append, List.length_cons, List.length_nil, quoted_length]
    omega
  case quoted => exact @icmpMessage_rest _ _ _ _ _ 4 rfl (by rw [header_length])

theorem unreachableV6_of_message {pkt : List UInt8} (long : 48 ≤ pkt.length) :
    UnreachableV6 pkt
      (ipv6Header 58 (bytesAt pkt 24 16) (bytesAt pkt 8 16) (8 + (pkt.take 1232).length) ++
        icmpMessage [1, 4] (checksum (ipv6Pseudo 58 (bytesAt pkt 24 16) (bytesAt pkt 8 16)
            (8 + (pkt.take 1232).length) ++
              icmpMessage [1, 4] 0 ([0, 0, 0, 0] ++ pkt.take 1232)))
          ([0, 0, 0, 0] ++ pkt.take 1232)) := by
  have source_length : (bytesAt pkt 8 16).length = 16 := bytesAt_length (by omega)
  have target_length : (bytesAt pkt 24 16).length = 16 := bytesAt_length (by omega)
  have quoted_small : (pkt.take 1232).length ≤ 1232 := List.length_take_le _ _
  have header_length : ∀ length,
      (ipv6Header 58 (bytesAt pkt 24 16) (bytesAt pkt 8 16) length).length = 40 :=
    fun length => ipv6Header_length target_length source_length
  have message_length : ∀ csum, (icmpMessage [1, 4] csum ([0, 0, 0, 0] ++ pkt.take 1232)).length =
      8 + (pkt.take 1232).length := by
    intro csum
    rw [icmpMessage_length rfl, List.length_append, ← Nat.add_assoc]
    rfl
  constructor
  case src => exact ipv6Header_src target_length
  case dst => exact ipv6Header_dst target_length source_length
  case total =>
    rw [ipv6Header_payload, List.length_append, header_length, message_length]
    omega
  case small =>
    rw [List.length_append, header_length, message_length]
    omega
  case kind => exact icmpMessage_kind rfl (header_length _).symm
  case message =>
    rw [ipv6Header_src target_length, ipv6Header_dst target_length source_length,
      List.length_append, header_length, message_length, Nat.add_sub_cancel_left,
      List.drop_left' (header_length _)]
    apply icmpMessage_verifies rfl
    · simp [ipv6Pseudo, source_length, target_length]
    · simp only [ipv6Pseudo, List.length_append, List.length_cons, List.length_nil,
        bigEndian_length, source_length, target_length]
      omega
  case quoted => exact @icmpMessage_rest _ _ _ _ _ 4 rfl (by rw [header_length])

/-- The packets which are answered: those whose headers are not cut off -/
def Answerable (pkt : List UInt8) : Prop :=
  28 ≤ pkt.length ∧ (ipVersion pkt = 4 ∧ headerLength pkt + 8 ≤ pkt.length ∨
    ipVersion pkt = 6 ∧ 48 ≤ pkt.length)

theorem buildIcmpPortUnreachable_refused {pkt : List UInt8} (cut_off : ¬Answerable pkt) :
    buildIcmpPortUnreachable pkt = .refused := by
  rw [buildIcmpPortUnreachable]
  by_cases long : 28 ≤ pkt.length
  · obtain ⟨first, read, version_eq, ihl⟩ := index_zero long
    rw [Checked.refuseIf_of_not (by omega), Checked.done_bind, read, Checked.done_bind]
    simp only [version_eq, ihl]
    split
    next version =>
      have misfits : ¬headerLength pkt + 8 ≤ pkt.length :=
        fun fits => cut_off ⟨long, .inl ⟨version, fits⟩⟩
      rw [Checked.refuseIf_of (by omega), Checked.refused_bind]
    next version =>
      have misfits : ¬48 ≤ pkt.length := fun fits => cut_off ⟨long, .inr ⟨version, fits⟩⟩
      rw [Checked.refuseIf_of (by omega), Checked.refused_bind]
    next => rfl
  · rw [Checked.refuseIf_of (by omega), Checked.refused_bind]

theorem buildIcmpPortUnreachable_doneWhen (pkt : List UInt8) :
    (buildIcmpPortUnreachable pkt).DoneWhen (Answerable pkt) (Unreachable pkt) := by
  by_cases answerable : Answerable pkt
  · obtain ⟨long, ⟨version, fits⟩ | ⟨version, fits⟩⟩ := id answerable
    · exact Checked.doneWhen_done answerable (buildIcmpPortUnreachable_v4 long version fits)
        (.inl ⟨version, unreachableV4_of_message long fits⟩)
    · exact Checked.doneWhen_done answerable (buildIcmpPortUnreachable_v6 fits version)
        (.inr ⟨version, unreachableV6_of_message fits⟩)
  · exact Checked.doneWhen_refused answerable (buildIcmpPortUnreachable_refused answerable)

/-! ### Echo -/

/-- An address of the fake range, or one which the engine has given away -/
def ForFakeIp (engine : Engine) (pkt : List UInt8) : Prop :=
  (engine.fakeIpReverse (.v4 (BitVec.ofNat 32 (numberAt pkt 16 4)))).isSome = true ∨
    numberAt pkt 16 1 = 198 ∧ numberAt pkt 17 1 / 2 = 9

def IsFakeEcho (engine : Engine) (pkt : List UInt8) : Prop :=
  28 ≤ pkt.length ∧ ipVersion pkt = 4 ∧ 20 ≤ headerLength pkt ∧
    headerLength pkt + 8 ≤ pkt.length ∧ numberAt pkt 9 1 = 1 ∧ ForFakeIp engine pkt ∧
      bytesAt pkt (headerLength pkt) 2 = [8, 0]

/-- A header with its addresses exchanged -/
def echoHeader (pkt : List UInt8) (csum : ℕ) : List UInt8 :=
  pkt.take 10 ++ (bigEndian 2 csum ++ (bytesAt pkt 16 4 ++ (bytesAt pkt 12 4 ++
    bytesAt pkt 20 (headerLength pkt - 20))))

def echoed (pkt : List UInt8) : List UInt8 :=
  echoHeader pkt (checksum (echoHeader pkt 0)) ++
    icmpMessage [0, 0] (checksum (icmpMessage [0, 0] 0 (pkt.drop (headerLength pkt + 4))))
      (pkt.drop (headerLength pkt + 4))

section Echo

variable {pkt : List UInt8}

theorem echoHeader_length (header : 20 ≤ headerLength pkt)
    (fits : headerLength pkt + 8 ≤ pkt.length) (csum : ℕ) :
    (echoHeader pkt csum).length = headerLength pkt := by
  have front_length : (pkt.take 10).length = 10 := List.length_take_of_le (by omega)
  simp only [echoHeader, List.length_append, bigEndian_length, front_length]
  rw [bytesAt_length (by omega), bytesAt_length (by omega), bytesAt_length (by omega)]
  omega

/-- A request, field by field -/
theorem echo_split (header : 20 ≤ headerLength pkt)
    (request : bytesAt pkt (headerLength pkt) 2 = [8, 0]) :
    pkt = pkt.take 10 ++ (bytesAt pkt 10 2 ++ (bytesAt pkt 12 4 ++ (bytesAt pkt 16 4 ++
      (bytesAt pkt 20 (headerLength pkt - 20) ++ ([8, 0] ++
        (bytesAt pkt (headerLength pkt + 2) 2 ++ pkt.drop (headerLength pkt + 4))))))) := by
  have behind : 20 + (headerLength pkt - 20) = headerLength pkt := by omega
  have options : bytesAt pkt 20 (headerLength pkt - 20) ++ pkt.drop (headerLength pkt) =
      pkt.drop 20 := by
    rw [drop_eq_bytesAt_append pkt 20 (headerLength pkt - 20), behind]
  rw [← drop_eq_bytesAt_append, ← request, ← drop_eq_bytesAt_append, options,
    ← drop_eq_bytesAt_append, ← drop_eq_bytesAt_append, ← drop_eq_bytesAt_append,
    List.take_append_drop]

theorem writes_exchange {front old src dst rest : List UInt8} (frontSize : front.length = 10)
    (oldSize : old.length = 2) (srcSize : src.length = 4) (dstSize : dst.length = 4) :
    writes (front ++ (old ++ (src ++ (dst ++ rest)))) [(12, dst), (16, src), (10, [0, 0])] =
      .done (front ++ ([0, 0] ++ (dst ++ (src ++ rest)))) := by
  have at_src : overwrite (front ++ (old ++ (src ++ (dst ++ rest)))) 12 dst =
      .done (front ++ (old ++ (dst ++ (dst ++ rest)))) := by
    have split : ∀ after, front ++ (old ++ after) = (front ++ old) ++ after :=
      fun after => (List.append_assoc _ _ after).symm
    rw [split, split]
    apply Checked.overwrite_append
    · rw [List.length_append, frontSize, oldSize]
    · rw [srcSize, dstSize]
  have at_dst : overwrite (front ++ (old ++ (dst ++ (dst ++ rest)))) 16 src =
      .done (front ++ (old ++ (dst ++ (src ++ rest)))) := by
    have split : ∀ after, front ++ (old ++ (dst ++ after)) =
        (front ++ (old ++ dst)) ++ after := by
      intro after
      simp only [List.append_assoc]
    rw [split, split]
    apply Checked.overwrite_append
    · rw [List.length_append, List.length_append, frontSize, oldSize, dstSize]
    · rw [srcSize, dstSize]
  have at_sum : overwrite (front ++ (old ++ (dst ++ (src ++ rest)))) 10 [0, 0] =
      .done (front ++ ([0, 0] ++ (dst ++ (src ++ rest)))) :=
    Checked.overwrite_append frontSize.symm oldSize.symm
  rw [Checked.writes_cons, at_src, Checked.done_bind, Checked.writes_cons, at_dst,
    Checked.done_bind, Checked.writes_cons, at_sum, Checked.done_bind, Checked.writes_nil]

theorem overwrite_echoHeader (long : 28 ≤ pkt.length) (csum new : ℕ) (rest : List UInt8) :
    overwrite (echoHeader pkt csum ++ rest) 10 (bigEndian 2 new) =
      .done (echoHeader pkt new ++ rest) := by
  rw [echoHeader, echoHeader]
  simp only [List.append_assoc]
  apply Checked.overwrite_append
  · rw [List.length_take_of_le (by omega)]
  · rw [bigEndian_length, bigEndian_length]

/-- The request is turned round in a copy of itself. -/
theorem turn_round (long : 28 ≤ pkt.length) (header : 20 ≤ headerLength pkt)
    (fits : headerLength pkt + 8 ≤ pkt.length)
    (request : bytesAt pkt (headerLength pkt) 2 = [8, 0]) :
    (do
      let reply ← writes pkt
        [(12, bytesAt pkt 16 4), (16, bytesAt pkt 12 4), (10, [0, 0])]
      let ipCsum := checksum (← slice reply 0 (headerLength pkt))
      let reply ← writes reply [(10, bigEndian 2 ipCsum), (headerLength pkt, [0]),
        (headerLength pkt + 2, [0, 0])]
      let icmpCsum := checksum (← slice reply (headerLength pkt) reply.length)
      overwrite reply (headerLength pkt + 2) (bigEndian 2 icmpCsum)) = .done (echoed pkt) := by
  have header_length := echoHeader_length header fits
  have turned : writes pkt [(12, bytesAt pkt 16 4), (16, bytesAt pkt 12 4), (10, [0, 0])] =
      .done (echoHeader pkt 0 ++ ([8] ++ ([0] ++ (bytesAt pkt (headerLength pkt + 2) 2 ++
        pkt.drop (headerLength pkt + 4))))) := by
    nth_rewrite 1 [echo_split header request]
    rw [writes_exchange (List.length_take_of_le (by omega)) (bytesAt_length (by omega))
      (bytesAt_length (by omega)) (bytesAt_length (by omega)), echoHeader]
    simp only [List.append_assoc]
    rfl
  have summed : ∀ csum, writes (echoHeader pkt 0 ++ ([8] ++ ([0] ++
      (bytesAt pkt (headerLength pkt + 2) 2 ++ pkt.drop (headerLength pkt + 4)))))
        [(10, bigEndian 2 csum), (headerLength pkt, [0]), (headerLength pkt + 2, [0, 0])] =
      .done (echoHeader pkt csum ++ icmpMessage [0, 0] 0 (pkt.drop (headerLength pkt + 4))) := by
    intro csum
    have split : ∀ after, echoHeader pkt csum ++ ([0] ++ ([0] ++ after)) =
        (echoHeader pkt csum ++ [0, 0]) ++ after := by
      intro after
      simp only [List.append_assoc, List.cons_append, List.nil_append]
    have at_type : ∀ after, overwrite (echoHeader pkt csum ++ ([8] ++ after)) (headerLength pkt)
        [0] = .done (echoHeader pkt csum ++ ([0] ++ after)) :=
      fun after => Checked.overwrite_append (header_length csum).symm rfl
    rw [Checked.writes_cons, overwrite_echoHeader long, Checked.done_bind, Checked.writes_cons,
      at_type, Checked.done_bind, split, Checked.writes_cons, Checked.overwrite_append,
      Checked.done_bind, Checked.writes_nil, append_icmpMessage]
    · rfl
    · rw [List.length_append, header_length]
      rfl
    · rw [bytesAt_length (by omega)]
      rfl
  rw [turned, Checked.done_bind, Checked.slice_prefix (header_length 0).symm]
  simp only [Checked.done_bind]
  rw [summed, Checked.done_bind, Checked.slice_suffix (header_length _).symm]
  simp only [Checked.done_bind]
  rw [overwrite_icmpMessage rfl (by rw [header_length]), echoed]

theorem echoReply_echoed (short : pkt.length ≤ 65536) (header : 20 ≤ headerLength pkt)
    (fits : headerLength pkt + 8 ≤ pkt.length) : EchoReply pkt (echoed pkt) := by
  have front_length : (pkt.take 10).length = 10 := List.length_take_of_le (by omega)
  have header_length := echoHeader_length header fits
  have header_small : headerLength pkt ≤ 60 := by
    rw [headerLength]
    omega
  have source_length : (bytesAt pkt 12 4).length = 4 := bytesAt_length (by omega)
  have target_length : (bytesAt pkt 16 4).length = 4 := bytesAt_length (by omega)
  have data_length : (pkt.drop (headerLength pkt + 4)).length =
      pkt.length - (headerLength pkt + 4) := List.length_drop
  have front : (echoed pkt).take 10 = pkt.take 10 := by
    rw [echoed, echoHeader, List.append_assoc, List.take_left' front_length]
  constructor
  case src =>
    have field := @bytesAt_append (pkt.take 10 ++ bigEndian 2 (checksum (echoHeader pkt 0)))
      (bytesAt pkt 16 4) 12 4 (by simp [front_length]) target_length
    rw [echoed, echoHeader]
    simp only [List.append_assoc] at field ⊢
    exact field _
  case dst =>
    have field := @bytesAt_append (pkt.take 10 ++ (bigEndian 2 (checksum (echoHeader pkt 0)) ++
      bytesAt pkt 16 4)) (bytesAt pkt 12 4) 16 4 (by simp [front_length, target_length])
        source_length
    rw [echoed, echoHeader]
    simp only [List.append_assoc] at field ⊢
    exact field _
  case size =>
    rw [echoed, List.length_append, header_length, icmpMessage_length rfl, data_length]
    omega
  case total => rw [numberAt, ← @bytesAt_take _ _ _ 10 (by decide), front, bytesAt_take (by decide),
    numberAt]
  case header =>
    rw [echoed, List.take_left' (header_length _), echoHeader]
    apply verifies_checksum
    · rw [front_length]
    · change (echoHeader pkt 0).length ≤ 2 ^ 17
      rw [header_length]
      omega
  case kind => exact icmpMessage_kind rfl (header_length _).symm
  case message =>
    rw [echoed, List.drop_left' (header_length _)]
    apply @icmpMessage_verifies [0, 0] _ [] rfl rfl
    rw [data_length]
    simp only [List.length_nil]
    omega
  case front => exact front
  case options =>
    have field := @bytesAt_append (pkt.take 10 ++ (bigEndian 2 (checksum (echoHeader pkt 0)) ++
      (bytesAt pkt 16 4 ++ bytesAt pkt 12 4))) (bytesAt pkt 20 (headerLength pkt - 20)) 20
        (headerLength pkt - 20) (by simp [front_length, source_length, target_length])
        (bytesAt_length (by omega))
    nth_rewrite 1 [echoed]
    rw [echoHeader]
    simp only [List.append_assoc] at field ⊢
    exact field _
  case quoted => exact @icmpMessage_rest _ _ _ _ _ 0 rfl (by rw [header_length])

theorem forFakeIp_iff {engine : Engine} {high low : UInt8} (high_eq : bytesAt pkt 16 1 = [high])
    (low_eq : bytesAt pkt 17 1 = [low]) :
    ForFakeIp engine pkt ↔
      ((engine.fakeIpReverse (.v4 (BitVec.ofNat 32 (ofBigEndian (bytesAt pkt 16 4))))).isSome ||
        (high == 198 && low &&& 0xFE == 18)) = true := by
  have masked : ∀ byte < 256, (UInt8.ofNat byte &&& 0xFE == 18) = true ↔ byte / 2 = 9 := by
    decide +kernel
  have low_masked := masked low.toNat low.toNat_lt
  rw [UInt8.ofNat_toNat] at low_masked
  rw [ForFakeIp, numberAt_one high_eq, numberAt_one low_eq, Bool.or_eq_true, Bool.and_eq_true,
    low_masked, beq_iff_eq, ← UInt8.toNat_inj]
  rfl

end Echo

theorem handleFakeIpIcmpEcho_doneWhen (engine : Engine) (pkt : List UInt8) :
    (handleFakeIpIcmpEcho engine pkt).DoneWhen (IsFakeEcho engine pkt) (· = echoed pkt) := by
  rw [handleFakeIpIcmpEcho]
  apply Checked.doneWhen_refuseIf (fun asked => by have long := asked.1; omega)
  intro long
  obtain ⟨first, read, version_eq, ihl⟩ := @index_zero pkt (by omega)
  rw [read, Checked.done_bind]
  simp only [version_eq, ihl]
  apply Checked.doneWhen_refuseIf (fun asked => not_not_intro asked.2.1)
  intro version
  apply Checked.doneWhen_refuseIf
    (fun asked => by have header := asked.2.2.1; have fits := asked.2.2.2.1; omega)
  intro sized
  obtain ⟨protocol, read, protocol_eq⟩ := @index_eq_bytesAt pkt 9 (by omega)
  rw [read, Checked.done_bind]
  have is_icmp : protocol = 1 ↔ numberAt pkt 9 1 = 1 := by
    rw [numberAt_one protocol_eq, ← UInt8.toNat_inj]
    rfl
  apply Checked.doneWhen_refuseIf (fun asked => not_not_intro (is_icmp.mpr asked.2.2.2.2.1))
  intro icmp
  obtain ⟨high, read_high, high_eq⟩ := @index_eq_bytesAt pkt 16 (by omega)
  obtain ⟨low, read_low, low_eq⟩ := @index_eq_bytesAt pkt 17 (by omega)
  rw [slice_eq_bytesAt (by decide) (by omega), slice_eq_bytesAt (by decide) (by omega), read_high,
    read_low]
  simp only [Checked.done_bind, Nat.reduceSub]
  have is_fake := @forFakeIp_iff pkt engine high low high_eq low_eq
  apply Checked.doneWhen_refuseIf
    (fun asked => Bool.not_eq_false _ ▸ is_fake.mp asked.2.2.2.2.2.1)
  intro fake
  obtain ⟨icmpType, read_type, type_eq⟩ := @index_eq_bytesAt pkt (headerLength pkt) (by omega)
  obtain ⟨icmpCode, read_code, code_eq⟩ := @index_eq_bytesAt pkt (headerLength pkt + 1) (by omega)
  have kind_eq : bytesAt pkt (headerLength pkt) 2 = [icmpType, icmpCode] := by
    rw [bytesAt_add pkt (headerLength pkt) 1 1, type_eq, code_eq]
    rfl
  rw [read_type, Checked.done_bind, read_code, Checked.done_bind]
  have is_request : bytesAt pkt (headerLength pkt) 2 = [8, 0] ↔
      ¬(icmpType ≠ 8 ∨ icmpCode ≠ 0) := by
    rw [kind_eq, not_or, not_not, not_not, List.cons.injEq, List.cons.injEq, and_iff_left rfl]
  apply Checked.doneWhen_refuseIf (fun asked => is_request.mp asked.2.2.2.2.2.2)
  intro request
  apply Checked.doneWhen_done
  · exact ⟨by omega, not_not.mp version, by omega, by omega, is_icmp.mp (not_not.mp icmp),
      is_fake.mpr (Bool.not_eq_false _ ▸ fake), is_request.mpr request⟩
  · exact turn_round (by omega) (by omega) (by omega) (is_request.mpr request)
  · rfl

/-! ### Both answers -/

/--
Either answer is given to exactly the packets which ask for it, and is right.  The
length field of an echo's answer is the request's.
-/
theorem icmp_replies (engine : Engine) :
    (∀ pkt : List UInt8,
      (buildIcmpPortUnreachable pkt).DoneWhen (Answerable pkt) (Unreachable pkt)) ∧
    (∀ pkt : TunPacket, (handleFakeIpIcmpEcho engine pkt.1).DoneWhen (IsFakeEcho engine pkt.1)
      (EchoReply pkt.1)) ∧
    ∀ pkt : List UInt8, handleFakeIpIcmpEcho engine pkt ≠ .panicked := by
  refine ⟨buildIcmpPortUnreachable_doneWhen, ?_, ?_⟩
  · intro ⟨pkt, short⟩
    rcases handleFakeIpIcmpEcho_doneWhen engine pkt with ⟨asked, reply, finished, rfl⟩ | refused
    · exact Checked.doneWhen_done asked finished
        (echoReply_echoed short asked.2.2.1 asked.2.2.2.1)
    · exact .inr refused
  · intro pkt
    exact (handleFakeIpIcmpEcho_doneWhen engine pkt).not_panicked

/-- A request of 28 bytes which says that it has 32 -/
def overstatedEcho : List UInt8 :=
  [0x45, 0, 0, 32, 0, 0, 0, 0, 64, 1, 0, 0, 10, 99, 0, 2, 198, 18, 0, 5, 8, 0, 0, 0, 0, 1, 0, 1]

theorem not_total_overstatedEcho :
    ¬∀ (engine : Engine) (pkt : TunPacket), (handleFakeIpIcmpEcho engine pkt.1).Safe
      fun reply => numberAt reply 2 2 = reply.length := by
  intro total
  have refuted : ¬(handleFakeIpIcmpEcho Engine.new overstatedEcho).Safe
      fun reply => numberAt reply 2 2 = reply.length := by
    rcases handleFakeIpIcmpEcho_doneWhen Engine.new overstatedEcho with
      ⟨-, reply, finished, rfl⟩ | ⟨ignored, -⟩
    · rw [finished]
      intro same
      have built : numberAt (echoed overstatedEcho) 2 2 ≠ (echoed overstatedEcho).length := by
        decide +kernel
      exact built same
    · exact absurd ⟨by decide, by decide, by decide, by decide, by decide, .inr (by decide),
        by decide⟩ ignored
  exact refuted (total Engine.new ⟨overstatedEcho, by decide⟩)

end Mirage.Tun
