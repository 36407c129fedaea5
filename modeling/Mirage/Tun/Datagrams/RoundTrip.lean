import Mirage.Tun.Datagrams.Layout

/-!
# A datagram which is built is parsed again

The lengths of a datagram stand in fields of 16 bits.  As long as they fit, what was
built is taken apart into the same addresses, ports and payload.  Nothing refuses a
longer payload: its lengths are cut down to their last 16 bits.
-/

namespace Mirage.Tun

open Mirage.Foundations

section Views

variable (smoltcp : Smoltcp)

theorem ipv4_ipv4Header {protocol : UInt8} (src dst : Ipv4Addr) {csum : ℕ} {rest : List UInt8}
    (fits : 20 + rest.length < 65536) :
    smoltcp.ipv4 (ipv4Header protocol (bigEndian 4 src.toNat) (bigEndian 4 dst.toNat)
        (20 + rest.length) csum ++ rest) = some ⟨protocol, src, dst, rest⟩ := by
  have header_length : (ipv4Header protocol (bigEndian 4 src.toNat) (bigEndian 4 dst.toNat)
      (20 + rest.length) csum).length = 20 :=
    ipv4Header_length (bigEndian_length _ _) (bigEndian_length _ _)
  rw [smoltcp.ipv4_plain]
  · rw [ipv4Header_protocol, numberAt, ipv4Header_src (bigEndian_length _ _), numberAt,
      ipv4Header_dst (bigEndian_length _ _) (bigEndian_length _ _), List.drop_left' header_length,
      ofNat_ofBigEndian_toNat 4 rfl, ofNat_ofBigEndian_toNat 4 rfl, UInt8.ofNat_toNat]
  · rw [List.length_append, header_length]
    exact Nat.le_add_right 20 _
  · rfl
  · rw [ipv4Header_total, List.length_append, header_length, Nat.mod_eq_of_lt fits]

theorem ipv6_ipv6Header {protocol : UInt8} (src dst : Ipv6Addr) {rest : List UInt8}
    (fits : rest.length < 65536) :
    smoltcp.ipv6 (ipv6Header protocol (bigEndian 16 src.toNat) (bigEndian 16 dst.toNat)
        rest.length ++ rest) = some ⟨protocol, src, dst, rest⟩ := by
  have header_length : (ipv6Header protocol (bigEndian 16 src.toNat) (bigEndian 16 dst.toNat)
      rest.length).length = 40 :=
    ipv6Header_length (bigEndian_length _ _) (bigEndian_length _ _)
  rw [smoltcp.ipv6_plain]
  · rw [ipv6Header_protocol, numberAt, ipv6Header_src (bigEndian_length _ _), numberAt,
      ipv6Header_dst (bigEndian_length _ _) (bigEndian_length _ _), List.drop_left' header_length,
      ofNat_ofBigEndian_toNat 16 rfl, ofNat_ofBigEndian_toNat 16 rfl, UInt8.ofNat_toNat]
  · rw [List.length_append, header_length]
    exact Nat.le_add_right 40 _
  · have first : numberAt (ipv6Header protocol (bigEndian 16 src.toNat) (bigEndian 16 dst.toNat)
        rest.length ++ rest) 0 1 = 0x60 := rfl
    rw [first]
    decide
  · rw [ipv6Header_payload, List.length_append, header_length, Nat.mod_eq_of_lt fits]

theorem udpSegment_total (srcPort dstPort : UInt16) (csum : ℕ) (payload : List UInt8) :
    numberAt (udpSegment srcPort dstPort csum payload) 4 2 = (8 + payload.length) % 65536 := by
  have field := @numberAt_append (bigEndian 2 srcPort.toNat ++ bigEndian 2 dstPort.toNat) 4 2 rfl
    (8 + payload.length) (bigEndian 2 csum ++ payload)
  simpa only [udpSegment, List.append_assoc, Nat.reducePow] using field

theorem udp_udpSegment (srcPort dstPort : UInt16) {csum : ℕ} {payload : List UInt8}
    (fits : 8 + payload.length < 65536) :
    smoltcp.udp (udpSegment srcPort dstPort csum payload) =
      some ⟨srcPort, dstPort, payload⟩ := by
  have srcField : numberAt (udpSegment srcPort dstPort csum payload) 0 2 = srcPort.toNat := by
    have field := @numberAt_append [] 0 2 rfl srcPort.toNat (bigEndian 2 dstPort.toNat ++
      (bigEndian 2 (8 + payload.length) ++ (bigEndian 2 csum ++ payload)))
    exact field.trans (Nat.mod_eq_of_lt srcPort.toNat_lt)
  have dstField : numberAt (udpSegment srcPort dstPort csum payload) 2 2 = dstPort.toNat := by
    have field := @numberAt_append (bigEndian 2 srcPort.toNat) 2 2 rfl dstPort.toNat
      (bigEndian 2 (8 + payload.length) ++ (bigEndian 2 csum ++ payload))
    exact field.trans (Nat.mod_eq_of_lt dstPort.toNat_lt)
  rw [smoltcp.udp_plain]
  · rw [srcField, dstField, UInt16.ofNat_toNat, UInt16.ofNat_toNat]
    rfl
  · rw [udpSegment_length]
    exact Nat.le_add_right 8 _
  · rw [udpSegment_total, udpSegment_length, Nat.mod_eq_of_lt fits]

theorem parseUdpDatagram_ipv4 (src dst : Ipv4Addr) (srcPort dstPort : UInt16) {csum udpCsum : ℕ}
    {payload : List UInt8} (fits : 20 + (8 + payload.length) < 65536) :
    parseUdpDatagram smoltcp (ipv4Header 17 (bigEndian 4 src.toNat) (bigEndian 4 dst.toNat)
        (20 + (8 + payload.length)) csum ++ udpSegment srcPort dstPort udpCsum payload) =
      some (⟨.v4 src, srcPort⟩, ⟨.v4 dst, dstPort⟩, payload) := by
  have segment_length := udpSegment_length srcPort dstPort udpCsum payload
  have ip := @ipv4_ipv4Header smoltcp 17 src dst csum (udpSegment srcPort dstPort udpCsum payload)
    (by omega)
  have udp := @udp_udpSegment smoltcp srcPort dstPort udpCsum payload (by omega)
  rw [segment_length] at ip
  change (smoltcp.ipv4 _).bind _ = _
  rw [ip, Option.bind_some, if_neg (by simp)]
  change (smoltcp.udp _).bind _ = _
  rw [udp, Option.bind_some]

theorem parseUdpDatagram_ipv6 (src dst : Ipv6Addr) (srcPort dstPort : UInt16) {udpCsum : ℕ}
    {payload : List UInt8} (fits : 8 + payload.length < 65536) :
    parseUdpDatagram smoltcp (ipv6Header 17 (bigEndian 16 src.toNat) (bigEndian 16 dst.toNat)
        (8 + payload.length) ++ udpSegment srcPort dstPort udpCsum payload) =
      some (⟨.v6 src, srcPort⟩, ⟨.v6 dst, dstPort⟩, payload) := by
  have segment_length := udpSegment_length srcPort dstPort udpCsum payload
  have ip := @ipv6_ipv6Header smoltcp 17 src dst (udpSegment srcPort dstPort udpCsum payload)
    (by omega)
  have udp := @udp_udpSegment smoltcp srcPort dstPort udpCsum payload fits
  rw [segment_length] at ip
  change (smoltcp.ipv6 _).bind _ = _
  rw [ip, Option.bind_some, if_neg (by simp)]
  change (smoltcp.udp _).bind _ = _
  rw [udp, Option.bind_some]

end Views

/-- Each length field of a datagram holds the length of what it counts. -/
def ExactLengths : IpAddr → List UInt8 → Prop
  | .v4 _, pkt => numberAt pkt 2 2 = pkt.length ∧ 20 + numberAt pkt (20 + 4) 2 = pkt.length
  | .v6 _, pkt => 40 + numberAt pkt 4 2 = pkt.length ∧ 40 + numberAt pkt (40 + 4) 2 = pkt.length

/-- A packet which is built has the lengths it names, and what was put into it comes out. -/
def Recovers (smoltcp : Smoltcp) (src dst : SocketAddr) (payload : List UInt8) : Prop :=
  (buildReplyIp src dst payload).Safe fun pkt =>
    ExactLengths src.ip pkt ∧ parseUdpDatagram smoltcp pkt = some (src, dst, payload)

/-- The lengths of the datagram fit their fields, if there is one. -/
def Fits (src dst : SocketAddr) (payload : List UInt8) : Prop :=
  match src.ip, dst.ip with
  | .v4 _, .v4 _ => payload.length ≤ 65507
  | .v6 _, .v6 _ => payload.length ≤ 65527
  | _, _ => True

section Recovers

variable {smoltcp : Smoltcp} {srcPort dstPort : UInt16} {payload : List UInt8}

theorem recovers_ipv4_iff (src dst : Ipv4Addr) :
    ((buildIpv4Udp src dst srcPort dstPort payload).Safe fun pkt => ExactLengths (.v4 src) pkt ∧
      parseUdpDatagram smoltcp pkt = some (⟨.v4 src, srcPort⟩, ⟨.v4 dst, dstPort⟩, payload)) ↔
        payload.length ≤ 65507 := by
  rw [buildIpv4Udp_eq]
  generalize checksum (ipv4Header _ _ _ _ 0) = csum
  generalize checksum _ = udpCsum
  have header_length : (ipv4Header 17 (bigEndian 4 src.toNat) (bigEndian 4 dst.toNat)
      (20 + (8 + payload.length)) csum).length = 20 :=
    ipv4Header_length (bigEndian_length _ _) (bigEndian_length _ _)
  simp only [Checked.Safe, ExactLengths]
  rw [numberAt_behind header_length, udpSegment_total, ipv4Header_total, List.length_append,
    header_length, udpSegment_length]
  constructor
  · rintro ⟨⟨total, -⟩, -⟩
    omega
  · intro fits
    exact ⟨by omega, parseUdpDatagram_ipv4 smoltcp src dst srcPort dstPort (by omega)⟩

theorem recovers_ipv6_iff (src dst : Ipv6Addr) :
    ((buildIpv6Udp src dst srcPort dstPort payload).Safe fun pkt => ExactLengths (.v6 src) pkt ∧
      parseUdpDatagram smoltcp pkt = some (⟨.v6 src, srcPort⟩, ⟨.v6 dst, dstPort⟩, payload)) ↔
        payload.length ≤ 65527 := by
  rw [buildIpv6Udp_eq]
  generalize checksum _ = udpCsum
  have header_length : (ipv6Header 17 (bigEndian 16 src.toNat) (bigEndian 16 dst.toNat)
      (8 + payload.length)).length = 40 :=
    ipv6Header_length (bigEndian_length _ _) (bigEndian_length _ _)
  simp only [Checked.Safe, ExactLengths]
  rw [numberAt_behind header_length, udpSegment_total, ipv6Header_payload, List.length_append,
    header_length, udpSegment_length]
  constructor
  · rintro ⟨⟨total, -⟩, -⟩
    omega
  · intro fits
    exact ⟨by omega, parseUdpDatagram_ipv6 smoltcp src dst srcPort dstPort (by omega)⟩

/-- A datagram is recovered exactly if its lengths fit. -/
theorem buildReplyIp_recovers_iff (smoltcp : Smoltcp) (src dst : SocketAddr)
    (payload : List UInt8) : Recovers smoltcp src dst payload ↔ Fits src dst payload := by
  rcases src with ⟨source | source, srcPort⟩
  · rcases dst with ⟨target | target, dstPort⟩
    · exact recovers_ipv4_iff source target
    · exact Iff.rfl
  · rcases dst with ⟨target | target, dstPort⟩
    · exact Iff.rfl
    · exact recovers_ipv6_iff source target

end Recovers

/-- The checks of smoltcp 0.13, and its accessors -/
def Smoltcp.checking : Smoltcp where
  ipv4 pkt :=
    let header := numberAt pkt 0 1 % 2 ^ 4 * 4
    let total := numberAt pkt 2 2
    if 20 ≤ pkt.length ∧ header ≤ pkt.length ∧ header ≤ total ∧ total ≤ pkt.length then
      some
        { nextHeader := UInt8.ofNat (numberAt pkt 9 1)
          srcAddr := BitVec.ofNat 32 (numberAt pkt 12 4)
          dstAddr := BitVec.ofNat 32 (numberAt pkt 16 4)
          payload := (pkt.take total).drop header }
    else none
  ipv6 pkt :=
    let total := 40 + numberAt pkt 4 2
    if 40 ≤ pkt.length ∧ total ≤ pkt.length then
      some
        { nextHeader := UInt8.ofNat (numberAt pkt 6 1)
          srcAddr := BitVec.ofNat 128 (numberAt pkt 8 16)
          dstAddr := BitVec.ofNat 128 (numberAt pkt 24 16)
          payload := (pkt.take total).drop 40 }
    else none
  udp pkt :=
    let length := numberAt pkt 4 2
    if 8 ≤ pkt.length ∧ length ≤ pkt.length ∧ 8 ≤ length then
      some
        { srcPort := UInt16.ofNat (numberAt pkt 0 2)
          dstPort := UInt16.ofNat (numberAt pkt 2 2)
          payload := (pkt.take length).drop 8 }
    else none
  ipv4_plain pkt long first total := by
    simp only [first, total, Nat.reducePow, Nat.reduceMod, Nat.reduceMul, List.take_length]
    rw [if_pos (by omega)]
  ipv6_plain pkt long version total := by
    simp only [total, List.take_length]
    rw [if_pos (by omega)]
  udp_plain pkt long total := by
    simp only [total, List.take_length]
    rw [if_pos (by omega)]

/-- A payload which a frame of the tunnel can bring is too long for a datagram. -/
theorem not_recovers_longPayload :
    ¬Recovers .checking ⟨.v4 (ipv4 198 18 0 5), 443⟩ ⟨.v4 (ipv4 10 99 0 2), 53421⟩
      (List.replicate 65508 0) := by
  have long : (List.replicate 65508 (0 : UInt8)).length = 65508 := List.length_replicate
  generalize List.replicate 65508 (0 : UInt8) = payload at *
  intro recovers
  have short := (recovers_ipv4_iff (ipv4 198 18 0 5) (ipv4 10 99 0 2)).mp recovers
  omega

end Mirage.Tun
