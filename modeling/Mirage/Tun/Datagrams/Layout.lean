import Mirage.Tun.Datagrams

/-!
# The layout of the datagrams

What the two builders write to their buffers, as one header behind the other.  No
write is out of bounds, whatever the payload.
-/

namespace Mirage.Tun

open Mirage.Foundations
open Mirage.Foundations.Checked (slice overwrite writes)

section Layout

variable (protocol : UInt8) (src dst : List UInt8)

def ipv4Header (totalLen csum : ℕ) : List UInt8 :=
  [0x45, 0] ++ (bigEndian 2 totalLen ++ ([0, 0, 0, 0, 64, protocol] ++
    (bigEndian 2 csum ++ (src ++ dst))))

def ipv6Header (payloadLen : ℕ) : List UInt8 :=
  [0x60, 0, 0, 0] ++ (bigEndian 2 payloadLen ++ ([protocol, 64] ++ (src ++ dst)))

/-- What a checksum covers in front of the segment -/
def ipv4Pseudo (length : ℕ) : List UInt8 :=
  src ++ (dst ++ ([0, protocol] ++ bigEndian 2 length))

def ipv6Pseudo (length : ℕ) : List UInt8 :=
  src ++ (dst ++ (bigEndian 4 length ++ [0, 0, 0, protocol]))

def udpSegment (srcPort dstPort : UInt16) (csum : ℕ) (payload : List UInt8) : List UInt8 :=
  bigEndian 2 srcPort.toNat ++ (bigEndian 2 dstPort.toNat ++ (bigEndian 2 (8 + payload.length) ++
    (bigEndian 2 csum ++ payload)))

end Layout

section Fields

variable {protocol : UInt8} {src dst rest : List UInt8} {length csum : ℕ}

theorem ipv4Header_length (srcSize : src.length = 4) (dstSize : dst.length = 4) :
    (ipv4Header protocol src dst length csum).length = 20 := by
  simp [ipv4Header, srcSize, dstSize]

theorem ipv4Header_total :
    numberAt (ipv4Header protocol src dst length csum ++ rest) 2 2 = length % 65536 := by
  have field := @numberAt_append [0x45, 0] 2 2 rfl length
    (([0, 0, 0, 0, 64, protocol] ++ (bigEndian 2 csum ++ (src ++ dst))) ++ rest)
  simpa only [ipv4Header, List.append_assoc, Nat.reducePow] using field

theorem ipv4Header_protocol :
    numberAt (ipv4Header protocol src dst length csum ++ rest) 9 1 = protocol.toNat := by
  have field := @bytesAt_append ([0x45, 0] ++ (bigEndian 2 length ++ [0, 0, 0, 0, 64])) [protocol]
    9 1 rfl rfl ((bigEndian 2 csum ++ (src ++ dst)) ++ rest)
  rw [numberAt, ipv4Header]
  simp only [List.append_assoc, List.cons_append, List.nil_append] at field ⊢
  rw [field]
  simp [ofBigEndian]

theorem ipv4Header_src (srcSize : src.length = 4) :
    bytesAt (ipv4Header protocol src dst length csum ++ rest) 12 4 = src := by
  have field := @bytesAt_append ([0x45, 0] ++ (bigEndian 2 length ++ ([0, 0, 0, 0, 64, protocol] ++
    bigEndian 2 csum))) src 12 4 rfl srcSize (dst ++ rest)
  simpa only [ipv4Header, List.append_assoc] using field

theorem ipv4Header_dst (srcSize : src.length = 4) (dstSize : dst.length = 4) :
    bytesAt (ipv4Header protocol src dst length csum ++ rest) 16 4 = dst := by
  have field := @bytesAt_append ([0x45, 0] ++ (bigEndian 2 length ++ ([0, 0, 0, 0, 64, protocol] ++
    (bigEndian 2 csum ++ src)))) dst 16 4 (by simp [srcSize]) dstSize rest
  simpa only [ipv4Header, List.append_assoc] using field

theorem ipv6Header_length (srcSize : src.length = 16) (dstSize : dst.length = 16) :
    (ipv6Header protocol src dst length).length = 40 := by
  simp [ipv6Header, srcSize, dstSize]

theorem ipv6Header_payload :
    numberAt (ipv6Header protocol src dst length ++ rest) 4 2 = length % 65536 := by
  have field := @numberAt_append [0x60, 0, 0, 0] 4 2 rfl length
    (([protocol, 64] ++ (src ++ dst)) ++ rest)
  simpa only [ipv6Header, List.append_assoc, Nat.reducePow] using field

theorem ipv6Header_protocol :
    numberAt (ipv6Header protocol src dst length ++ rest) 6 1 = protocol.toNat := by
  have field := @bytesAt_append ([0x60, 0, 0, 0] ++ bigEndian 2 length) [protocol] 6 1 rfl rfl
    (([64] ++ (src ++ dst)) ++ rest)
  rw [numberAt, ipv6Header]
  simp only [List.append_assoc, List.cons_append, List.nil_append] at field ⊢
  rw [field]
  simp [ofBigEndian]

theorem ipv6Header_src (srcSize : src.length = 16) :
    bytesAt (ipv6Header protocol src dst length ++ rest) 8 16 = src := by
  have field := @bytesAt_append ([0x60, 0, 0, 0] ++ (bigEndian 2 length ++ [protocol, 64])) src 8 16
    rfl srcSize (dst ++ rest)
  simpa only [ipv6Header, List.append_assoc] using field

theorem ipv6Header_dst (srcSize : src.length = 16) (dstSize : dst.length = 16) :
    bytesAt (ipv6Header protocol src dst length ++ rest) 24 16 = dst := by
  have field := @bytesAt_append ([0x60, 0, 0, 0] ++ (bigEndian 2 length ++ ([protocol, 64] ++ src)))
    dst 24 16 (by simp [srcSize]) dstSize rest
  simpa only [ipv6Header, List.append_assoc] using field

end Fields

theorem udpSegment_length (srcPort dstPort : UInt16) (csum : ℕ) (payload : List UInt8) :
    (udpSegment srcPort dstPort csum payload).length = 8 + payload.length := by
  simp [udpSegment]
  omega

theorem overwrite_ipv4Header {protocol : UInt8} {src dst : List UInt8} {totalLen csum new : ℕ}
    (rest : List UInt8) :
    overwrite (ipv4Header protocol src dst totalLen csum ++ rest) 10 (bigEndian 2 new) =
      .done (ipv4Header protocol src dst totalLen new ++ rest) := by
  have split : ∀ csum, ipv4Header protocol src dst totalLen csum ++ rest =
      ([0x45, 0] ++ (bigEndian 2 totalLen ++ [0, 0, 0, 0, 64, protocol])) ++
        (bigEndian 2 csum ++ ((src ++ dst) ++ rest)) := by
    intro csum
    simp only [ipv4Header, List.append_assoc]
  rw [split, split]
  exact Checked.overwrite_append rfl (by rw [bigEndian_length, bigEndian_length])

theorem overwrite_udpSegment {srcPort dstPort : UInt16} {csum new place : ℕ}
    {payload front : List UInt8} (at_field : place = front.length + 6) :
    overwrite (front ++ udpSegment srcPort dstPort csum payload) place (bigEndian 2 new) =
      .done (front ++ udpSegment srcPort dstPort new payload) := by
  have split : ∀ csum, front ++ udpSegment srcPort dstPort csum payload =
      (front ++ (bigEndian 2 srcPort.toNat ++ (bigEndian 2 dstPort.toNat ++
        bigEndian 2 (8 + payload.length)))) ++ (bigEndian 2 csum ++ payload) := by
    intro csum
    simp only [udpSegment, List.append_assoc]
  rw [split, split]
  apply Checked.overwrite_append
  · simp [at_field]
  · rw [bigEndian_length, bigEndian_length]

theorem buildIpv4Udp_eq (src dst : Ipv4Addr) (srcPort dstPort : UInt16) (payload : List UInt8) :
    buildIpv4Udp src dst srcPort dstPort payload =
      .done (ipv4Header 17 (bigEndian 4 src.toNat) (bigEndian 4 dst.toNat)
          (20 + (8 + payload.length)) (checksum (ipv4Header 17 (bigEndian 4 src.toNat)
            (bigEndian 4 dst.toNat) (20 + (8 + payload.length)) 0)) ++
        udpSegment srcPort dstPort (checksum (ipv4Pseudo 17 (bigEndian 4 src.toNat)
          (bigEndian 4 dst.toNat) (8 + payload.length) ++ udpSegment srcPort dstPort 0 payload))
          payload) := by
  rw [buildIpv4Udp]
  have source_length := bigEndian_length 4 src.toNat
  have target_length := bigEndian_length 4 dst.toNat
  generalize bigEndian 4 src.toNat = source at *
  generalize bigEndian 4 dst.toNat = target at *
  set header := ipv4Header 17 source target (20 + (8 + payload.length)) with header_eq
  have header_length : ∀ csum, (header csum).length = 20 :=
    fun csum => ipv4Header_length source_length target_length
  have filled : writes (List.replicate (20 + (8 + payload.length)) 0)
      [(0, [0x45]), (1, [0x00]), (2, bigEndian 2 (20 + (8 + payload.length))), (4, bigEndian 2 0),
        (6, bigEndian 2 0), (8, [64]), (9, [17]), (12, source), (16, target)] =
      .done (header 0 ++ List.replicate (8 + payload.length) 0) := by
    apply Checked.writes_start
    · simp [Checked.layout, header, ipv4Header, bigEndian, source_length]
    · simp [Checked.InOrder, source_length, target_length]
    · rw [header_length]
  have segment_filled : ∀ csum, writes (header csum ++ List.replicate (8 + payload.length) 0)
      [(20, bigEndian 2 srcPort.toNat), (22, bigEndian 2 dstPort.toNat),
        (24, bigEndian 2 (8 + payload.length)), (26, [0, 0]), (28, payload)] =
      .done (header csum ++ udpSegment srcPort dstPort 0 payload) := by
    intro csum
    rw [@Checked.writes_layout _ _ _ _ (udpSegment srcPort dstPort 0 payload) _ 0]
    · rw [List.replicate_zero, List.append_nil]
    · rw [header_length]
      simp [Checked.layout, udpSegment, bigEndian]
    · rw [header_length]
      simp [Checked.InOrder]
      omega
    · rw [udpSegment_length]
      rfl
  rw [filled, Checked.done_bind, Checked.slice_prefix (header_length 0).symm]
  simp only [Checked.done_bind]
  rw [overwrite_ipv4Header, Checked.done_bind, segment_filled, Checked.done_bind]
  have whole : 20 + (8 + payload.length) = (header (checksum (header 0)) ++
      udpSegment srcPort dstPort 0 payload).length := by
    rw [List.length_append, header_length, udpSegment_length]
  rw [whole, Checked.slice_suffix (header_length _).symm]
  simp only [Checked.done_bind]
  rw [overwrite_udpSegment (by rw [header_length])]
  simp only [ipv4Pseudo, List.append_assoc]

theorem buildIpv6Udp_eq (src dst : Ipv6Addr) (srcPort dstPort : UInt16) (payload : List UInt8) :
    buildIpv6Udp src dst srcPort dstPort payload =
      .done (ipv6Header 17 (bigEndian 16 src.toNat) (bigEndian 16 dst.toNat)
          (8 + payload.length) ++
        udpSegment srcPort dstPort (checksum (ipv6Pseudo 17 (bigEndian 16 src.toNat)
          (bigEndian 16 dst.toNat) (8 + payload.length) ++ udpSegment srcPort dstPort 0 payload))
          payload) := by
  rw [buildIpv6Udp]
  have source_length := bigEndian_length 16 src.toNat
  have target_length := bigEndian_length 16 dst.toNat
  generalize bigEndian 16 src.toNat = source at *
  generalize bigEndian 16 dst.toNat = target at *
  set header := ipv6Header 17 source target (8 + payload.length) with header_eq
  have header_length : header.length = 40 := ipv6Header_length source_length target_length
  have whole : 40 + (8 + payload.length) =
      (header ++ udpSegment srcPort dstPort 0 payload).length := by
    rw [List.length_append, header_length, udpSegment_length]
  have filled : writes (List.replicate (40 + (8 + payload.length)) 0)
      [(0, [0x60]), (4, bigEndian 2 (8 + payload.length)), (6, [17]), (7, [64]), (8, source),
        (24, target), (40, bigEndian 2 srcPort.toNat), (42, bigEndian 2 dstPort.toNat),
        (44, bigEndian 2 (8 + payload.length)), (46, [0, 0]), (48, payload)] =
      .done (header ++ udpSegment srcPort dstPort 0 payload) := by
    apply Checked.writes_whole
    · simp [Checked.layout, header, ipv6Header, udpSegment, bigEndian, source_length,
        target_length]
    · simp [Checked.InOrder, source_length, target_length]
      omega
    · exact whole
  rw [filled, Checked.done_bind, whole, Checked.slice_suffix header_length.symm]
  simp only [Checked.done_bind]
  rw [overwrite_udpSegment (by rw [header_length])]
  simp only [ipv6Pseudo, List.append_assoc]

end Mirage.Tun
