import Mirage.Tun.Datagrams.Layout

/-!
# The checksums of datagrams

A receiver adds up the header, and the pseudo-header with the segment, and finds all
ones.  The code's sums do so as long as they stay within 32 bits.  A checksum which
comes out as 0 is sent as it is, which IPv6 does not allow.
-/

namespace Mirage.Tun

open Mirage.Foundations

/-! ### The sum in a `u32` -/

theorem foldl_wrapping (numbers : List ℕ) (start : ℕ) :
    numbers.foldl (fun sum word => (sum + word) % 2 ^ 32) (start % 2 ^ 32) =
      (start + numbers.sum) % 2 ^ 32 := by
  induction numbers generalizing start with
  | nil => rfl
  | cons word numbers ih =>
      rw [List.foldl_cons, Nat.mod_add_mod, ih, List.sum_cons, Nat.add_assoc]

theorem checksum_eq (data : List UInt8) :
    checksum data = 0xFFFF - foldCarries (wordSum data % 2 ^ 32) := by
  have summed := foldl_wrapping (words data) 0
  rw [Nat.zero_mod, Nat.zero_add] at summed
  rw [checksum, summed, wordSum]

theorem checksum_lt (data : List UInt8) : checksum data < 2 ^ 16 := by
  rw [checksum_eq]
  omega

/-- What the `u32` has lost of a sum makes no difference to its carries. -/
def SumKept (data : List UInt8) : Prop :=
  wordSum data / 2 ^ 32 % 65535 = 0

theorem sumKept_of_lt {data : List UInt8} (small : wordSum data < 2 ^ 32) : SumKept data := by
  rw [SumKept, Nat.div_eq_of_lt small]

/-- A checksum which is written to its field makes the sum all ones. -/
theorem verifies_checksum_iff {front back : List UInt8} (even : front.length % 2 = 0) :
    Verifies (front ++ (bigEndian 2 (checksum (front ++ ([0, 0] ++ back))) ++ back)) ↔
      SumKept (front ++ ([0, 0] ++ back)) := by
  rw [Verifies, wordSum_field even (checksum_lt _), foldCarries_eq_ones_iff, SumKept, checksum_eq]
  generalize wordSum (front ++ ([0, 0] ++ back)) = sum at *
  have zero : sum % 2 ^ 32 = 0 → foldCarries (sum % 2 ^ 32) = 0 := by
    intro none
    rw [none, foldCarries_zero]
  have folded := foldCarries_modEq (sum % 2 ^ 32)
  have small := foldCarries_lt (sum % 2 ^ 32)
  generalize foldCarries (sum % 2 ^ 32) = carried at *
  omega

/-- All that is sent is short enough for the sum. -/
theorem verifies_checksum {front back : List UInt8} (even : front.length % 2 = 0)
    (short : (front ++ ([0, 0] ++ back)).length ≤ 2 ^ 17) :
    Verifies (front ++ (bigEndian 2 (checksum (front ++ ([0, 0] ++ back))) ++ back)) := by
  rw [verifies_checksum_iff even]
  apply sumKept_of_lt
  have bound := wordSum_le (front ++ ([0, 0] ++ back))
  omega

/-- The checksum of the data is not 0. -/
def SumUsable (data : List UInt8) : Prop :=
  wordSum data % 2 ^ 32 = 0 ∨ wordSum data % 65535 ≠ 0

theorem checksum_ne_zero_iff {data : List UInt8} (kept : SumKept data) :
    checksum data ≠ 0 ↔ SumUsable data := by
  have zero : checksum data = 0 ↔ foldCarries (wordSum data % 2 ^ 32) = 0xFFFF := by
    have small := foldCarries_lt (wordSum data % 2 ^ 32)
    rw [checksum_eq]
    omega
  rw [Ne, zero, foldCarries_eq_ones_iff, SumUsable]
  rw [SumKept] at kept
  omega

/-! ### The receiver's check -/

/-- The addresses in the pseudo-headers are those of the packet. -/
def ChecksumsHold : IpAddr → List UInt8 → Prop
  | .v4 _, pkt =>
      Verifies (pkt.take 20) ∧
        Verifies (ipv4Pseudo 17 (bytesAt pkt 12 4) (bytesAt pkt 16 4) (pkt.length - 20) ++
          pkt.drop 20)
  | .v6 _, pkt =>
      Verifies (ipv6Pseudo 17 (bytesAt pkt 8 16) (bytesAt pkt 24 16) (pkt.length - 40) ++
          pkt.drop 40) ∧
        numberAt pkt (40 + 6) 2 ≠ 0

section Segments

variable {srcPort dstPort : UInt16} {payload pseudo : List UInt8}

/-- What the checksum of a datagram is computed from -/
def summed (pseudo : List UInt8) (srcPort dstPort : UInt16) (payload : List UInt8) : List UInt8 :=
  pseudo ++ udpSegment srcPort dstPort 0 payload

theorem udpSegment_verifies_iff (even : pseudo.length % 2 = 0) :
    Verifies (pseudo ++
      udpSegment srcPort dstPort (checksum (summed pseudo srcPort dstPort payload)) payload) ↔
      SumKept (summed pseudo srcPort dstPort payload) := by
  have split : ∀ csum, pseudo ++ udpSegment srcPort dstPort csum payload =
      (pseudo ++ (bigEndian 2 srcPort.toNat ++ (bigEndian 2 dstPort.toNat ++
        bigEndian 2 (8 + payload.length)))) ++ (bigEndian 2 csum ++ payload) := by
    intro csum
    simp only [udpSegment, List.append_assoc]
  have blank : bigEndian 2 0 = [0, 0] := rfl
  rw [summed, split, split, blank]
  apply verifies_checksum_iff
  simp [even, Nat.add_mod]

theorem udpSegment_checksum (csum : ℕ) (small : csum < 2 ^ 16) :
    numberAt (udpSegment srcPort dstPort csum payload) 6 2 = csum := by
  have field := @numberAt_append (bigEndian 2 srcPort.toNat ++ (bigEndian 2 dstPort.toNat ++
    bigEndian 2 (8 + payload.length))) 6 2 rfl csum payload
  rw [Nat.mod_eq_of_lt (by simpa using small)] at field
  simpa only [udpSegment, List.append_assoc] using field

end Segments

theorem ipv4Header_verifies {protocol : UInt8} {src dst : List UInt8} (total : ℕ)
    (srcSize : src.length = 4) (dstSize : dst.length = 4) :
    Verifies (ipv4Header protocol src dst total
      (checksum (ipv4Header protocol src dst total 0))) := by
  have split : ∀ csum, ipv4Header protocol src dst total csum =
      ([0x45, 0] ++ (bigEndian 2 total ++ [0, 0, 0, 0, 64, protocol])) ++
        (bigEndian 2 csum ++ (src ++ dst)) := by
    intro csum
    simp only [ipv4Header, List.append_assoc]
  have blank : bigEndian 2 0 = [0, 0] := rfl
  rw [split, split, blank]
  apply verifies_checksum
  · simp
  · simp [srcSize, dstSize]

section Replies

variable (srcPort dstPort : UInt16) (payload : List UInt8)

theorem ipv4_checksumsHold_iff (src dst : Ipv4Addr) :
    (buildIpv4Udp src dst srcPort dstPort payload).Safe (ChecksumsHold (.v4 src)) ↔
      SumKept (summed (ipv4Pseudo 17 (bigEndian 4 src.toNat) (bigEndian 4 dst.toNat)
        (8 + payload.length)) srcPort dstPort payload) := by
  rw [buildIpv4Udp_eq]
  have source_length := bigEndian_length 4 src.toNat
  have target_length := bigEndian_length 4 dst.toNat
  generalize bigEndian 4 src.toNat = source at *
  generalize bigEndian 4 dst.toNat = target at *
  have header_length : ∀ csum, (ipv4Header 17 source target (20 + (8 + payload.length))
      csum).length = 20 := fun csum => ipv4Header_length source_length target_length
  simp only [Checked.Safe, ChecksumsHold]
  rw [ipv4Header_src source_length, ipv4Header_dst source_length target_length,
    List.take_left' (header_length _), List.drop_left' (header_length _), List.length_append,
    header_length, udpSegment_length, Nat.add_sub_cancel_left]
  refine (and_iff_right (ipv4Header_verifies _ source_length target_length)).trans ?_
  apply udpSegment_verifies_iff
  simp [ipv4Pseudo, source_length, target_length]

theorem ipv6_checksumsHold_iff (src dst : Ipv6Addr) :
    (buildIpv6Udp src dst srcPort dstPort payload).Safe (ChecksumsHold (.v6 src)) ↔
      SumKept (summed (ipv6Pseudo 17 (bigEndian 16 src.toNat) (bigEndian 16 dst.toNat)
        (8 + payload.length)) srcPort dstPort payload) ∧
      SumUsable (summed (ipv6Pseudo 17 (bigEndian 16 src.toNat) (bigEndian 16 dst.toNat)
        (8 + payload.length)) srcPort dstPort payload) := by
  rw [buildIpv6Udp_eq]
  have source_length := bigEndian_length 16 src.toNat
  have target_length := bigEndian_length 16 dst.toNat
  generalize bigEndian 16 src.toNat = source at *
  generalize bigEndian 16 dst.toNat = target at *
  have header_length : (ipv6Header 17 source target (8 + payload.length)).length = 40 :=
    ipv6Header_length source_length target_length
  set pseudo := ipv6Pseudo 17 source target (8 + payload.length) with pseudo_eq
  have even : pseudo.length % 2 = 0 := by
    simp [pseudo_eq, ipv6Pseudo, source_length, target_length]
  have verified := @udpSegment_verifies_iff srcPort dstPort payload pseudo even
  simp only [Checked.Safe, ChecksumsHold]
  rw [ipv6Header_src source_length, ipv6Header_dst source_length target_length,
    List.drop_left' header_length, numberAt_behind header_length,
    udpSegment_checksum _ (checksum_lt _), List.length_append, header_length, udpSegment_length,
    Nat.add_sub_cancel_left, ← pseudo_eq]
  change Verifies (pseudo ++ udpSegment srcPort dstPort
    (checksum (summed pseudo srcPort dstPort payload)) payload) ∧
      checksum (summed pseudo srcPort dstPort payload) ≠ 0 ↔ _
  rw [verified]
  exact and_congr_right checksum_ne_zero_iff

end Replies

/-- The sum of a reply, of its pseudo-header and of a segment without a checksum -/
def SumsRight (src dst : SocketAddr) (payload : List UInt8) : Prop :=
  match src.ip, dst.ip with
  | .v4 s, .v4 d =>
      SumKept (summed (ipv4Pseudo 17 (bigEndian 4 s.toNat) (bigEndian 4 d.toNat)
        (8 + payload.length)) src.port dst.port payload)
  | .v6 s, .v6 d =>
      let data := summed (ipv6Pseudo 17 (bigEndian 16 s.toNat) (bigEndian 16 d.toNat)
        (8 + payload.length)) src.port dst.port payload
      SumKept data ∧ SumUsable data
  | _, _ => True

/-- Every reply verifies whose sum is right. -/
theorem buildReplyIp_checksumsHold_iff (src dst : SocketAddr) (payload : List UInt8) :
    (buildReplyIp src dst payload).Safe (ChecksumsHold src.ip) ↔ SumsRight src dst payload := by
  rcases src with ⟨source | source, srcPort⟩
  · rcases dst with ⟨target | target, dstPort⟩
    · exact ipv4_checksumsHold_iff srcPort dstPort payload source target
    · exact Iff.rfl
  · rcases dst with ⟨target | target, dstPort⟩
    · exact Iff.rfl
    · exact ipv6_checksumsHold_iff srcPort dstPort payload source target

/-- A reply of three bytes, with a checksum which came out as 0 -/
def unsummedReply : List UInt8 :=
  [0x60, 0, 0, 0, 0, 11, 17, 64, 0x20, 0x01, 0x48, 0x60, 0x48, 0x60, 0, 0, 0, 0, 0, 0, 0, 0, 0x88,
    0x88, 0xFD, 0, 0, 0, 0, 0, 0, 0, 0, 0, 0, 0, 0, 0, 0, 2, 1, 187, 62, 103, 0, 11, 0, 0, 0x68,
    0x69, 0x21]

theorem not_checksumsHold_unsummedReply :
    ¬(buildReplyIp ⟨.v6 0x20014860486000000000000000008888, 443⟩
        ⟨.v6 0xfd000000000000000000000000000002, 15975⟩ [0x68, 0x69, 0x21]).Safe
      (ChecksumsHold (.v6 0x20014860486000000000000000008888)) := by
  have built : buildReplyIp ⟨.v6 0x20014860486000000000000000008888, 443⟩
      ⟨.v6 0xfd000000000000000000000000000002, 15975⟩ [0x68, 0x69, 0x21] =
        .done unsummedReply := by
    decide +kernel
  rw [built]
  rintro ⟨-, transmitted⟩
  exact transmitted rfl

end Mirage.Tun
