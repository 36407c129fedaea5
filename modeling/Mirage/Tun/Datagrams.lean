import Mirage.Foundations.Buffers
import Mirage.Foundations.Net
import Mirage.Foundations.OnesComplement

/-!
# Packets which are built and parsed

`build_reply_ip` builds the datagrams of the way back, and `parse_udp_datagram`
takes those of the device apart; smoltcp's views of a packet are a parameter.

Lengths are narrowed to 16 bits when they are written, and the checksum adds up in
a `u32`, which wraps in the released build.
-/

namespace Mirage.Tun

open Mirage.Foundations
open Mirage.Foundations.Checked (slice overwrite writes)

/-- An address as `SocketAddr::new` makes it -/
structure SocketAddr where
  ip : IpAddr
  port : UInt16
  deriving DecidableEq

def checksum (data : List UInt8) : ℕ :=
  let sum := (words data).foldl (fun sum word => (sum + word) % 2 ^ 32) 0
  0xFFFF - foldCarries sum

def buildIpv4Udp (src dst : Ipv4Addr) (srcPort dstPort : UInt16) (payload : List UInt8) :
    Checked (List UInt8) := do
  let udpLen := 8 + payload.length
  let totalLen := 20 + udpLen
  let pkt ← writes (List.replicate totalLen 0)
    [(0, [0x45]), (1, [0x00]), (2, bigEndian 2 totalLen), (4, bigEndian 2 0), (6, bigEndian 2 0),
      (8, [64]), (9, [17]), (12, bigEndian 4 src.toNat), (16, bigEndian 4 dst.toNat)]
  let ipCsum := checksum (← slice pkt 0 20)
  let pkt ← overwrite pkt 10 (bigEndian 2 ipCsum)
  let pkt ← writes pkt
    [(20, bigEndian 2 srcPort.toNat), (22, bigEndian 2 dstPort.toNat), (24, bigEndian 2 udpLen),
      (26, [0, 0]), (28, payload)]
  let u ← slice pkt 20 (20 + udpLen)
  let pseudo := bigEndian 4 src.toNat ++ (bigEndian 4 dst.toNat ++ ([0, 17] ++
    (bigEndian 2 udpLen ++ u)))
  overwrite pkt 26 (bigEndian 2 (checksum pseudo))

def buildIpv6Udp (src dst : Ipv6Addr) (srcPort dstPort : UInt16) (payload : List UInt8) :
    Checked (List UInt8) := do
  let udpLen := 8 + payload.length
  let totalLen := 40 + udpLen
  let pkt ← writes (List.replicate totalLen 0)
    [(0, [0x60]), (4, bigEndian 2 udpLen), (6, [17]), (7, [64]), (8, bigEndian 16 src.toNat),
      (24, bigEndian 16 dst.toNat), (40, bigEndian 2 srcPort.toNat),
      (42, bigEndian 2 dstPort.toNat), (44, bigEndian 2 udpLen), (46, [0, 0]), (48, payload)]
  let u ← slice pkt 40 (40 + udpLen)
  let pseudo := bigEndian 16 src.toNat ++ (bigEndian 16 dst.toNat ++ (bigEndian 4 udpLen ++
    ([0, 0, 0, 17] ++ u)))
  overwrite pkt 46 (bigEndian 2 (checksum pseudo))

/-- The two families are not mixed. -/
def buildReplyIp (src dst : SocketAddr) (payload : List UInt8) : Checked (List UInt8) :=
  match src.ip, dst.ip with
  | .v4 s, .v4 d => buildIpv4Udp s d src.port dst.port payload
  | .v6 s, .v6 d => buildIpv6Udp s d src.port dst.port payload
  | _, _ => .refused

/-! ## Packets which come in -/

/-- A packet of the internet layer, as smoltcp shows it -/
structure IpView (Address : Type) where
  nextHeader : UInt8
  srcAddr : Address
  dstAddr : Address
  payload : List UInt8
  deriving DecidableEq

structure UdpView where
  srcPort : UInt16
  dstPort : UInt16
  payload : List UInt8
  deriving DecidableEq

/--
`new_checked` of smoltcp's `Ipv4Packet`, `Ipv6Packet` and `UdpPacket`, and what the
accessors then return.  A packet without options whose length field is its length is
accepted; checksums are not looked at.
-/
structure Smoltcp where
  ipv4 : List UInt8 → Option (IpView Ipv4Addr)
  ipv6 : List UInt8 → Option (IpView Ipv6Addr)
  udp : List UInt8 → Option UdpView
  ipv4_plain : ∀ pkt, 20 ≤ pkt.length → numberAt pkt 0 1 = 0x45 →
    numberAt pkt 2 2 = pkt.length →
    ipv4 pkt = some
      { nextHeader := UInt8.ofNat (numberAt pkt 9 1)
        srcAddr := BitVec.ofNat 32 (numberAt pkt 12 4)
        dstAddr := BitVec.ofNat 32 (numberAt pkt 16 4)
        payload := pkt.drop 20 }
  ipv6_plain : ∀ pkt, 40 ≤ pkt.length → numberAt pkt 0 1 / 2 ^ 4 = 6 →
    40 + numberAt pkt 4 2 = pkt.length →
    ipv6 pkt = some
      { nextHeader := UInt8.ofNat (numberAt pkt 6 1)
        srcAddr := BitVec.ofNat 128 (numberAt pkt 8 16)
        dstAddr := BitVec.ofNat 128 (numberAt pkt 24 16)
        payload := pkt.drop 40 }
  udp_plain : ∀ pkt, 8 ≤ pkt.length → numberAt pkt 4 2 = pkt.length →
    udp pkt = some
      { srcPort := UInt16.ofNat (numberAt pkt 0 2)
        dstPort := UInt16.ofNat (numberAt pkt 2 2)
        payload := pkt.drop 8 }

def parseUdpDatagram (smoltcp : Smoltcp) (pkt : List UInt8) :
    Option (SocketAddr × SocketAddr × List UInt8) :=
  match pkt with
  | [] => none
  | first :: _ =>
      match first.toNat / 2 ^ 4 with
      | 4 => do
          let ip ← smoltcp.ipv4 pkt
          if ip.nextHeader ≠ 17 then none
          else
            let udp ← smoltcp.udp ip.payload
            some (⟨.v4 ip.srcAddr, udp.srcPort⟩, ⟨.v4 ip.dstAddr, udp.dstPort⟩, udp.payload)
      | 6 => do
          let ip ← smoltcp.ipv6 pkt
          if ip.nextHeader ≠ 17 then none
          else
            let udp ← smoltcp.udp ip.payload
            some (⟨.v6 ip.srcAddr, udp.srcPort⟩, ⟨.v6 ip.dstAddr, udp.dstPort⟩, udp.payload)
      | _ => none

end Mirage.Tun
