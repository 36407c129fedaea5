import Mirage.Foundations.Net
import Mirage.Proxy.UdpMux.Framing

/-!
# Frames of a flow with a tunnel of its own

The older way of relaying UDP: one tunnel for each flow, whose frames are

    [2B frameLen][1B ATYP][ADDR][2B port][payload]

where `frameLen` counts the bytes after it.  Frames of the way back name an address,
too, and it is skipped.
-/

namespace Mirage.Tun

open Mirage.Foundations
open Mirage.Proxy (Complete)

/-- `None` if no frame can be built: the length would not fit, or there is no address. -/
def buildFrame (targetDomain : Option String) (targetIp : Option IpAddr) (dstPort : UInt16)
    (payload : List UInt8) : Option (List UInt8) :=
  match targetDomain with
  | some domain =>
      let dlen := min domain.toUTF8.toList.length 255
      let bodyLen := 1 + 1 + dlen + 2 + payload.length
      if bodyLen > 65535 then none
      else
        some (bigEndian 2 bodyLen ++ (3 :: UInt8.ofNat dlen :: (domain.toUTF8.toList.take dlen ++
          (bigEndian 2 dstPort.toNat ++ payload))))
  | none => do
      match ← targetIp with
      | .v4 ip =>
          let bodyLen := 1 + 4 + 2 + payload.length
          if bodyLen > 65535 then none
          else
            some (bigEndian 2 bodyLen ++ (1 :: (bigEndian 4 ip.toNat ++
              (bigEndian 2 dstPort.toNat ++ payload))))
      | .v6 ip =>
          let bodyLen := 1 + 16 + 2 + payload.length
          if bodyLen > 65535 then none
          else
            some (bigEndian 2 bodyLen ++ (4 :: (bigEndian 16 ip.toNat ++
              (bigEndian 2 dstPort.toNat ++ payload))))

/--
The payload of a complete frame without its length; that of a malformed frame is
empty.  `None` is the early return where the length of a domain is missing.
-/
def parseUdpFrameBody (frame : List UInt8) : Option (List UInt8) :=
  let payloadFrom := fun off => if frame.length < off then some [] else some (frame.drop off)
  match frame with
  | [] => some []
  | atyp :: _ =>
      if atyp = 3 then do
        let dlen ← frame[1]?
        payloadFrom (1 + 1 + dlen.toNat + 2)
      else if atyp = 1 then payloadFrom (1 + 4 + 2)
      else if atyp = 4 then payloadFrom (1 + 16 + 2)
      else some []

/-- The payload and the size of the first frame, once it is complete -/
def parseUdpFramePayload (buf : List UInt8) : Option (List UInt8 × ℕ) :=
  if buf.length < 2 then none
  else
    let flen := ofBigEndian (buf.take 2)
    let total := 2 + flen
    if buf.length < total then none
    else do
      let payload ← parseUdpFrameBody ((buf.drop 2).take flen)
      some (payload, total)

/-! ## The way back -/

/-- A complete frame, whatever is in it -/
def lengthPrefixed : FrameParser UInt8 (List UInt8) where
  first buf :=
    if Complete buf then
      some ((buf.drop 2).take (ofBigEndian (buf.take 2)), 2 + ofBigEndian (buf.take 2))
    else none
  size_pos := by
    intro buffer frame size found
    rw [Option.ite_none_right_eq_some, Option.some.injEq, Prod.mk.injEq] at found
    omega
  size_le := by
    intro buffer frame size found
    rw [Option.ite_none_right_eq_some, Option.some.injEq, Prod.mk.injEq] at found
    rcases found with ⟨⟨_, whole⟩, _, same⟩
    omega
  stable := by
    intro buffer frame size found more
    rw [Option.ite_none_right_eq_some] at found
    rcases found with ⟨complete, same⟩
    rw [if_pos (complete.append more), complete.take_append, complete.body_append]
    exact same

theorem lengthPrefixed_first_eq_none_iff {buf : List UInt8} :
    lengthPrefixed.first buf = none ↔ ¬Complete buf := by
  constructor
  · intro none complete
    simp only [lengthPrefixed, if_pos complete] at none
    cases none
  · exact fun incomplete => if_neg incomplete

theorem parseUdpFramePayload_of_complete {buf : List UInt8} (complete : Complete buf) :
    parseUdpFramePayload buf =
      (parseUdpFrameBody ((buf.drop 2).take (ofBigEndian (buf.take 2)))).map
        fun payload => (payload, 2 + ofBigEndian (buf.take 2)) := by
  rcases complete with ⟨header, whole⟩
  simp only [parseUdpFramePayload, if_neg (Nat.not_lt.mpr header), if_neg (Nat.not_lt.mpr whole)]
  exact Option.map_eq_bind.symm

theorem parseUdpFramePayload_of_incomplete {buf : List UInt8} (incomplete : ¬Complete buf) :
    parseUdpFramePayload buf = none := by
  simp only [parseUdpFramePayload]
  split
  · rfl
  · rename_i header
    split
    · rfl
    · rename_i whole
      exact absurd ⟨Nat.not_lt.mp header, Nat.not_lt.mp whole⟩ incomplete

theorem parseUdpFramePayload_eq :
    parseUdpFramePayload = (lengthPrefixed.decoding parseUdpFrameBody).first := by
  funext buf
  by_cases complete : Complete buf
  · rw [parseUdpFramePayload_of_complete complete, FrameParser.decoding_first_of_some]
    exact if_pos complete
  · rw [parseUdpFramePayload_of_incomplete complete, FrameParser.decoding_first_of_none]
    exact if_neg complete

/-- The loop `while let Some(…) = parse_udp_frame_payload(&acc)` drains its buffer with it. -/
def legacyParser : FrameParser UInt8 (List UInt8) where
  first := parseUdpFramePayload
  size_pos := by
    rw [parseUdpFramePayload_eq]
    exact (lengthPrefixed.decoding parseUdpFrameBody).size_pos
  size_le := by
    rw [parseUdpFramePayload_eq]
    exact (lengthPrefixed.decoding parseUdpFrameBody).size_le
  stable := by
    rw [parseUdpFramePayload_eq]
    exact (lengthPrefixed.decoding parseUdpFrameBody).stable

theorem legacyParser_eq : legacyParser = lengthPrefixed.decoding parseUdpFrameBody := by
  rw [legacyParser, FrameParser.mk.injEq]
  exact parseUdpFramePayload_eq

/-- The task of the way back, while it reads its tunnel -/
structure Downlink where
  acc : List UInt8
  /-- What was sent to the client -/
  replies : List (List UInt8)
  deriving DecidableEq

def Downlink.start : Downlink :=
  ⟨[], []⟩

/-- `recv_data` has returned a chunk. -/
def Downlink.recvData (downlink : Downlink) (chunk : List UInt8) : Downlink :=
  let (payloads, rest) := legacyParser.drain (downlink.acc ++ chunk)
  { acc := rest
    replies := downlink.replies ++ payloads.filter fun payload => !payload.isEmpty }

end Mirage.Tun
