import Mirage.Foundations.Buffers
import Mirage.Tun.LegacyFrames

/-!
# What a frame says

A reader of the format finds the destination, the port and the payload in a frame
which were put into it.  A domain of more than 255 bytes is cut, and the frame names
another one; the frames of shared tunnels refuse such a domain.
-/

namespace Mirage.Tun

open Mirage.Foundations
open Mirage.Proxy (Complete)

/-- A domain is told apart by its bytes. -/
inductive Destination where
  | domain (name : List UInt8)
  | ip (ip : IpAddr)
  deriving DecidableEq

/-- The destination at the start of a body, and what is behind it -/
def readDestination (body : List UInt8) : Option (Destination × List UInt8) :=
  match body with
  | [] => none
  | atyp :: rest =>
      if atyp = 1 then
        if rest.length < 4 then none
        else some (.ip (.v4 (BitVec.ofNat 32 (ofBigEndian (rest.take 4)))), rest.drop 4)
      else if atyp = 4 then
        if rest.length < 16 then none
        else some (.ip (.v6 (BitVec.ofNat 128 (ofBigEndian (rest.take 16)))), rest.drop 16)
      else if atyp = 3 then
        match rest with
        | [] => none
        | dlen :: rest =>
            if rest.length < dlen.toNat then none
            else some (.domain (rest.take dlen.toNat), rest.drop dlen.toNat)
      else none

/-- A whole frame as its format is described -/
def readFrame (frame : List UInt8) : Option (Destination × UInt16 × List UInt8) :=
  if frame.length < 2 ∨ frame.length ≠ 2 + ofBigEndian (frame.take 2) then none
  else do
    let (destination, rest) ← readDestination (frame.drop 2)
    if rest.length < 2 then none
    else some (destination, UInt16.ofNat (ofBigEndian (rest.take 2)), rest.drop 2)

/-- A domain takes precedence over the address. -/
def destinationOf (targetDomain : Option String) (targetIp : Option IpAddr) :
    Option Destination :=
  match targetDomain with
  | some domain => some (.domain domain.toUTF8.toList)
  | none => targetIp.map .ip

section Reading

variable {address : List UInt8} {destination : Destination} {port : UInt16} {payload : List UInt8}

/-- An address in front of a port and a payload -/
def AddressOf (address : List UInt8) (destination : Destination) : Prop :=
  (∀ rest, readDestination (address ++ rest) = some (destination, rest)) ∧
    ∀ rest, 2 ≤ rest.length → parseUdpFrameBody (address ++ rest) = some (rest.drop 2)

theorem addressOf_v4 (ip : Ipv4Addr) : AddressOf (1 :: bigEndian 4 ip.toNat) (.ip (.v4 ip)) := by
  have length_eq := bigEndian_length 4 ip.toNat
  have read : BitVec.ofNat 32 (ofBigEndian (bigEndian 4 ip.toNat)) = ip :=
    ofNat_ofBigEndian_toNat 4 rfl ip
  generalize bigEndian 4 ip.toNat = bytes at *
  constructor
  · intro rest
    simp only [List.cons_append, readDestination]
    rw [if_pos trivial, List.length_append, if_neg (by omega), List.take_left' length_eq,
      List.drop_left' length_eq, read]
  · intro rest port
    have behind : (1 :: (bytes ++ rest)).drop (1 + 4 + 2) = rest.drop 2 := by
      rw [← List.drop_drop, ← List.cons_append, List.drop_left' (by simp [length_eq])]
    simp only [List.cons_append, parseUdpFrameBody, List.length_cons, List.length_append]
    rw [if_neg (by decide), if_pos trivial, if_neg (by omega), behind]

theorem addressOf_v6 (ip : Ipv6Addr) : AddressOf (4 :: bigEndian 16 ip.toNat) (.ip (.v6 ip)) := by
  have length_eq := bigEndian_length 16 ip.toNat
  have read : BitVec.ofNat 128 (ofBigEndian (bigEndian 16 ip.toNat)) = ip :=
    ofNat_ofBigEndian_toNat 16 rfl ip
  generalize bigEndian 16 ip.toNat = bytes at *
  constructor
  · intro rest
    simp only [List.cons_append, readDestination]
    rw [if_neg (by decide), if_pos trivial, List.length_append, if_neg (by omega),
      List.take_left' length_eq, List.drop_left' length_eq, read]
  · intro rest port
    have behind : (4 :: (bytes ++ rest)).drop (1 + 16 + 2) = rest.drop 2 := by
      rw [← List.drop_drop, ← List.cons_append, List.drop_left' (by simp [length_eq])]
    simp only [List.cons_append, parseUdpFrameBody, List.length_cons, List.length_append]
    rw [if_neg (by decide), if_neg (by decide), if_pos trivial, if_neg (by omega), behind]

theorem addressOf_domain {name : List UInt8} (fits : name.length ≤ 255) :
    AddressOf (3 :: UInt8.ofNat name.length :: name) (.domain name) := by
  have read : (UInt8.ofNat name.length).toNat = name.length := by
    rw [UInt8.toNat_ofNat']
    omega
  constructor
  · intro rest
    simp only [List.cons_append, readDestination, read]
    rw [if_neg (by decide), if_neg (by decide), if_pos trivial, List.length_append,
      if_neg (by omega), List.take_left, List.drop_left]
  · intro rest port
    have behind : (3 :: UInt8.ofNat name.length :: (name ++ rest)).drop
        (1 + 1 + name.length + 2) = rest.drop 2 := by
      rw [← List.drop_drop, ← List.cons_append, ← List.cons_append,
        List.drop_left' (by simp only [List.length_cons]; omega)]
    simp only [List.cons_append, parseUdpFrameBody, List.getElem?_cons_succ,
      List.getElem?_cons_zero, Option.bind_eq_bind, Option.bind_some, read, List.length_cons,
      List.length_append]
    rw [if_pos trivial, if_neg (by omega), behind]

theorem readFrame_framed (written : AddressOf address destination)
    (fits : (address ++ (bigEndian 2 port.toNat ++ payload)).length ≤ 65535) :
    readFrame (bigEndian 2 (address ++ (bigEndian 2 port.toNat ++ payload)).length ++
      (address ++ (bigEndian 2 port.toNat ++ payload))) = some (destination, port, payload) := by
  have port_length := bigEndian_length 2 port.toNat
  have read_port : UInt16.ofNat (ofBigEndian (bigEndian 2 port.toNat)) = port := by
    rw [ofBigEndian_bigEndian 2 port.toNat port.toNat_lt, UInt16.ofNat_toNat]
  have read := written.1 (bigEndian 2 port.toNat ++ payload)
  generalize address ++ (bigEndian 2 port.toNat ++ payload) = body at *
  have header_length := bigEndian_length 2 body.length
  have length_read := ofBigEndian_bigEndian 2 body.length (by omega)
  rw [readFrame, List.take_left' header_length, List.drop_left' header_length, length_read,
    List.length_append, header_length, if_neg (by omega), read]
  simp only [Option.bind_eq_bind, Option.bind_some]
  rw [List.length_append, port_length, if_neg (by omega), List.take_left' port_length,
    List.drop_left' port_length, read_port]

theorem parseUdpFramePayload_framed (written : AddressOf address destination)
    (fits : (address ++ (bigEndian 2 port.toNat ++ payload)).length ≤ 65535) :
    parseUdpFramePayload (bigEndian 2 (address ++ (bigEndian 2 port.toNat ++ payload)).length ++
      (address ++ (bigEndian 2 port.toNat ++ payload))) =
        some (payload, 2 + (address ++ (bigEndian 2 port.toNat ++ payload)).length) := by
  have port_length := bigEndian_length 2 port.toNat
  have read := written.2 (bigEndian 2 port.toNat ++ payload)
    (by rw [List.length_append, port_length]; omega)
  rw [List.drop_left' port_length] at read
  generalize address ++ (bigEndian 2 port.toNat ++ payload) = body at *
  have header_length := bigEndian_length 2 body.length
  have length_read := ofBigEndian_bigEndian 2 body.length (by omega)
  have header := @List.take_left' _ _ body _ header_length
  have complete : Complete (bigEndian 2 body.length ++ body) := by
    refine ⟨?_, ?_⟩
    · rw [List.length_append, header_length]
      omega
    · rw [header, length_read, List.length_append, header_length]
  rw [parseUdpFramePayload_of_complete complete, header, length_read,
    List.drop_left' header_length, List.take_length, read, Option.map_some]

/-- The frame is read as this, and its payload by the code's own parser, too. -/
def Reads (frame : List UInt8) (destination : Destination) (port : UInt16)
    (payload : List UInt8) : Prop :=
  readFrame frame = some (destination, port, payload) ∧
    parseUdpFramePayload frame = some (payload, frame.length)

theorem reads_framed {bodyLen : ℕ} (written : AddressOf address destination)
    (length_eq : (address ++ (bigEndian 2 port.toNat ++ payload)).length = bodyLen)
    (fits : ¬bodyLen > 65535) :
    Reads (bigEndian 2 bodyLen ++ (address ++ (bigEndian 2 port.toNat ++ payload))) destination
      port payload := by
  subst length_eq
  refine ⟨readFrame_framed written (by omega), ?_⟩
  rw [parseUdpFramePayload_framed written (by omega), @List.length_append _ (bigEndian 2 _),
    bigEndian_length]

end Reading

section Frames

variable {targetIp : Option IpAddr} {dstPort : UInt16} {payload frame : List UInt8}

theorem reads_of_ip (built : buildFrame none targetIp dstPort payload = some frame) :
    ∃ ip, targetIp = some ip ∧ Reads frame (.ip ip) dstPort payload := by
  rcases targetIp with _ | ⟨ip | ip⟩
  · cases built
  · simp only [buildFrame, Option.bind_eq_bind, Option.bind_some] at built
    split at built
    next => cases built
    next fits =>
      cases built
      refine ⟨.v4 ip, rfl, reads_framed (addressOf_v4 ip) ?_ fits⟩
      simp
      omega
  · simp only [buildFrame, Option.bind_eq_bind, Option.bind_some] at built
    split at built
    next => cases built
    next fits =>
      cases built
      refine ⟨.v6 ip, rfl, reads_framed (addressOf_v6 ip) ?_ fits⟩
      simp
      omega

/-- A frame names what there is room for of a domain. -/
theorem reads_of_domain {domain : String}
    (built : buildFrame (some domain) targetIp dstPort payload = some frame) :
    Reads frame (.domain (domain.toUTF8.toList.take 255)) dstPort payload := by
  simp only [buildFrame] at built
  split at built
  next => cases built
  next fits =>
    cases built
    have name_length : (domain.toUTF8.toList.take 255).length =
        min domain.toUTF8.toList.length 255 := by
      rw [List.length_take, Nat.min_comm]
    have cut : domain.toUTF8.toList.take (min domain.toUTF8.toList.length 255) =
        domain.toUTF8.toList.take 255 := by
      rw [Nat.min_comm, List.take_eq_take_iff]
      omega
    have short : (domain.toUTF8.toList.take 255).length ≤ 255 := List.length_take_le _ _
    have length_eq : ((3 :: UInt8.ofNat (domain.toUTF8.toList.take 255).length ::
        domain.toUTF8.toList.take 255) ++ (bigEndian 2 dstPort.toNat ++ payload)).length =
          1 + 1 + min domain.toUTF8.toList.length 255 + 2 + payload.length := by
      simp only [List.length_append, List.length_cons, bigEndian_length, name_length]
      omega
    have reads := reads_framed (addressOf_domain short) length_eq fits
    rw [name_length, ← cut] at reads
    rw [← cut]
    exact reads

theorem length_le_of_reads {domain : String}
    (built : buildFrame (some domain) targetIp dstPort payload = some frame)
    (reads : Reads frame (.domain domain.toUTF8.toList) dstPort payload) :
    domain.toUTF8.toList.length ≤ 255 := by
  have cut := (reads_of_domain built).1
  rw [reads.1, Option.some.injEq, Prod.mk.injEq, Destination.domain.injEq] at cut
  have length_eq := congrArg List.length cut.1
  rw [List.length_take] at length_eq
  omega

theorem buildFrame_eq_none_iff (domain : String) :
    buildFrame (some domain) targetIp dstPort payload = none ↔
      1 + 1 + min domain.toUTF8.toList.length 255 + 2 + payload.length > 65535 := by
  simp only [buildFrame]
  split
  next large => exact iff_of_true rfl large
  next fits => exact iff_of_false (Option.some_ne_none _) fits

end Frames

/--
A frame can be read as what it was built from, unless its domain has been cut.  No
frame with such a domain is built if the payload is so long that a cut one does not fit.
-/
theorem buildFrame_faithful_iff (targetDomain : Option String) (targetIp : Option IpAddr)
    (dstPort : UInt16) (payload : List UInt8) :
    (∀ frame, buildFrame targetDomain targetIp dstPort payload = some frame →
      ∃ destination, destinationOf targetDomain targetIp = some destination ∧
        Reads frame destination dstPort payload) ↔
    ∀ domain, targetDomain = some domain →
      domain.toUTF8.toList.length ≤ 255 ∨ 65276 < payload.length := by
  rcases targetDomain with _ | domain
  · apply iff_of_true
    · intro frame built
      obtain ⟨ip, target, reads⟩ := reads_of_ip built
      exact ⟨.ip ip, by rw [destinationOf, target]; rfl, reads⟩
    · intro domain same
      cases same
  · constructor
    · intro faithful _ same
      cases same
      by_contra cut
      rw [not_or] at cut
      cases built : buildFrame (some domain) targetIp dstPort payload with
      | none =>
          have large := (buildFrame_eq_none_iff domain).mp built
          omega
      | some frame =>
          obtain ⟨destination, target, reads⟩ := faithful frame built
          cases target
          exact cut.1 (length_le_of_reads built reads)
    · intro short frame built
      refine ⟨.domain domain.toUTF8.toList, rfl, ?_⟩
      have reads := reads_of_domain built
      rcases Nat.lt_or_ge 255 domain.toUTF8.toList.length with cut | fits
      · have large : buildFrame (some domain) targetIp dstPort payload = none := by
          rw [buildFrame_eq_none_iff]
          have no_room := short domain rfl
          omega
        rw [large] at built
        cases built
      · rw [List.take_of_length_le fits] at reads
        exact reads

/-- A name of five labels, as the queries of DNS may have -/
def longName : String :=
  String.intercalate "." (List.replicate 5 (String.ofList (List.replicate 63 'a')))

theorem not_faithful_longName :
    ¬∀ frame, buildFrame (some longName) none 443 [1] = some frame →
      ∃ destination, destinationOf (some longName) none = some destination ∧
        Reads frame destination 443 [1] := by
  intro faithful
  have long : longName.toUTF8.toList.length = 319 := by decide +kernel
  cases built : buildFrame (some longName) none 443 [1] with
  | none =>
      have large := (buildFrame_eq_none_iff longName).mp built
      rw [long] at large
      exact absurd large (by decide)
  | some frame =>
      obtain ⟨destination, target, reads⟩ := faithful frame built
      cases target
      have short := length_le_of_reads built reads
      rw [long] at short
      exact absurd short (by decide)

end Mirage.Tun
