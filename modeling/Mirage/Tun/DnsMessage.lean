import Mirage.Foundations.Buffers
import Mirage.Foundations.Encodings
import Mirage.Foundations.Net
import Mirage.Foundations.Text
import Mirage.Foundations.Wire

/-!
# Messages of DNS

Queries of the client are parsed and answered, and queries of the resolver's own are
built and their answers parsed.
-/

namespace Mirage.Tun

open Mirage.Foundations

def buildAQuery (domain : String) (id : UInt16) : List UInt8 :=
  let name := (splitChar (trimEndMatches domain '.') '.').flatMap fun label =>
    if label.isEmpty then []
    else UInt8.ofNat (utf8 label.toList).length :: utf8 label.toList
  bigEndian 2 id.toNat ++ ([0x01, 0x00, 0, 1, 0, 0, 0, 0, 0, 0] ++ (name ++ [0, 0, 1, 0, 1]))

/-- The loop of `skip_dns_name`, with the number of turns it may still take -/
def skipLabels (buf : List UInt8) : ℕ → ℕ → Option ℕ
  | 0, _ => none
  | turns + 1, offset =>
      match buf[offset]? with
      | none => none
      | some len =>
          if len = 0 then some (offset + 1)
          else if len &&& 0xC0 = 0xC0 then
            if offset + 2 > buf.length then none else some (offset + 2)
          else if offset + 1 + len.toNat > buf.length then none
          else skipLabels buf turns (offset + 1 + len.toNat)

def skipDnsName (buf : List UInt8) (offset : ℕ) : Option ℕ :=
  skipLabels buf 129 offset

/-- The loop of `parse_a_answer` over so many records -/
def findAnswer (buf : List UInt8) : ℕ → ℕ → Option Ipv4Addr
  | 0, _ => none
  | records + 1, off => do
      let r ← skipDnsName buf off
      if r + 10 > buf.length then none
      else
        let rtype := numberAt buf r 2
        let rdlen := numberAt buf (r + 8) 2
        let rd := r + 10
        if rd + rdlen > buf.length then none
        else if rtype = 1 ∧ rdlen = 4 then some (BitVec.ofNat 32 (numberAt buf rd 4))
        else findAnswer buf records (rd + rdlen)

def parseAAnswer (buf : List UInt8) (qnameLen : ℕ) : Option Ipv4Addr :=
  if buf.length < 12 then none
  else
    let ancount := numberAt buf 6 2
    if ancount = 0 then none else findAnswer buf (min ancount 16) (12 + qnameLen + 4)

def dnsResponseTtl : ℕ := 1

/-- The domain is not looked at. -/
def buildResponse (query : List UInt8) (_domain : String) (qtype : UInt16)
    (aRecord : Option Ipv4Addr) (questionLen : ℕ) (rcode : UInt8) : Option (List UInt8) :=
  if query.length < 12 ∨ questionLen < 13 ∨ questionLen > query.length then none
  else
    let id := query.take 2
    let question := bytesAt query 12 (questionLen - 12)
    let ancount : List UInt8 := if aRecord.isSome then [0, 1] else [0, 0]
    let answer := aRecord.elim [] fun ip =>
      [0xC0, 0x0C] ++ (bigEndian 2 qtype.toNat ++ ([0, 1] ++ (bigEndian 4 dnsResponseTtl ++
        ([0, 4] ++ bigEndian 4 ip.toNat))))
    some (id ++ ([0x81, 0x80 ||| (rcode &&& 0x0F)] ++ ([0, 1] ++ (ancount ++ ([0, 0, 0, 0] ++
      (question ++ answer))))))

/-- The labels of a name from an offset on, and the offset behind it -/
def queryLabels (buf : List UInt8) (off : ℕ) : Option (List (List UInt8) × ℕ) :=
  match _ : buf[off]? with
  | none => none
  | some len =>
      if len = 0 then some ([], off + 1)
      else if 63 < len.toNat ∨ off + 1 + len.toNat > buf.length then none
      else do
        let (labels, stop) ← queryLabels buf (off + 1 + len.toNat)
        some (bytesAt buf (off + 1) len.toNat :: labels, stop)
termination_by buf.length - off
decreasing_by
  have inside := (List.getElem?_eq_some_iff.mp ‹buf[off]? = _›).1
  omega

theorem queryLabels_of_some {buf : List UInt8} {off : ℕ} {len : UInt8}
    (found : buf[off]? = some len) :
    queryLabels buf off =
      if len = 0 then some ([], off + 1)
      else if 63 < len.toNat ∨ off + 1 + len.toNat > buf.length then none
      else (queryLabels buf (off + 1 + len.toNat)).bind fun (labels, stop) =>
        some (bytesAt buf (off + 1) len.toNat :: labels, stop) := by
  rw [queryLabels]
  split
  next none =>
    rw [found] at none
    cases none
  next other again =>
    rw [found] at again
    cases again
    rfl

/-- What is read as labels are labels in the format of the wire. -/
theorem queryLabels_spec {buf : List UInt8} {off stop : ℕ} {labels : List (List UInt8)}
    (read : queryLabels buf off = some (labels, stop)) :
    (∀ label ∈ labels, IsLabel label) ∧ stop ≤ buf.length ∧
      bytesAt buf off (wireName labels).length = wireName labels ∧
      stop = off + (wireName labels).length := by
  fun_induction queryLabels buf off generalizing labels stop with
  | case1 off none => cases read
  | case2 off found =>
      cases read
      have inside := (List.getElem?_eq_some_iff.mp found).1
      refine ⟨nofun, inside, bytesAt_one found, rfl⟩
  | case3 off len found nonzero bad => cases read
  | case4 off len found nonzero fits ih =>
      rcases Option.bind_eq_some_iff.mp read with ⟨⟨rest, last⟩, rest_read, same⟩
      cases same
      obtain ⟨rest_labels, inside, rest_bytes, last_eq⟩ := ih rest_read
      have positive : 0 < len.toNat := by
        rcases Nat.eq_zero_or_pos len.toNat with zero | positive
        · exact absurd (UInt8.toNat_inj.mp zero) nonzero
        · exact positive
      have label_length : (bytesAt buf (off + 1) len.toNat).length = len.toNat :=
        bytesAt_length (by omega)
      have len_eq : UInt8.ofNat (bytesAt buf (off + 1) len.toNat).length = len := by
        rw [label_length, UInt8.ofNat_toNat]
      refine ⟨?_, inside, ?_, ?_⟩
      · rw [List.forall_mem_cons]
        refine ⟨?_, rest_labels⟩
        rw [IsLabel, label_length]
        omega
      · rw [wireName_length_cons, label_length, bytesAt_add, bytesAt_add, bytesAt_one found,
          ← Nat.add_assoc, rest_bytes, wireName_cons, wireLabel, len_eq]
        rfl
      · rw [wireName_length_cons, label_length, last_eq]
        omega

/-- `b as char`, for each byte -/
def latin1 (bytes : List UInt8) : List Char :=
  bytes.map fun byte => Char.ofNat byte.toNat

/-- The name, the type and the end of the question -/
def parseQuery (buf : List UInt8) : Option (String × UInt16 × ℕ) :=
  if buf.length < 12 then none
  else if numberAt buf 4 2 < 1 then none
  else do
    let (labels, off) ← queryLabels buf 12
    if off + 4 > buf.length then none
    else
      let qtype := UInt16.ofNat (numberAt buf off 2)
      let name := String.ofList (['.'].intercalate (labels.map latin1))
      some (toAsciiLowercase name, qtype, off + 4)

end Mirage.Tun
