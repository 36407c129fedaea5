import Mirage.Tun.DnsMessage.RoundTrip

/-!
# Places in answers

Where the bytes of an answer are looked at depends on the answer itself.  The checked
parser panics where an index is out of bounds; it never does, on any bytes, since each
record begins behind the one before it and ends inside.  In a well-formed response it
finds the first address among the records which it looks at.
-/

namespace Mirage.Tun

open Mirage.Foundations

/-! ## The checked parser -/

/-- `skipLabels`, with the bytes which it indexes -/
def skipLabelsChecked (buf : List UInt8) : ℕ → ℕ → Checked ℕ
  -- the defence against loops
  | 0, _ => .refused
  | turns + 1, offset =>
      if offset < buf.length then do
        let len ← Checked.index buf offset
        if len = 0 then .done (offset + 1)
        else if len &&& 0xC0 = 0xC0 then
          if offset + 2 > buf.length then .refused else .done (offset + 2)
        else if offset + 1 + len.toNat > buf.length then .refused
        else skipLabelsChecked buf turns (offset + 1 + len.toNat)
      else .refused

def skipDnsNameChecked (buf : List UInt8) (offset : ℕ) : Checked ℕ :=
  skipLabelsChecked buf 129 offset

/-- `findAnswer`, with the bytes which it indexes -/
def findAnswerChecked (buf : List UInt8) : ℕ → ℕ → Checked Ipv4Addr
  | 0, _ => .refused
  | records + 1, off => do
      let r ← skipDnsNameChecked buf off
      Checked.refuseIf (r + 10 > buf.length)
      let rtype ← Checked.indexNumber buf r 2
      let rdlen ← Checked.indexNumber buf (r + 8) 2
      let rd := r + 10
      Checked.refuseIf (rd + rdlen > buf.length)
      if rtype = 1 ∧ rdlen = 4 then do
        let address ← Checked.indexNumber buf rd 4
        .done (BitVec.ofNat 32 address)
      else findAnswerChecked buf records (rd + rdlen)

/-- The sum which is the first offset is not checked; it wraps. -/
def parseAAnswerChecked (buf : List UInt8) (qnameLen : ℕ) : Checked Ipv4Addr := do
  Checked.refuseIf (buf.length < 12)
  let ancount ← Checked.indexNumber buf 6 2
  Checked.refuseIf (ancount = 0)
  findAnswerChecked buf (min ancount 16) ((12 + qnameLen + 4) % 2 ^ 64)

section Indices

variable {buf : List UInt8}

theorem skipLabelsChecked_eq (turns offset : ℕ) :
    skipLabelsChecked buf turns offset = .ofOption (skipLabels buf turns offset) := by
  induction turns generalizing offset with
  | zero => rfl
  | succ turns ih =>
      rw [skipLabelsChecked, skipLabels]
      by_cases inside : offset < buf.length
      · rw [if_pos inside, Checked.index, List.getElem?_eq_getElem inside]
        simp only [Checked.done_bind, ih]
        split_ifs <;> rfl
      · rw [if_neg inside, List.getElem?_eq_none (Nat.not_lt.mp inside)]
        rfl

theorem skipDnsNameChecked_eq (offset : ℕ) :
    skipDnsNameChecked buf offset = .ofOption (skipDnsName buf offset) :=
  skipLabelsChecked_eq 129 offset

/-- A name is walked forward, and not beyond the end. -/
theorem skipLabels_spec {turns offset stop : ℕ}
    (skipped : skipLabels buf turns offset = some stop) :
    offset < stop ∧ stop ≤ buf.length := by
  induction turns generalizing offset with
  | zero => cases skipped
  | succ turns ih =>
      rw [skipLabels] at skipped
      split at skipped
      · cases skipped
      · next len found =>
          have inside := (List.getElem?_eq_some_iff.mp found).1
          split_ifs at skipped with ended pointer cut beyond
          · cases skipped
            exact ⟨Nat.lt_succ_self offset, inside⟩
          · cases skipped
            omega
          · have further := ih skipped
            omega

theorem safe_skipDnsNameChecked (buf : List UInt8) (offset : ℕ) :
    (skipDnsNameChecked buf offset).Safe fun stop => offset < stop ∧ stop ≤ buf.length := by
  rw [skipDnsNameChecked_eq]
  cases skipped : skipDnsName buf offset with
  | none => trivial
  | some stop => exact skipLabels_spec skipped

theorem findAnswerChecked_eq (records off : ℕ) :
    findAnswerChecked buf records off = .ofOption (findAnswer buf records off) := by
  induction records generalizing off with
  | zero => rfl
  | succ records ih =>
      rw [findAnswerChecked, findAnswer, skipDnsNameChecked_eq]
      cases skipDnsName buf off with
      | none => rfl
      | some r =>
          simp only [Checked.ofOption, Checked.done_bind, Option.bind_eq_bind, Option.bind_some]
          refine Checked.refuseIf_bind_eq fun fits => ?_
          rw [indexNumber_eq_numberAt (by omega), Checked.done_bind,
            indexNumber_eq_numberAt (by omega), Checked.done_bind]
          refine Checked.refuseIf_bind_eq fun inside => ?_
          rw [ih]
          split
          · next address =>
              rw [indexNumber_eq_numberAt (by omega)]
              rfl
          · rfl

theorem parseAAnswerChecked_eq {qnameLen : ℕ} (fits : 12 + qnameLen + 4 < 2 ^ 64) :
    parseAAnswerChecked buf qnameLen = .ofOption (parseAAnswer buf qnameLen) := by
  rw [parseAAnswerChecked, parseAAnswer, Nat.mod_eq_of_lt fits]
  refine Checked.refuseIf_bind_eq fun long => ?_
  rw [indexNumber_eq_numberAt (by omega), Checked.done_bind]
  exact Checked.refuseIf_bind_eq fun _ => findAnswerChecked_eq _ _

/-- Also where the offset has wrapped -/
theorem parseAAnswerChecked_ne_panicked (buf : List UInt8) (qnameLen : ℕ) :
    parseAAnswerChecked buf qnameLen ≠ .panicked := by
  rw [← Checked.safe_iff_not_panicked, parseAAnswerChecked]
  refine Checked.safe_bind (Checked.safe_refuseIf _) fun _ long => ?_
  rw [indexNumber_eq_numberAt (by omega), Checked.done_bind]
  refine Checked.safe_bind (Checked.safe_refuseIf _) fun _ _ => ?_
  rw [findAnswerChecked_eq, Checked.safe_iff_not_panicked]
  exact Checked.ofOption_ne_panicked _

end Indices

/-! ## Well-formed responses -/

/-- A name where it stands: its labels, and its end or a pointer to the rest of it -/
structure WrittenName where
  labels : List (List UInt8)
  pointer : Option (BitVec 14)
  proper : ∀ label ∈ labels, IsLabel label
  /-- A name has 255 bytes at most. -/
  bounded : (wireName labels).length ≤ 255

namespace WrittenName

/-- A pointer is marked by the two highest bits. -/
def ending (name : WrittenName) : List UInt8 :=
  match name.pointer with
  | none => [0]
  | some target => bigEndian 2 (0xC000 + target.toNat)

def bytes (name : WrittenName) : List UInt8 :=
  name.labels.flatMap wireLabel ++ name.ending

theorem labels_length_lt (name : WrittenName) : name.labels.length < 128 := by
  have sized := length_lt_wireName fun label member => (name.proper label member).1
  have bounded := name.bounded
  omega

theorem bytes_length_le (name : WrittenName) : name.bytes.length ≤ 256 := by
  have bounded := name.bounded
  rw [wireName, List.length_append, List.length_singleton] at bounded
  have ending : name.ending.length ≤ 2 := by
    rw [WrittenName.ending]
    split
    · decide
    · rw [bigEndian_length]
  rw [bytes, List.length_append]
  omega

theorem pointer_bytes (target : BitVec 14) :
    ∃ first second, bigEndian 2 (0xC000 + target.toNat) = [first, second] ∧ first ≠ 0 ∧
      first &&& 0xC0 = 0xC0 := by
  have marks : ∀ high < 64,
      UInt8.ofNat (0xC0 + high) ≠ 0 ∧ UInt8.ofNat (0xC0 + high) &&& 0xC0 = 0xC0 := by
    decide +kernel
  have small := target.isLt
  have high : (0xC000 + target.toNat) / 256 = 0xC0 + target.toNat / 256 := by omega
  have marked := marks (target.toNat / 256) (by omega)
  rw [← high] at marked
  exact ⟨_, _, rfl, marked⟩

/-- The parser is led behind a name which is written in a message. -/
theorem skipDnsName_bytes (name : WrittenName) (front back : List UInt8) :
    skipDnsName (front ++ (name.bytes ++ back)) front.length =
      some (front.length + name.bytes.length) := by
  have short := name.labels_length_lt
  obtain ⟨more, turns⟩ : ∃ more, 129 = more + 1 + name.labels.length :=
    ⟨128 - name.labels.length, by omega⟩
  have walked := @skipLabels_labels front (name.ending ++ back) name.labels (more + 1) name.proper
  rw [skipDnsName, turns, bytes, List.append_assoc, walked, skipLabels, ← List.append_assoc front,
    ← List.length_append, WrittenName.ending]
  cases name.pointer with
  | none =>
      have ended := getElem?_append_length (front ++ name.labels.flatMap wireLabel) back 0
      rw [List.singleton_append, ended, List.length_append, @List.length_append _ _ [0]]
      exact if_pos rfl
  | some target =>
      obtain ⟨first, second, written, nonzero, marked⟩ := pointer_bytes target
      have found := getElem?_append_length (front ++ name.labels.flatMap wireLabel)
        (second :: back) first
      simp only [written, List.cons_append, List.nil_append, found, if_neg nonzero, if_pos marked]
      rw [if_neg]
      · simp only [List.length_append, List.length_cons, List.length_nil, Nat.add_assoc]
      · simp only [List.length_append, List.length_cons]
        omega

end WrittenName

structure ResourceRecord where
  name : WrittenName
  rtype : UInt16
  rclass : UInt16
  ttl : UInt32
  rdata : List UInt8
  bounded : rdata.length < 2 ^ 16

namespace ResourceRecord

/-- What stands behind the name -/
def body (record : ResourceRecord) : List UInt8 :=
  bigEndian 2 record.rtype.toNat ++ (bigEndian 2 record.rclass.toNat ++
    (bigEndian 4 record.ttl.toNat ++ (bigEndian 2 record.rdata.length ++ record.rdata)))

def bytes (record : ResourceRecord) : List UInt8 :=
  record.name.bytes ++ record.body

/-- The address of an A record -/
def address (record : ResourceRecord) : Option Ipv4Addr :=
  if record.rtype = 1 ∧ record.rdata.length = 4 then
    some (BitVec.ofNat 32 (ofBigEndian record.rdata))
  else none

variable (record : ResourceRecord) (back : List UInt8)

theorem body_length : record.body.length = 10 + record.rdata.length := by
  simp only [body, List.length_append, bigEndian_length]
  omega

theorem body_type : numberAt (record.body ++ back) 0 2 = record.rtype.toNat := by
  rw [body, List.append_assoc]
  exact numberAt_start record.rtype.toNat_lt _

theorem body_size : numberAt (record.body ++ back) 8 2 = record.rdata.length := by
  have field := @numberAt_append_of_lt (bigEndian 2 record.rtype.toNat ++
    (bigEndian 2 record.rclass.toNat ++ bigEndian 4 record.ttl.toNat)) 8 2
    (by simp only [List.length_append, bigEndian_length]) record.rdata.length record.bounded
    (record.rdata ++ back)
  rw [body]
  simp only [List.append_assoc] at field ⊢
  exact field

theorem body_data :
    bytesAt (record.body ++ back) 10 record.rdata.length = record.rdata := by
  have field := @bytesAt_append (bigEndian 2 record.rtype.toNat ++
    (bigEndian 2 record.rclass.toNat ++ (bigEndian 4 record.ttl.toNat ++
      bigEndian 2 record.rdata.length))) record.rdata 10 record.rdata.length
    (by simp only [List.length_append, bigEndian_length]) rfl back
  rw [body]
  simp only [List.append_assoc] at field ⊢
  exact field

/-- One turn of the parser is about one record. -/
theorem findAnswer_bytes (front : List UInt8) (records : ℕ) :
    findAnswer (front ++ (record.bytes ++ back)) (records + 1) front.length =
      match record.address with
      | some address => some address
      | none =>
          findAnswer (front ++ (record.bytes ++ back)) records
            (front.length + record.bytes.length) := by
  have split : front ++ (record.bytes ++ back) =
      (front ++ record.name.bytes) ++ (record.body ++ back) := by
    simp only [bytes, List.append_assoc]
  have skipped := record.name.skipDnsName_bytes front (record.body ++ back)
  have total : (front ++ (record.bytes ++ back)).length =
      front.length + record.name.bytes.length + (10 + record.rdata.length) + back.length := by
    rw [split, List.length_append, List.length_append, List.length_append, body_length,
      Nat.add_assoc (front.length + _)]
  rw [← List.append_assoc front, ← split] at skipped
  have type_field : numberAt (front ++ (record.bytes ++ back))
      (front.length + record.name.bytes.length) 2 = record.rtype.toNat := by
    rw [split, ← List.length_append]
    exact (numberAt_behind rfl _ 0 2).trans (record.body_type back)
  have size_field : numberAt (front ++ (record.bytes ++ back))
      (front.length + record.name.bytes.length + 8) 2 = record.rdata.length := by
    rw [split, numberAt_behind List.length_append, record.body_size]
  have data_field : bytesAt (front ++ (record.bytes ++ back))
      (front.length + record.name.bytes.length + 10) record.rdata.length = record.rdata := by
    rw [split, bytesAt_behind List.length_append, record.body_data]
  have is_a : record.rtype.toNat = 1 ↔ record.rtype = 1 := by
    rw [← UInt16.toNat_inj]
    rfl
  have behind : front.length + record.name.bytes.length + 10 + record.rdata.length =
      front.length + record.bytes.length := by
    rw [bytes, List.length_append, body_length]
    omega
  rw [findAnswer, skipped, address]
  simp only [Option.bind_eq_bind, Option.bind_some, type_field, size_field, total, is_a, behind]
  rw [if_neg (by omega), if_neg (by omega)]
  by_cases found : record.rtype = 1 ∧ record.rdata.length = 4
  · rw [if_pos found, if_pos found, numberAt, ← found.2, data_field]
  · rw [if_neg found, if_neg found]

/-- The records are looked at one after the other, up to so many. -/
theorem findAnswer_flatMap {records : ℕ} {answers : List ResourceRecord}
    (enough : records ≤ answers.length) (front : List UInt8) :
    findAnswer (front ++ (answers.flatMap bytes ++ back)) records front.length =
      (answers.take records).findSome? address := by
  induction records generalizing answers front with
  | zero => rfl
  | succ records ih =>
      rcases answers with _ | ⟨answer, answers⟩
      · cases enough
      · have next := ih (Nat.le_of_succ_le_succ enough) (front ++ answer.bytes)
        rw [List.append_assoc, List.length_append] at next
        rw [List.flatMap_cons, List.append_assoc, answer.findAnswer_bytes, next,
          List.take_succ_cons, List.findSome?_cons]
        cases answer.address <;> rfl

end ResourceRecord

/-- A response to one question; its other sections are not looked at. -/
structure Response where
  id : UInt16
  flags : UInt16
  authorities : UInt16
  additionals : UInt16
  qname : WrittenName
  qtype : UInt16
  qclass : UInt16
  answers : List ResourceRecord
  rest : List UInt8
  counted : answers.length < 2 ^ 16

namespace Response

def header (response : Response) : List UInt8 :=
  bigEndian 2 response.id.toNat ++ (bigEndian 2 response.flags.toNat ++ (bigEndian 2 1 ++
    (bigEndian 2 response.answers.length ++ (bigEndian 2 response.authorities.toNat ++
      bigEndian 2 response.additionals.toNat))))

def bytes (response : Response) : List UInt8 :=
  response.header ++ (response.qname.bytes ++ ((bigEndian 2 response.qtype.toNat ++
    bigEndian 2 response.qclass.toNat) ++
      (response.answers.flatMap ResourceRecord.bytes ++ response.rest)))

variable (response : Response)

theorem header_length : response.header.length = 12 := by
  simp only [header, List.length_append, bigEndian_length]

theorem bytes_answers : numberAt response.bytes 6 2 = response.answers.length := by
  have field := @numberAt_append_of_lt (bigEndian 2 response.id.toNat ++
    (bigEndian 2 response.flags.toNat ++ bigEndian 2 1)) 6 2
    (by simp only [List.length_append, bigEndian_length]) response.answers.length
    response.counted
  rw [bytes, header]
  simp only [List.append_assoc] at field ⊢
  exact field _

theorem skipDnsName_qname :
    skipDnsName response.bytes 12 = some (12 + response.qname.bytes.length) := by
  have skipped := response.qname.skipDnsName_bytes response.header
  rw [header_length] at skipped
  exact skipped _

theorem parseAAnswer_bytes :
    parseAAnswer response.bytes response.qname.bytes.length =
      (response.answers.take 16).findSome? ResourceRecord.address := by
  have long : ¬response.bytes.length < 12 := by
    rw [bytes, List.length_append, header_length]
    omega
  have found := @ResourceRecord.findAnswer_flatMap response.rest
    (min response.answers.length 16) response.answers (Nat.min_le_left _ _)
    (response.header ++ (response.qname.bytes ++ (bigEndian 2 response.qtype.toNat ++
      bigEndian 2 response.qclass.toNat)))
  have place : (response.header ++ (response.qname.bytes ++ (bigEndian 2 response.qtype.toNat ++
      bigEndian 2 response.qclass.toNat))).length = 12 + response.qname.bytes.length + 4 := by
    simp only [List.length_append, header_length, bigEndian_length]
    omega
  have taken : response.answers.take (min response.answers.length 16) =
      response.answers.take 16 := by
    rw [Nat.min_comm, ← List.take_take, List.take_length]
  rw [place, taken] at found
  rw [parseAAnswer, if_neg long, bytes_answers]
  simp only [bytes, List.append_assoc] at found ⊢
  simp only [found]
  split
  · next none =>
      rw [List.length_eq_zero_iff.mp none]
      rfl
  · rfl

end Response

/-- Names and answers are looked at inside only, in a response up to its first address among
the first sixteen records. -/
theorem answers_inside :
    (∀ buf offset, (skipDnsNameChecked buf offset).Safe fun stop =>
      offset < stop ∧ stop ≤ buf.length) ∧
    (∀ buf qnameLen, parseAAnswerChecked buf qnameLen ≠ .panicked) ∧
    ∀ response : Response,
      skipDnsNameChecked response.bytes 12 = .done (12 + response.qname.bytes.length) ∧
        parseAAnswerChecked response.bytes response.qname.bytes.length =
          .ofOption ((response.answers.take 16).findSome? ResourceRecord.address) := by
  refine ⟨safe_skipDnsNameChecked, parseAAnswerChecked_ne_panicked, fun response => ?_⟩
  have short := response.qname.bytes_length_le
  rw [skipDnsNameChecked_eq, response.skipDnsName_qname, parseAAnswerChecked_eq (by omega),
    response.parseAAnswer_bytes]
  exact ⟨rfl, rfl⟩

end Mirage.Tun
