import Mirage.Tun.DnsMessage

/-!
# Answers which are parsed

An answer repeats the question, and its record points back to the name there.  The
parser walks over the same name, as long as it is not longer than names may be, and
finds the address if the record says that it is one.
-/

namespace Mirage.Tun

open Mirage.Foundations

section Names

variable {front back : List UInt8} {labels : List (List UInt8)}

/-- Neither the end of a name nor a pointer -/
theorem label_length_plain {label : List UInt8} (proper : IsLabel label) :
    UInt8.ofNat label.length ≠ 0 ∧ UInt8.ofNat label.length &&& 0xC0 ≠ 0xC0 := by
  have plain : ∀ length < 64, 0 < length →
      UInt8.ofNat length ≠ 0 ∧ UInt8.ofNat length &&& 0xC0 ≠ 0xC0 := by decide +kernel
  exact plain label.length (Nat.lt_succ_of_le proper.2) proper.1

/-- A turn for each label -/
theorem skipLabels_labels (turns : ℕ) (proper : ∀ label ∈ labels, IsLabel label) :
    skipLabels (front ++ (labels.flatMap wireLabel ++ back)) (turns + labels.length)
        front.length =
      skipLabels (front ++ (labels.flatMap wireLabel ++ back)) turns
        (front.length + (labels.flatMap wireLabel).length) := by
  induction labels generalizing front with
  | nil => rfl
  | cons label labels ih =>
      rw [List.forall_mem_cons] at proper
      obtain ⟨nonzero, no_pointer⟩ := label_length_plain proper.1
      have small : label.length < 256 := Nat.lt_of_le_of_lt proper.1.2 (by decide)
      have next := @ih (front ++ wireLabel label) proper.2
      rw [length_append_wireLabel] at next
      rw [List.flatMap_cons, List.append_assoc, ← List.append_assoc front, List.length_cons,
        ← Nat.add_assoc, List.length_append, ← Nat.add_assoc, ← List.length_append,
        length_append_wireLabel, ← next, List.append_assoc, skipLabels]
      have first : (front ++ (wireLabel label ++ (labels.flatMap wireLabel ++ back)))[front.length]?
          = some (UInt8.ofNat label.length) := getElem?_append_length front _ _
      rw [first]
      simp only [if_neg nonzero, if_neg no_pointer, toNat_label_length small]
      rw [if_neg]
      rw [← List.append_assoc, List.length_append, length_append_wireLabel]
      omega

theorem skipLabels_wireName {turns : ℕ} (proper : ∀ label ∈ labels, IsLabel label)
    (enough : labels.length < turns) :
    skipLabels (front ++ (wireName labels ++ back)) turns front.length =
      some (front.length + (wireName labels).length) := by
  obtain ⟨more, rfl⟩ : ∃ more, turns = more + 1 + labels.length :=
    ⟨turns - 1 - labels.length, by omega⟩
  have walked := @skipLabels_labels front ([0] ++ back) labels (more + 1) proper
  have ended : (front ++ (labels.flatMap wireLabel ++ ([0] ++ back)))[front.length +
      (labels.flatMap wireLabel).length]? = some 0 := by
    rw [← List.append_assoc, ← List.length_append]
    exact getElem?_append_length _ back 0
  rw [wireName, List.append_assoc, walked, skipLabels, ended,
    @List.length_append _ (labels.flatMap wireLabel)]
  exact if_pos rfl

end Names

section Records

variable (front : List UInt8) (qtype : UInt16) (ip : Ipv4Addr)

/-- A record whose name is a pointer to the question -/
def answerRecord (qtype : UInt16) (ip : Ipv4Addr) : List UInt8 :=
  [0xC0, 0x0C] ++ (bigEndian 2 qtype.toNat ++ ([0, 1] ++ (bigEndian 4 dnsResponseTtl ++
    ([0, 4] ++ bigEndian 4 ip.toNat))))

theorem answerRecord_length : (answerRecord qtype ip).length = 16 := by
  simp [answerRecord]

theorem answerRecord_type : numberAt (answerRecord qtype ip) 2 2 = qtype.toNat := by
  rw [answerRecord]
  exact numberAt_append_of_lt rfl qtype.toNat_lt _

theorem answerRecord_size : numberAt (answerRecord qtype ip) 10 2 = 4 := by
  have field := @bytesAt_append ([0xC0, 0x0C] ++ (bigEndian 2 qtype.toNat ++ ([0, 1] ++
    bigEndian 4 dnsResponseTtl))) [0, 4] 10 2 rfl rfl (bigEndian 4 ip.toNat)
  rw [numberAt, answerRecord]
  simp only [List.append_assoc] at field ⊢
  rw [field]
  rfl

theorem answerRecord_address : numberAt (answerRecord qtype ip) 12 4 = ip.toNat := by
  have field := @numberAt_append_of_lt ([0xC0, 0x0C] ++ (bigEndian 2 qtype.toNat ++ ([0, 1] ++
    (bigEndian 4 dnsResponseTtl ++ [0, 4])))) 12 4 rfl ip.toNat ip.isLt []
  rw [List.append_nil] at field
  rw [answerRecord]
  simp only [List.append_assoc] at field ⊢
  exact field

theorem skipDnsName_pointer :
    skipDnsName (front ++ answerRecord qtype ip) front.length = some (front.length + 2) := by
  rw [skipDnsName, skipLabels]
  have pointer : (front ++ answerRecord qtype ip)[front.length]? = some 0xC0 :=
    getElem?_append_length front _ 0xC0
  rw [pointer]
  simp only
  rw [if_neg (by decide), if_pos (by decide), if_neg]
  rw [List.length_append, answerRecord_length]
  omega

theorem findAnswer_record :
    findAnswer (front ++ answerRecord qtype ip) 1 front.length =
      if qtype = 1 then some ip else none := by
  have total : (front ++ answerRecord qtype ip).length = front.length + 16 := by
    rw [List.length_append, answerRecord_length]
  rw [findAnswer, skipDnsName_pointer]
  simp only [Option.bind_eq_bind, Option.bind_some, total, Nat.add_assoc, Nat.reduceAdd,
    numberAt_behind rfl, answerRecord_type, answerRecord_size, answerRecord_address,
    and_true]
  have is_a : qtype.toNat = 1 ↔ qtype = 1 := by
    rw [← UInt16.toNat_inj]
    rfl
  rw [if_neg (by omega), if_neg (by omega), if_congr is_a rfl rfl, BitVec.ofNat_toNat,
    BitVec.setWidth_eq]
  rfl

end Records

/-- The name of a query, behind the header, and what is left of the question -/
theorem parseQuery_spec {query : List UInt8} {domain : String} {qtype : UInt16}
    {questionLen : ℕ} (accepted : parseQuery query = some (domain, qtype, questionLen)) :
    12 ≤ query.length ∧ ∃ labels, queryLabels query 12 = some (labels, questionLen - 4) ∧
      (∀ label ∈ labels, IsLabel label) ∧ questionLen ≤ query.length ∧
      questionLen = 12 + (wireName labels).length + 4 ∧
      bytesAt query 12 (wireName labels).length = wireName labels ∧
      domain = toAsciiLowercase (String.ofList (['.'].intercalate (labels.map latin1))) := by
  rw [parseQuery] at accepted
  split at accepted
  next => cases accepted
  next long =>
    split at accepted
    next => cases accepted
    next =>
      rcases Option.bind_eq_some_iff.mp accepted with ⟨⟨labels, off⟩, read, rest⟩
      obtain ⟨proper, _, bytes, off_eq⟩ := queryLabels_spec read
      simp only at rest
      split at rest
      next => cases rest
      next inside =>
        cases rest
        exact ⟨Nat.le_of_not_lt long, labels, read, proper, Nat.le_of_not_lt inside,
          by rw [off_eq], bytes, rfl⟩

/-- What an answer says about the query -/
structure Answers (query : List UInt8) (qtype : UInt16) (questionLen : ℕ) (ip : Ipv4Addr)
    (resp : List UInt8) : Prop where
  id : resp.take 2 = query.take 2
  question : bytesAt resp 12 (questionLen - 12) = bytesAt query 12 (questionLen - 12)
  /-- The resolver finds the length of the name in this way. -/
  name : skipDnsName resp 12 = some (questionLen - 4)
  address : parseAAnswer resp (questionLen - 4 - 12) = if qtype = 1 then some ip else none

/--
An accepted query is answered with its own id and question, whatever its labels are
and whatever follows the question; the address is found in the answer to a query for
addresses.
-/
theorem buildResponse_answers {query : List UInt8} {domain : String} {qtype : UInt16}
    {questionLen : ℕ} (accepted : parseQuery query = some (domain, qtype, questionLen))
    (short : questionLen - 4 - 12 ≤ 255) (ip : Ipv4Addr) (rcode : UInt8) :
    ∃ resp, buildResponse query domain qtype (some ip) questionLen rcode = some resp ∧
      Answers query qtype questionLen ip resp := by
  obtain ⟨long, labels, _, proper, inside, end_eq, bytes, -⟩ := parseQuery_spec accepted
  have few := length_lt_wireName fun label member => (proper label member).1
  have id_length : (query.take 2).length = 2 := List.length_take_of_le (by omega)
  have question_length : (bytesAt query 12 (questionLen - 12)).length = questionLen - 12 :=
    bytesAt_length (by omega)
  set question := bytesAt query 12 (questionLen - 12) with question_eq
  set header := query.take 2 ++ ([0x81, 0x80 ||| (rcode &&& 0x0F)] ++ ([0, 1] ++ ([0, 1] ++
    [0, 0, 0, 0]))) with header_eq
  have header_length : header.length = 12 := by
    rw [header_eq, List.length_append, id_length]
    rfl
  have built : buildResponse query domain qtype (some ip) questionLen rcode =
      some (header ++ (question ++ answerRecord qtype ip)) := by
    rw [buildResponse, if_neg (by omega), header_eq]
    simp only [List.append_assoc]
    rfl
  have answers : numberAt (header ++ (question ++ answerRecord qtype ip)) 6 2 = 1 := by
    have field := @bytesAt_append (query.take 2 ++ [0x81, 0x80 ||| (rcode &&& 0x0F), 0, 1]) [0, 1]
      6 2 (by simp [id_length]) rfl ([0, 0, 0, 0] ++ (question ++ answerRecord qtype ip))
    rw [header_eq, numberAt]
    simp only [List.append_assoc, List.cons_append, List.nil_append] at field ⊢
    rw [field]
    rfl
  have name_first : question = wireName labels ++ bytesAt query (questionLen - 4) 4 := by
    have behind : 12 + (wireName labels).length = questionLen - 4 := by omega
    have whole : questionLen - 12 = (wireName labels).length + 4 := by omega
    rw [question_eq, whole, bytesAt_add, bytes, behind]
  refine ⟨_, built, ?_, ?_, ?_, ?_⟩
  · rw [header_eq, List.append_assoc, List.take_left' id_length]
  · exact bytesAt_append header_length.symm question_length _
  · have skipped := @skipLabels_wireName header
      (bytesAt query (questionLen - 4) 4 ++ answerRecord qtype ip) labels 129 proper (by omega)
    rw [header_length] at skipped
    rw [skipDnsName, name_first, List.append_assoc (wireName labels), skipped, Option.some.injEq]
    omega
  · have found := findAnswer_record (header ++ question) qtype ip
    have place : (header ++ question).length = 12 + (questionLen - 4 - 12) + 4 := by
      rw [List.length_append, header_length, question_length]
      omega
    rw [place, List.append_assoc] at found
    rw [parseAAnswer, if_neg (by rw [List.length_append, header_length]; omega), answers,
      if_neg (by decide)]
    exact found

/-- A query for the address of "a" -/
def shortQuery : List UInt8 :=
  [0x12, 0x34, 1, 0, 0, 1, 0, 0, 0, 0, 0, 0, 1, 0x61, 0, 0, 1, 0, 1]

theorem buildResponse_answers_shortQuery :
    ∃ resp, buildResponse shortQuery "a" 1 (some (ipv4 1 2 3 4)) 19 0 = some resp ∧
      Answers shortQuery 1 19 (ipv4 1 2 3 4) resp :=
  buildResponse_answers (by decide +kernel : parseQuery shortQuery = some ("a", 1, 19)) (by decide)
    (ipv4 1 2 3 4) 0

/-- A query of type 28, for an address of IPv6 -/
def longAddressQuery : List UInt8 :=
  [0x12, 0x34, 1, 0, 0, 1, 0, 0, 0, 0, 0, 0, 1, 0x61, 0, 0, 28, 0, 1]

theorem not_address_longAddressQuery :
    ¬∀ (query : List UInt8) (domain : String) (qtype : UInt16) (questionLen : ℕ),
      parseQuery query = some (domain, qtype, questionLen) → questionLen - 4 - 12 ≤ 255 →
        ∀ (ip : Ipv4Addr) (rcode : UInt8), ∃ resp,
          buildResponse query domain qtype (some ip) questionLen rcode = some resp ∧
            parseAAnswer resp (questionLen - 4 - 12) = some ip := by
  intro claimed
  have accepted : parseQuery longAddressQuery = some ("a", 28, 19) := by decide +kernel
  obtain ⟨resp, built, found⟩ := claimed longAddressQuery "a" 28 19 accepted (by decide) 0 0
  have answered : (buildResponse longAddressQuery "a" 28 (some 0) 19 0).bind
      (parseAAnswer · 3) = none := by decide +kernel
  rw [built] at answered
  rw [Option.bind_some, found] at answered
  cases answered

end Mirage.Tun
