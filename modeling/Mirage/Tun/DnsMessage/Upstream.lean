import Mirage.Foundations.Splitting
import Mirage.Tun.DnsMessage.RoundTrip

/-!
# The name which is asked upstream

The name of a client's query is kept as text and taken apart again for the query
upstream.  Bytes outside ASCII are made characters of and written in UTF-8, and
dots in a label part it; any other name is asked for as it was.
-/

namespace Mirage.Tun

open Mirage.Foundations

/-! ### Text and bytes -/

section Texts

variable {text : List Char} {bytes : List UInt8}

theorem utf8_length_le (text : List Char) : (utf8 text).length ≤ 4 * text.length := by
  induction text with
  | nil => exact Nat.le_refl 0
  | cons char text ih =>
      have size := Char.utf8Size_le_four char
      rw [utf8_cons, List.length_append, String.length_utf8EncodeChar, List.length_cons]
      omega

/-- A dot among the bytes is a dot of the text. -/
theorem dot_not_mem_utf8 (absent : '.' ∉ text) : (46 : UInt8) ∉ utf8 text := by
  intro member
  rcases List.mem_flatMap.mp member with ⟨char, inside, encoded⟩
  rcases Nat.lt_or_ge char.toNat 128 with ascii | wide
  · rw [utf8EncodeChar_of_lt ascii, List.mem_singleton] at encoded
    have code := congrArg UInt8.toNat encoded
    rw [UInt8.toNat_ofNat', Nat.mod_eq_of_lt (by omega)] at code
    have is_dot : char = '.' := Char.toNat_inj.mp code.symm
    exact absent (is_dot ▸ inside)
  · have above := le_of_mem_utf8EncodeChar wide encoded
    exact absurd above (by decide)

theorem toNat_latin1 (byte : UInt8) : (Char.ofNat byte.toNat).toNat = byte.toNat := by
  have small := byte.toNat_lt
  have valid : byte.toNat.isValidChar := .inl (by omega)
  rw [Char.ofNat, dif_pos valid]
  rfl

theorem utf8_latin1 (ascii : ∀ byte ∈ bytes, byte.toNat < 128) : utf8 (latin1 bytes) = bytes := by
  induction bytes with
  | nil => rfl
  | cons byte bytes ih =>
      rw [List.forall_mem_cons] at ascii
      have code := toNat_latin1 byte
      rw [latin1, List.map_cons, utf8_cons, utf8EncodeChar_of_lt (by rw [code]; exact ascii.1),
        code, UInt8.ofNat_toNat]
      exact congrArg (byte :: ·) (ih ascii.2)

theorem length_le_utf8 (text : List Char) : text.length ≤ (utf8 text).length := by
  induction text with
  | nil => exact Nat.le_refl 0
  | cons char text ih =>
      have size := Char.utf8Size_pos char
      rw [utf8_cons, List.length_append, String.length_utf8EncodeChar, List.length_cons]
      omega

/-- Bytes outside ASCII take up more than they are. -/
theorem ascii_of_utf8_latin1 (short : (utf8 (latin1 bytes)).length ≤ bytes.length) :
    ∀ byte ∈ bytes, byte.toNat < 128 := by
  induction bytes with
  | nil => nofun
  | cons byte bytes ih =>
      have char_size := Char.utf8Size_pos (Char.ofNat byte.toNat)
      have rest_size := length_le_utf8 (latin1 bytes)
      rw [latin1, List.length_map] at rest_size
      rw [latin1, List.map_cons, utf8_cons, List.length_append, List.length_cons] at short
      rw [List.forall_mem_cons]
      constructor
      · by_contra wide
        obtain ⟨first, second, rest, encoded, -⟩ :=
          @exists_utf8EncodeChar (Char.ofNat byte.toNat) (by rw [toNat_latin1]; omega)
        rw [encoded, List.length_cons, List.length_cons] at short
        omega
      · rw [String.length_utf8EncodeChar] at short
        apply ih
        rw [latin1]
        omega

end Texts

/-! ### Lower case -/

def lowerByte (byte : UInt8) : UInt8 :=
  if 65 ≤ byte ∧ byte ≤ 90 then byte + 32 else byte

def lowerLabels (labels : List (List UInt8)) : List (List UInt8) :=
  labels.map (List.map lowerByte)

theorem lowerByte_facts (byte : UInt8) :
    (Char.ofNat byte.toNat).toLower = Char.ofNat (lowerByte byte).toNat ∧
      lowerByte (lowerByte byte) = lowerByte byte ∧
      ((lowerByte byte).toNat < 128 ↔ byte.toNat < 128) ∧ (lowerByte byte = 46 ↔ byte = 46) := by
  have all : ∀ code < 256,
      (Char.ofNat (UInt8.ofNat code).toNat).toLower =
          Char.ofNat (lowerByte (UInt8.ofNat code)).toNat ∧
        lowerByte (lowerByte (UInt8.ofNat code)) = lowerByte (UInt8.ofNat code) ∧
        ((lowerByte (UInt8.ofNat code)).toNat < 128 ↔ (UInt8.ofNat code).toNat < 128) ∧
        (lowerByte (UInt8.ofNat code) = 46 ↔ UInt8.ofNat code = 46) := by decide +kernel
  have facts := all byte.toNat byte.toNat_lt
  rw [UInt8.ofNat_toNat] at facts
  exact facts

theorem lowerLabels_lowerLabels (labels : List (List UInt8)) :
    lowerLabels (lowerLabels labels) = lowerLabels labels := by
  have twice : List.map lowerByte ∘ List.map lowerByte = List.map lowerByte := by
    funext label
    rw [Function.comp_apply, List.map_map]
    exact List.map_congr_left fun byte _ => (lowerByte_facts byte).2.1
  rw [lowerLabels, lowerLabels, List.map_map, twice]

theorem map_intercalate {First Second : Type} (change : First → Second) (separator : First)
    (texts : List (List First)) :
    ([separator].intercalate texts).map change =
      [change separator].intercalate (texts.map (List.map change)) := by
  induction texts with
  | nil => rfl
  | cons text texts ih =>
      cases texts with
      | nil => simp
      | cons next texts =>
          rw [List.map_cons, List.map_cons, List.intercalate_cons_cons,
            List.intercalate_cons_cons, List.map_append, List.map_append, ih]
          rfl

/-- The name of labels, as text -/
def nameOf (labels : List (List UInt8)) : String :=
  String.ofList (['.'].intercalate (labels.map latin1))

theorem toAsciiLowercase_nameOf (labels : List (List UInt8)) :
    toAsciiLowercase (nameOf labels) = nameOf (lowerLabels labels) := by
  have dot : Char.toLower '.' = '.' := by decide
  have lowered : (labels.map latin1).map (List.map Char.toLower) =
      (lowerLabels labels).map latin1 := by
    rw [lowerLabels, List.map_map, List.map_map]
    apply List.map_congr_left
    intro label _
    rw [Function.comp_apply, Function.comp_apply, latin1, latin1, List.map_map, List.map_map]
    exact List.map_congr_left fun byte _ => (lowerByte_facts byte).1
  rw [toAsciiLowercase, nameOf, String.toList_ofList, map_intercalate, dot, lowered, nameOf]

/-! ### The packet -/

/-- The pieces between the dots of a name, as they are written -/
def askedLabels (labels : List (List UInt8)) : List (List UInt8) :=
  (labels.flatMap fun label => pieces '.' (latin1 label)).map utf8

def queryHeader (id : UInt16) : List UInt8 :=
  bigEndian 2 id.toNat ++ [0x01, 0x00, 0, 1, 0, 0, 0, 0, 0, 0]

theorem queryHeader_length (id : UInt16) : (queryHeader id).length = 12 := by
  simp [queryHeader]

theorem buildAQuery_nameOf (labels : List (List UInt8)) (id : UInt16) :
    buildAQuery (nameOf labels) id =
      queryHeader id ++ (wireName (askedLabels labels) ++ [0, 1, 0, 1]) := by
  have joined : pieces '.' ((['.'].intercalate (labels.map latin1)).rdropWhile (· == '.')) =
      labels.flatMap fun label => pieces '.' (latin1 label) := by
    rw [pieces_rdropWhile, pieces_intercalate, List.flatMap_map]
  have written : ∀ texts : List (List Char),
      ((texts.map String.ofList).flatMap fun label =>
        if label.isEmpty then []
        else UInt8.ofNat (utf8 label.toList).length :: utf8 label.toList) =
      ((texts.filter (· ≠ [])).map utf8).flatMap wireLabel := by
    intro texts
    induction texts with
    | nil => rfl
    | cons text texts ih =>
        rw [List.map_cons, List.flatMap_cons, ih]
        cases text with
        | nil => rfl
        | cons char text =>
            have filled : (String.ofList (char :: text)).isEmpty = false := by simp
            rw [filled, String.toList_ofList]
            rfl
  rw [buildAQuery, nameOf, trimEndMatches, String.toList_ofList, splitChar, String.toList_ofList]
  simp only [written]
  change _ ++ (_ ++ (((pieces '.' _).map utf8).flatMap wireLabel ++ _)) = _
  rw [joined, queryHeader, wireName, askedLabels]
  simp only [List.append_assoc]
  rfl

/-- Labels which are not too long for a byte are parsed if they are not too long for labels. -/
theorem queryLabels_wireName {front back : List UInt8} {labels : List (List UInt8)}
    (sized : ∀ label ∈ labels, 0 < label.length ∧ label.length < 256) :
    queryLabels (front ++ (wireName labels ++ back)) front.length =
      if ∀ label ∈ labels, label.length ≤ 63 then
        some (labels, front.length + (wireName labels).length)
      else none := by
  induction labels generalizing front with
  | nil =>
      rw [queryLabels_of_some (getElem?_wireName_nil front back), if_pos rfl, if_pos nofun]
      rfl
  | cons label labels ih =>
      rw [List.forall_mem_cons] at sized
      rcases sized with ⟨⟨positive, small⟩, sized⟩
      have read := toNat_label_length small
      have nonzero : UInt8.ofNat label.length ≠ 0 := by
        intro zero
        rw [zero] at read
        exact Nat.ne_of_gt positive read.symm
      have next := @ih (front ++ wireLabel label) sized
      rw [← append_wireName_cons, length_append_wireLabel] at next
      rw [queryLabels_of_some (getElem?_wireName_cons front back label labels), if_neg nonzero,
        read]
      by_cases long : 63 < label.length
      · rw [if_pos (.inl long), if_neg]
        intro short
        exact Nat.not_lt.mpr (short label List.mem_cons_self) long
      · have fits : ¬(63 < label.length ∨ front.length + 1 + label.length >
            (front ++ (wireName (label :: labels) ++ back)).length) := by
          rw [append_wireName_cons, List.length_append, length_append_wireLabel]
          omega
        have taken : bytesAt (front ++ (wireName (label :: labels) ++ back)) (front.length + 1)
            label.length = label := by
          rw [wireName_cons, wireLabel, List.append_assoc, List.cons_append, List.append_cons]
          exact bytesAt_append (by simp) rfl _
        have all : (∀ text ∈ label :: labels, text.length ≤ 63) ↔
            ∀ text ∈ labels, text.length ≤ 63 := by
          rw [List.forall_mem_cons]
          exact and_iff_right (Nat.le_of_not_lt long)
        rw [if_neg fits, next, taken, if_congr all rfl rfl]
        split
        · rw [Option.bind_some, wireName_length_cons, Option.some.injEq, Prod.mk.injEq]
          exact ⟨rfl, by omega⟩
        · rfl

section Asked

variable {labels : List (List UInt8)}

theorem askedLabels_sized (proper : ∀ label ∈ labels, IsLabel label) :
    ∀ asked ∈ askedLabels labels, 0 < asked.length ∧ asked.length < 256 := by
  intro asked member
  rcases List.mem_map.mp member with ⟨piece, inside, rfl⟩
  rcases List.mem_flatMap.mp inside with ⟨label, label_mem, inside⟩
  obtain ⟨-, nonempty, short⟩ := mem_pieces inside
  have label_short := (proper label label_mem).2
  have wide := utf8_length_le piece
  rw [latin1, List.length_map] at short
  exact ⟨utf8_ne_nil nonempty, by omega⟩

def PlainLabel (label : List UInt8) : Prop :=
  ∀ byte ∈ label, byte.toNat < 128 ∧ byte ≠ 46

theorem dot_mem_latin1_iff {label : List UInt8} : '.' ∈ latin1 label ↔ (46 : UInt8) ∈ label := by
  rw [latin1, List.mem_map]
  constructor
  · rintro ⟨byte, member, same⟩
    have code := congrArg Char.toNat same
    rw [toNat_latin1] at code
    have is_dot : byte = 46 := UInt8.toNat_inj.mp code
    exact is_dot ▸ member
  · intro member
    exact ⟨46, member, rfl⟩

theorem pieces_latin1 {label : List UInt8} (proper : IsLabel label)
    (no_dot : (46 : UInt8) ∉ label) : pieces '.' (latin1 label) = [latin1 label] := by
  apply pieces_of_not_mem (mt dot_mem_latin1_iff.mp no_dot)
  intro empty
  have length_eq := congrArg List.length empty
  rw [latin1, List.length_map] at length_eq
  exact Nat.ne_of_gt proper.1 length_eq

/-- The labels are asked for as they are exactly if none of their bytes is special. -/
theorem askedLabels_eq_iff (proper : ∀ label ∈ labels, IsLabel label) :
    askedLabels labels = labels ↔ ∀ label ∈ labels, PlainLabel label := by
  have of_no_dots : (∀ label ∈ labels, (46 : UInt8) ∉ label) →
      askedLabels labels = labels.map fun label => utf8 (latin1 label) := by
    intro no_dots
    rw [askedLabels, List.flatMap_congr fun label member =>
      pieces_latin1 (proper label member) (no_dots label member), ← List.map_eq_flatMap,
      List.map_map]
    rfl
  constructor
  · intro same label member
    have no_dots : ∀ label ∈ labels, (46 : UInt8) ∉ label := by
      intro label member
      rw [← same] at member
      rcases List.mem_map.mp member with ⟨piece, inside, rfl⟩
      rcases List.mem_flatMap.mp inside with ⟨_, _, inside⟩
      exact dot_not_mem_utf8 (mem_pieces inside).1
    rw [of_no_dots no_dots] at same
    have kept : ∀ label ∈ labels, utf8 (latin1 label) = label :=
      List.map_eq_map_iff.mp (same.trans (List.map_id labels).symm)
    intro byte inside
    have ascii := ascii_of_utf8_latin1 (Nat.le_of_eq (congrArg List.length (kept label member)))
    refine ⟨ascii byte inside, ?_⟩
    rintro rfl
    exact no_dots label member inside
  · intro plain
    rw [of_no_dots fun label member dot => (plain label member 46 dot).2 rfl]
    have kept : ∀ label ∈ labels, utf8 (latin1 label) = id label := fun label member =>
      utf8_latin1 fun byte inside => (plain label member byte inside).1
    rw [List.map_congr_left kept, List.map_id]

theorem lowerLabels_proper (proper : ∀ label ∈ labels, IsLabel label) :
    ∀ label ∈ lowerLabels labels, IsLabel label := by
  intro lowered member
  rcases List.mem_map.mp member with ⟨label, inside, rfl⟩
  rw [IsLabel, List.length_map]
  exact proper label inside

theorem plainLabel_lower_iff {label : List UInt8} :
    PlainLabel (label.map lowerByte) ↔ PlainLabel label := by
  simp only [PlainLabel, List.forall_mem_map, (lowerByte_facts _).2.2.1, ne_eq,
    (lowerByte_facts _).2.2.2]

theorem forall_plainLabel_lower_iff :
    (∀ label ∈ lowerLabels labels, PlainLabel label) ↔ ∀ label ∈ labels, PlainLabel label := by
  simp only [lowerLabels, List.forall_mem_map, plainLabel_lower_iff]

end Asked

theorem parseQuery_packet {labels : List (List UInt8)} (proper : ∀ label ∈ labels, IsLabel label)
    (id : UInt16) :
    parseQuery (queryHeader id ++ (wireName labels ++ [0, 1, 0, 1])) =
      some (toAsciiLowercase (nameOf labels), 1,
        (queryHeader id ++ (wireName labels ++ [0, 1, 0, 1])).length) := by
  have header_length := queryHeader_length id
  have total : (queryHeader id ++ (wireName labels ++ [0, 1, 0, 1])).length =
      12 + (wireName labels).length + 4 := by
    rw [List.length_append, List.length_append, header_length, Nat.add_assoc]
    rfl
  have parsed := @queryLabels_wireName (queryHeader id) [0, 1, 0, 1] labels
    fun label member => ⟨(proper label member).1, Nat.lt_of_le_of_lt (proper label member).2
      (by decide)⟩
  rw [header_length, if_pos fun label member => (proper label member).2] at parsed
  have questions : numberAt (queryHeader id ++ (wireName labels ++ [0, 1, 0, 1])) 4 2 = 1 := by
    have field := @bytesAt_append (bigEndian 2 id.toNat ++ [0x01, 0x00]) [0, 1] 4 2 rfl rfl
      ([0, 0, 0, 0, 0, 0] ++ (wireName labels ++ [0, 1, 0, 1]))
    rw [numberAt, queryHeader]
    simp only [List.append_assoc, List.cons_append, List.nil_append] at field ⊢
    rw [field]
    rfl
  have asked : numberAt (queryHeader id ++ (wireName labels ++ [0, 1, 0, 1]))
      (12 + (wireName labels).length) 2 = 1 := by
    rw [← List.append_assoc, ← Nat.add_zero (12 + _), numberAt_behind]
    · rfl
    · rw [List.length_append, header_length]
  rw [parseQuery, if_neg (by omega), questions, if_neg (by decide), parsed]
  simp only [Option.bind_eq_bind, Option.bind_some]
  rw [if_neg (by omega), asked, total]
  rfl

/-- The packet is parsed into the name, and into labels which differ only in case. -/
def AsksFor (query packet : List UInt8) (domain : String) : Prop :=
  parseQuery packet = some (domain, 1, packet.length) ∧
    (queryLabels packet 12).map Prod.fst =
      (queryLabels query 12).map fun read => lowerLabels read.1

/-- No byte of a label is outside ASCII or a dot. -/
def PlainName (query : List UInt8) : Prop :=
  ∀ read, queryLabels query 12 = some read → ∀ label ∈ read.1, PlainLabel label

/-- The name of a query is asked upstream if all of its labels are plain, and otherwise not. -/
theorem upstream_asksFor_iff {query : List UInt8} {domain : String} {qtype : UInt16}
    {questionLen : ℕ} (accepted : parseQuery query = some (domain, qtype, questionLen))
    (id : UInt16) : AsksFor query (buildAQuery domain id) domain ↔ PlainName query := by
  obtain ⟨-, labels, read, proper, -, -, -, domain_eq⟩ := parseQuery_spec accepted
  have name_eq : domain = nameOf (lowerLabels labels) := by
    rw [domain_eq]
    exact toAsciiLowercase_nameOf labels
  have plain : PlainName query ↔ ∀ label ∈ labels, PlainLabel label := by
    rw [PlainName, read]
    constructor
    · intro all
      exact all _ rfl
    · intro all found same
      cases same
      exact all
  have lowered := lowerLabels_proper proper
  have parsed := @queryLabels_wireName (queryHeader id) [0, 1, 0, 1] _ (askedLabels_sized lowered)
  rw [plain, ← forall_plainLabel_lower_iff, ← askedLabels_eq_iff lowered, AsksFor, name_eq,
    buildAQuery_nameOf, read, Option.map_some]
  rw [queryHeader_length] at parsed
  constructor
  · rintro ⟨-, same⟩
    rw [parsed] at same
    split at same
    · exact Option.some.inj same
    · cases same
  · intro same
    rw [same] at parsed ⊢
    rw [if_pos fun label member => (lowered label member).2] at parsed
    constructor
    · rw [parseQuery_packet lowered, toAsciiLowercase_nameOf, lowerLabels_lowerLabels]
    · rw [parsed]
      rfl

/-- A query for "a" -/
theorem upstream_asksFor_shortQuery :
    AsksFor shortQuery (buildAQuery "a" 7) "a" ↔ PlainName shortQuery :=
  upstream_asksFor_iff (by decide +kernel : parseQuery shortQuery = some ("a", 1, 19)) 7

/-- A query whose label is one letter outside ASCII, in UTF-8 -/
def accentQuery : List UInt8 :=
  [0x12, 0x34, 1, 0, 0, 1, 0, 0, 0, 0, 0, 0, 2, 0xC3, 0xA9, 0, 0, 1, 0, 1]

theorem not_asksFor_accentQuery :
    ¬∀ (query : List UInt8) (domain : String) (qtype : UInt16) (questionLen : ℕ) (id : UInt16),
      parseQuery query = some (domain, qtype, questionLen) →
        AsksFor query (buildAQuery domain id) domain := by
  intro claimed
  have accepted : parseQuery accentQuery = some (String.ofList (latin1 [0xC3, 0xA9]), 1, 20) := by
    decide +kernel
  have asks := (claimed accentQuery _ 1 20 7 accepted).1
  have differs : parseQuery (buildAQuery (String.ofList (latin1 [0xC3, 0xA9])) 7) ≠
      some (String.ofList (latin1 [0xC3, 0xA9]), 1,
        (buildAQuery (String.ofList (latin1 [0xC3, 0xA9])) 7).length) := by decide +kernel
  exact differs asks

end Mirage.Tun
