import Mathlib.Data.List.Basic
import Mathlib.Data.List.Forall2
import Mathlib.Tactic.Ring
import Mirage.Foundations.Access

/-!
# The wire format of protocol buffers

A message is a sequence of fields.  A field has a number and a payload, whose wire
type says how far the payload goes.  `Encodes` is the relation of the format: a
number may be written in more groups of seven bits than it needs, and fields may
stand in any order.  The obsolete wire types 3 and 4, which mark groups, are not
part of it.

`scan` reads any bytes as far as they are fields, and `scan_of_encodes` says that it
reads what was written.
-/

namespace Mirage.Foundations.Wire

inductive Payload where
  | varint (value : ℕ)
  | fixed64 (data : List UInt8)
  | bytes (data : List UInt8)
  | fixed32 (data : List UInt8)
  deriving DecidableEq, Repr

def Payload.wireType : Payload → ℕ
  | .varint _ => 0
  | .fixed64 _ => 1
  | .bytes _ => 2
  | .fixed32 _ => 5

structure Field where
  number : ℕ
  payload : Payload
  deriving DecidableEq, Repr

/-! ## Encodings -/

/-- Groups of seven bits, the lowest first; every group but the last is marked. -/
inductive Groups : ℕ → List UInt8 → Prop
  | last {byte : UInt8} (ends : byte.toNat < 128) : Groups byte.toNat [byte]
  | more {byte : UInt8} {value : ℕ} {rest : List UInt8} (goes_on : 128 ≤ byte.toNat)
      (tail : Groups value rest) : Groups (byte.toNat - 128 + 128 * value) (byte :: rest)

/-- The bytes are a number of 64 bits, in at most ten groups. -/
structure Varint (value : ℕ) (bytes : List UInt8) : Prop where
  groups : Groups value bytes
  short : bytes.length ≤ 10
  fits : value < 2 ^ 64

inductive EncodesPayload : Payload → List UInt8 → Prop
  | varint {value : ℕ} {written : List UInt8} (number : Varint value written) :
      EncodesPayload (.varint value) written
  | fixed64 {data : List UInt8} (eight : data.length = 8) : EncodesPayload (.fixed64 data) data
  | bytes {data header : List UInt8} (length : Varint data.length header) :
      EncodesPayload (.bytes data) (header ++ data)
  | fixed32 {data : List UInt8} (four : data.length = 4) : EncodesPayload (.fixed32 data) data

inductive Encodes : List Field → List UInt8 → Prop
  | nil : Encodes [] []
  | cons {field : Field} {fields : List Field} {tag payload rest : List UInt8}
      (tagged : Varint (field.number * 8 + field.payload.wireType) tag)
      (written : EncodesPayload field.payload payload) (others : Encodes fields rest) :
      Encodes (field :: fields) (tag ++ (payload ++ rest))

theorem Varint.single {value : ℕ} (small : value < 128) : Varint value [UInt8.ofNat value] := by
  have same : (UInt8.ofNat value).toNat = value := by
    rw [UInt8.toNat_ofNat']
    omega
  have last := @Groups.last (UInt8.ofNat value) (by omega)
  rw [same] at last
  exact ⟨last, by simp, by omega⟩

/-- A field whose number and length are small takes two bytes before its data. -/
theorem Encodes.cons_bytes {number : ℕ} {data rest : List UInt8} {fields : List Field}
    (small : number * 8 + 2 < 128) (short : data.length < 128) (others : Encodes fields rest) :
    Encodes (⟨number, .bytes data⟩ :: fields)
      (UInt8.ofNat (number * 8 + 2) :: UInt8.ofNat data.length :: (data ++ rest)) :=
  @Encodes.cons ⟨number, .bytes data⟩ fields _ _ _ (.single small) (.bytes (.single short)) others

theorem Encodes.cons_varint {number value : ℕ} {written rest : List UInt8} {fields : List Field}
    (small : number * 8 < 128) (encoded : Varint value written) (others : Encodes fields rest) :
    Encodes (⟨number, .varint value⟩ :: fields)
      (UInt8.ofNat (number * 8) :: (written ++ rest)) :=
  .cons (.single small) (.varint encoded) others

/-! ## What a message holds of one number -/

def Field.varint? (number : ℕ) (field : Field) : Option ℕ :=
  match field.payload with
  | .varint value => if field.number = number then some value else none
  | _ => none

def Field.bytes? (number : ℕ) (field : Field) : Option (List UInt8) :=
  match field.payload with
  | .bytes data => if field.number = number then some data else none
  | _ => none

/-- A field which is not repeated has its last value, or the default. -/
def lastVarint (number : ℕ) (fields : List Field) : ℕ :=
  (fields.filterMap (Field.varint? number)).getLast?.getD 0

def allBytes (number : ℕ) (fields : List Field) : List (List UInt8) :=
  fields.filterMap (Field.bytes? number)

def lastBytes (number : ℕ) (fields : List Field) : List UInt8 :=
  (allBytes number fields).getLast?.getD []

theorem Field.bytes?_eq_some {number : ℕ} {field : Field} {data : List UInt8} :
    field.bytes? number = some data ↔ field = ⟨number, .bytes data⟩ := by
  rcases field with ⟨other, payload⟩
  cases payload with
  | bytes written =>
      simp only [Field.bytes?, Option.ite_none_right_eq_some, Option.some.injEq, Field.mk.injEq,
        Payload.bytes.injEq]
  | varint value | fixed64 data | fixed32 data => simp [Field.bytes?]

theorem Field.varint?_eq_some {number value : ℕ} {field : Field} :
    field.varint? number = some value ↔ field = ⟨number, .varint value⟩ := by
  rcases field with ⟨other, payload⟩
  cases payload with
  | varint written =>
      simp only [Field.varint?, Option.ite_none_right_eq_some, Option.some.injEq, Field.mk.injEq,
        Payload.varint.injEq]
  | bytes data | fixed64 data | fixed32 data => simp [Field.varint?]

theorem Field.bytes?_eq_none {number : ℕ} {field : Field}
    (other : ∀ data, field ≠ ⟨number, .bytes data⟩) : field.bytes? number = none := by
  rw [Option.eq_none_iff_forall_ne_some]
  intro data found
  exact other data (Field.bytes?_eq_some.mp found)

theorem Field.varint?_eq_none {number : ℕ} {field : Field}
    (other : ∀ value, field ≠ ⟨number, .varint value⟩) : field.varint? number = none := by
  rw [Option.eq_none_iff_forall_ne_some]
  intro value found
  exact other value (Field.varint?_eq_some.mp found)

theorem mem_allBytes {number : ℕ} {fields : List Field} {data : List UInt8} :
    data ∈ allBytes number fields ↔ ⟨number, .bytes data⟩ ∈ fields := by
  simp only [allBytes, List.mem_filterMap, Field.bytes?_eq_some, exists_eq_right]

section Folds

variable {Item First Second Value : Type*}

theorem foldl_prod {step : First × Second → Item → First × Second} {first : First → Item → First}
    {second : Second → Item → Second}
    (acts : ∀ a b item, step (a, b) item = (first a item, second b item)) (items : List Item)
    (a : First) (b : Second) :
    items.foldl step (a, b) = (items.foldl first a, items.foldl second b) := by
  induction items generalizing a b with
  | nil => rfl
  | cons item items ih => rw [List.foldl_cons, acts, ih, List.foldl_cons, List.foldl_cons]

/-- The last value wins. -/
theorem foldl_getD (value? : Item → Option Value) (items : List Item) (start : Value) :
    items.foldl (fun old item => (value? item).getD old) start =
      (items.filterMap value?).getLast?.getD start := by
  induction items generalizing start with
  | nil => rfl
  | cons item items ih =>
      rw [List.foldl_cons, ih]
      cases found : value? item with
      | none => rw [List.filterMap_cons_none found, Option.getD_none]
      | some value =>
          rw [List.filterMap_cons_some found, List.getLast?_cons, Option.getD_some,
            Option.getD_some]

/-- All values are kept. -/
theorem foldl_toList (value? : Item → Option Value) (items : List Item) (start : List Value) :
    items.foldl (fun old item => old ++ (value? item).toList) start =
      start ++ items.filterMap value? := by
  induction items generalizing start with
  | nil => rw [List.foldl_nil, List.filterMap_nil, List.append_nil]
  | cons item items ih =>
      rw [List.foldl_cons, ih, List.append_assoc]
      cases found : value? item with
      | none => rw [List.filterMap_cons_none found, Option.toList_none, List.nil_append]
      | some value =>
          rw [List.filterMap_cons_some found, Option.toList_some, List.singleton_append]

theorem getLast?_filterMap_map {Kept : Type*} (value? : Item → Option Value)
    (read : Value → Kept) (items : List Item) (default : Value) :
    (items.filterMap fun item => (value? item).map read).getLast?.getD (read default) =
      read ((items.filterMap value?).getLast?.getD default) := by
  have mapped : (items.filterMap fun item => (value? item).map read) =
      (items.filterMap value?).map read := by
    rw [List.map_filterMap]
  rw [mapped, List.getLast?_map]
  cases (items.filterMap value?).getLast? with
  | none => rfl
  | some value => rfl

/-- Related lists are folded alike. -/
theorem foldl_of_forall₂ {related : First → Second → Prop} {firsts : List First}
    {seconds : List Second} (all : List.Forall₂ related firsts seconds)
    {step : Value → First → Value} {other : Value → Second → Value}
    (same : ∀ value first, ∀ second ∈ seconds, related first second →
      other value second = step value first) (start : Value) :
    seconds.foldl other start = firsts.foldl step start := by
  induction all generalizing start with
  | nil => rfl
  | cons head tail ih =>
      rw [List.foldl_cons, List.foldl_cons, same start _ _ List.mem_cons_self head]
      exact ih (fun value first second member => same value first second (.tail _ member)) _

theorem exists_of_mem_forall₂ {related : First → Second → Prop} {firsts : List First}
    {seconds : List Second} (all : List.Forall₂ related firsts seconds) {second : Second}
    (member : second ∈ seconds) : ∃ first ∈ firsts, related first second := by
  induction all with
  | nil => cases member
  | cons head tail ih =>
      rcases List.mem_cons.mp member with rfl | later
      · exact ⟨_, List.mem_cons_self, head⟩
      · rcases ih later with ⟨first, inside, holds⟩
        exact ⟨first, .tail _ inside, holds⟩

theorem filterMap_of_forall₂ {related : First → Second → Prop} {firsts : List First}
    {seconds : List Second} (all : List.Forall₂ related firsts seconds)
    {read : First → Option Value} {other : Second → Option Value}
    (same : ∀ first, ∀ second ∈ seconds, related first second → other second = read first) :
    seconds.filterMap other = firsts.filterMap read := by
  induction all with
  | nil => rfl
  | cons head tail ih =>
      rw [List.filterMap_cons, List.filterMap_cons, same _ _ List.mem_cons_self head,
        ih fun first second member => same first second (.tail _ member)]

theorem forall₂_filterMap_iff {related : Item → Value → Prop} {value? : Item → Option Value}
    {items : List Item} :
    List.Forall₂ related items (items.filterMap value?) ↔
      ∀ item ∈ items, ∃ value, value? item = some value ∧ related item value := by
  induction items with
  | nil => exact iff_of_true .nil nofun
  | cons item items ih =>
      rw [List.forall_mem_cons, ← ih]
      cases found : value? item with
      | none =>
          rw [List.filterMap_cons_none found]
          apply iff_of_false
          · intro all
            have lengths := all.length_eq
            have fewer := List.length_filterMap_le value? items
            rw [List.length_cons] at lengths
            omega
          · rintro ⟨⟨value, none, _⟩, _⟩
            cases none
      | some value =>
          rw [List.filterMap_cons_some found, List.forall₂_cons]
          simp

end Folds

/-! ## Reading any bytes -/

/-- Why no further field can be read -/
inductive Fault where
  /-- A number has no last group. -/
  | unended
  /-- More bytes are announced than are left. -/
  | missing (left announced : ℕ)
  /-- The wire type is not known, or the bytes of a number of fixed size are not all there. -/
  | unread
  deriving DecidableEq, Repr

def takeGroups : ℕ → List UInt8 → Except Fault (ℕ × List UInt8)
  | 0, _ => .error .unended
  | _ + 1, [] => .error .unended
  | groups + 1, byte :: rest =>
      if byte.toNat < 128 then .ok (byte.toNat, rest)
      else
        match takeGroups groups rest with
        | .ok (value, after) => .ok (byte.toNat - 128 + 128 * value, after)
        | .error fault => .error fault

/-- A number of ten groups may not fit, and is read modulo `2 ^ 64`. -/
def takeVarint (bytes : List UInt8) : Except Fault (ℕ × List UInt8) := do
  let (value, rest) ← takeGroups 10 bytes
  return (value % 2 ^ 64, rest)

def takePayload (wireType : ℕ) (bytes : List UInt8) : Except Fault (Payload × List UInt8) :=
  match wireType with
  | 0 => do
      let (value, rest) ← takeVarint bytes
      return (.varint value, rest)
  | 1 =>
      if 8 ≤ bytes.length then .ok (.fixed64 (bytes.take 8), bytes.drop 8) else .error .unread
  | 2 => do
      let (announced, rest) ← takeVarint bytes
      if announced ≤ rest.length then .ok (.bytes (rest.take announced), rest.drop announced)
      else .error (.missing rest.length announced)
  | 5 =>
      if 4 ≤ bytes.length then .ok (.fixed32 (bytes.take 4), bytes.drop 4) else .error .unread
  | _ => .error .unread

def takeField (bytes : List UInt8) : Except Fault (Field × List UInt8) := do
  let (tag, rest) ← takeVarint bytes
  let (payload, rest) ← takePayload (tag % 8) rest
  return (⟨tag / 8, payload⟩, rest)

section Rests

variable {bytes rest : List UInt8}

theorem takeGroups_suffix {groups value : ℕ} (taken : takeGroups groups bytes = .ok (value, rest)) :
    ∃ used, used ≠ [] ∧ bytes = used ++ rest := by
  induction groups, bytes using takeGroups.induct generalizing value with
  | case1 | case2 => cases taken
  | case3 groups byte others ends =>
      rw [takeGroups, if_pos ends] at taken
      cases taken
      exact ⟨[byte], List.cons_ne_nil _ _, rfl⟩
  | case4 groups byte others goes_on value' after found ih =>
      rw [takeGroups, if_neg goes_on, found] at taken
      cases taken
      rcases ih found with ⟨used, _, split⟩
      exact ⟨byte :: used, List.cons_ne_nil _ _, by rw [split, List.cons_append]⟩
  | case5 groups byte others goes_on fault found ih =>
      rw [takeGroups, if_neg goes_on, found] at taken
      cases taken

theorem takeGroups_error {groups : ℕ} {fault : Fault}
    (stuck : takeGroups groups bytes = .error fault) : fault = .unended := by
  induction groups, bytes using takeGroups.induct with
  | case1 | case2 =>
      cases stuck
      rfl
  | case3 groups byte others ends =>
      rw [takeGroups, if_pos ends] at stuck
      cases stuck
  | case4 groups byte others goes_on value after found ih =>
      rw [takeGroups, if_neg goes_on, found] at stuck
      cases stuck
  | case5 groups byte others goes_on other found ih =>
      rw [takeGroups, if_neg goes_on, found] at stuck
      cases stuck
      exact ih found

theorem takeVarint_suffix {value : ℕ} (taken : takeVarint bytes = .ok (value, rest)) :
    ∃ used, used ≠ [] ∧ bytes = used ++ rest := by
  rcases bind_eq_ok taken with ⟨⟨whole, after⟩, found, same⟩
  cases same
  exact takeGroups_suffix found

theorem takeVarint_error {fault : Fault} (stuck : takeVarint bytes = .error fault) :
    fault = .unended := by
  rw [takeVarint] at stuck
  cases found : takeGroups 10 bytes with
  | error other =>
      rw [found] at stuck
      cases stuck
      exact takeGroups_error found
  | ok result =>
      rw [found] at stuck
      cases stuck

/-- The bytes of a payload stand in front of the rest. -/
theorem takePayload_suffix {wireType : ℕ} {payload : Payload}
    (taken : takePayload wireType bytes = .ok (payload, rest)) :
    ∃ used, bytes = used ++ rest ∧ ∀ data, payload = .bytes data → data.length ≤ used.length := by
  rw [takePayload.eq_def] at taken
  split at taken
  · rcases bind_eq_ok taken with ⟨⟨value, after⟩, found, same⟩
    cases same
    rcases takeVarint_suffix found with ⟨used, _, whole⟩
    exact ⟨used, whole, nofun⟩
  · split at taken
    · cases taken
      exact ⟨bytes.take 8, (List.take_append_drop 8 bytes).symm, nofun⟩
    · cases taken
  · rcases bind_eq_ok taken with ⟨⟨announced, after⟩, found, same⟩
    rcases takeVarint_suffix found with ⟨used, _, whole⟩
    simp only at same
    split at same
    · cases same
      refine ⟨used ++ after.take announced, ?_, ?_⟩
      · rw [List.append_assoc, List.take_append_drop, whole]
      · rintro _ ⟨⟩
        rw [List.length_append]
        exact Nat.le_add_left _ _
    · cases same
  · split at taken
    · cases taken
      exact ⟨bytes.take 4, (List.take_append_drop 4 bytes).symm, nofun⟩
    · cases taken
  · cases taken

theorem takeField_suffix {field : Field} (taken : takeField bytes = .ok (field, rest)) :
    ∃ used, used ≠ [] ∧ bytes = used ++ rest := by
  rcases bind_eq_ok taken with ⟨⟨tag, after⟩, tagged, taken⟩
  rcases bind_eq_ok taken with ⟨⟨payload, remaining⟩, read, same⟩
  cases same
  rcases takeVarint_suffix tagged with ⟨first, nonempty, whole⟩
  rcases takePayload_suffix read with ⟨second, split, _⟩
  refine ⟨first ++ second, List.append_ne_nil_of_left_ne_nil nonempty second, ?_⟩
  rw [whole, split, List.append_assoc]

theorem takeField_length {field : Field} (taken : takeField bytes = .ok (field, rest)) :
    rest.length < bytes.length := by
  rcases takeField_suffix taken with ⟨used, nonempty, whole⟩
  have positive := List.length_pos_iff.mpr nonempty
  rw [whole, List.length_append]
  omega

end Rests

/-- The fields in front, and why they do not go on; `none` at the end of the bytes. -/
def scan (bytes : List UInt8) : List Field × Option Fault :=
  if bytes = [] then ([], none)
  else
    match _ : takeField bytes with
    | .error fault => ([], some fault)
    | .ok (field, rest) => (field :: (scan rest).1, (scan rest).2)
termination_by bytes.length
decreasing_by all_goals exact takeField_length ‹_›

theorem scan_nil : scan [] = ([], none) := by
  rw [scan, if_pos rfl]

theorem scan_of_error {bytes : List UInt8} {fault : Fault} (nonempty : bytes ≠ [])
    (stuck : takeField bytes = .error fault) : scan bytes = ([], some fault) := by
  rw [scan, if_neg nonempty]
  split
  · rename_i other found
    rw [stuck] at found
    cases found
    rfl
  · rename_i found
    rw [stuck] at found
    cases found

theorem scan_of_ok {bytes rest : List UInt8} {field : Field}
    (taken : takeField bytes = .ok (field, rest)) :
    scan bytes = (field :: (scan rest).1, (scan rest).2) := by
  have nonempty : bytes ≠ [] := by
    intro empty
    have shorter := takeField_length taken
    rw [empty] at shorter
    exact Nat.not_lt_zero _ shorter
  rw [scan, if_neg nonempty]
  split
  · rename_i found
    rw [taken] at found
    cases found
  · rename_i found
    rw [taken] at found
    cases found
    rfl

/-- A part of a message is not longer than the message. -/
theorem length_le_of_mem_scan {bytes data : List UInt8} {number : ℕ}
    (member : ⟨number, .bytes data⟩ ∈ (scan bytes).1) : data.length ≤ bytes.length := by
  induction size : bytes.length using Nat.strong_induction_on generalizing bytes with
  | _ size ih =>
  by_cases empty : bytes = []
  · rw [empty, scan_nil] at member
    cases member
  · cases taken : takeField bytes with
    | error fault =>
        rw [scan_of_error empty taken] at member
        cases member
    | ok result =>
        rcases result with ⟨field, rest⟩
        have shorter := takeField_length taken
        rw [scan_of_ok taken, List.mem_cons] at member
        rcases member with this_one | later
        · rcases bind_eq_ok taken with ⟨⟨tag, after⟩, tagged, taken⟩
          rcases bind_eq_ok taken with ⟨⟨payload, remaining⟩, found, same⟩
          cases same
          cases this_one
          rcases takeVarint_suffix tagged with ⟨header, _, whole⟩
          rcases takePayload_suffix found with ⟨used, split, inside⟩
          have bounded := inside data rfl
          rw [← size, whole, split, List.length_append, List.length_append]
          omega
        · have inside := ih rest.length (by omega) later rfl
          omega

/-! ## What was written is read -/

theorem takeGroups_append {value : ℕ} {written : List UInt8} (encoded : Groups value written)
    {groups : ℕ} (enough : written.length ≤ groups) (rest : List UInt8) :
    takeGroups groups (written ++ rest) = .ok (value, rest) := by
  induction encoded generalizing groups with
  | last ends =>
      rcases groups with _ | groups
      · cases enough
      · rw [List.singleton_append, takeGroups, if_pos ends]
  | more goes_on tail ih =>
      rcases groups with _ | groups
      · cases enough
      · rw [List.cons_append, takeGroups, if_neg (Nat.not_lt.mpr goes_on),
          ih (Nat.le_of_succ_le_succ enough)]

theorem takeVarint_append {value : ℕ} {written : List UInt8} (encoded : Varint value written)
    (rest : List UInt8) : takeVarint (written ++ rest) = .ok (value, rest) := by
  have fits := encoded.fits
  rw [takeVarint, takeGroups_append encoded.groups encoded.short]
  change Except.ok (value % 2 ^ 64, rest) = _
  rw [Nat.mod_eq_of_lt fits]

theorem takePayload_append {payload : Payload} {written : List UInt8}
    (encoded : EncodesPayload payload written) (rest : List UInt8) :
    takePayload payload.wireType (written ++ rest) = .ok (payload, rest) := by
  cases encoded with
  | varint number =>
      rw [Payload.wireType, takePayload, takeVarint_append number]
      rfl
  | fixed64 eight =>
      rw [Payload.wireType, takePayload, if_pos (by simp [eight]), ← eight, List.take_left,
        List.drop_left]
  | @bytes data header length =>
      rw [Payload.wireType, takePayload, List.append_assoc, takeVarint_append length]
      change (if data.length ≤ (data ++ rest).length then _ else _) = _
      rw [if_pos (by simp), List.take_left, List.drop_left]
  | fixed32 four =>
      rw [Payload.wireType, takePayload, if_pos (by simp [four]), ← four, List.take_left,
        List.drop_left]

theorem Payload.wireType_lt (payload : Payload) : payload.wireType < 8 := by
  cases payload
  all_goals simp only [wireType]; omega

theorem takeField_append {field : Field} {tag payload : List UInt8}
    (tagged : Varint (field.number * 8 + field.payload.wireType) tag)
    (written : EncodesPayload field.payload payload) (rest : List UInt8) :
    takeField (tag ++ (payload ++ rest)) = .ok (field, rest) := by
  have small := field.payload.wireType_lt
  have number : (field.number * 8 + field.payload.wireType) / 8 = field.number := by omega
  have kind : (field.number * 8 + field.payload.wireType) % 8 = field.payload.wireType := by omega
  rw [takeField, takeVarint_append tagged]
  change (takePayload _ _ >>= _) = _
  rw [kind, number, takePayload_append written]
  rfl

/-- Behind fields, a scan goes on with the rest. -/
theorem scan_append {fields : List Field} {front : List UInt8} (encoded : Encodes fields front)
    (rest : List UInt8) : scan (front ++ rest) = (fields ++ (scan rest).1, (scan rest).2) := by
  induction encoded with
  | nil => rfl
  | @cons field fields tag payload others tagged written encoded ih =>
      rw [List.append_assoc, List.append_assoc, scan_of_ok (takeField_append tagged written _), ih]
      rfl

theorem scan_of_encodes {fields : List Field} {bytes : List UInt8}
    (encoded : Encodes fields bytes) : scan bytes = (fields, none) := by
  have whole := scan_append encoded []
  rw [List.append_nil, scan_nil, List.append_nil] at whole
  exact whole

end Mirage.Foundations.Wire

/-!
# Names on the wire

A name of the domain name system is a row of labels, each behind a byte with its
length, and an empty label which ends it.
-/

namespace Mirage.Foundations

def wireLabel (label : List UInt8) : List UInt8 :=
  UInt8.ofNat label.length :: label

def wireName (labels : List (List UInt8)) : List UInt8 :=
  labels.flatMap wireLabel ++ [0]

/-- The length of a label is below 64; greater numbers are marks. -/
def IsLabel (label : List UInt8) : Prop :=
  0 < label.length ∧ label.length ≤ 63

theorem wireName_cons (label : List UInt8) (labels : List (List UInt8)) :
    wireName (label :: labels) = wireLabel label ++ wireName labels := by
  rw [wireName, wireName, List.flatMap_cons, List.append_assoc]

theorem wireName_length_cons (label : List UInt8) (labels : List (List UInt8)) :
    (wireName (label :: labels)).length = 1 + label.length + (wireName labels).length := by
  rw [wireName_cons, List.length_append, wireLabel, List.length_cons]
  omega

theorem length_lt_wireName {labels : List (List UInt8)}
    (nonempty : ∀ label ∈ labels, 0 < label.length) :
    2 * labels.length < (wireName labels).length := by
  induction labels with
  | nil => exact Nat.zero_lt_one
  | cons label labels ih =>
      rw [List.forall_mem_cons] at nonempty
      have shorter := ih nonempty.2
      rw [wireName_length_cons, List.length_cons]
      omega

section Places

variable (front back label : List UInt8) (labels : List (List UInt8))

theorem append_wireName_cons :
    front ++ (wireName (label :: labels) ++ back) =
      (front ++ wireLabel label) ++ (wireName labels ++ back) := by
  rw [wireName_cons, List.append_assoc, List.append_assoc]

theorem length_append_wireLabel :
    (front ++ wireLabel label).length = front.length + 1 + label.length := by
  rw [wireLabel, List.length_append, List.length_cons]
  omega

theorem getElem?_append_length (byte : UInt8) :
    (front ++ byte :: back)[front.length]? = some byte := by
  rw [List.getElem?_append_right (Nat.le_refl _), Nat.sub_self, List.getElem?_cons_zero]

theorem getElem?_wireName_nil : (front ++ (wireName [] ++ back))[front.length]? = some 0 :=
  getElem?_append_length front back 0

theorem getElem?_wireName_cons :
    (front ++ (wireName (label :: labels) ++ back))[front.length]? =
      some (UInt8.ofNat label.length) := by
  rw [wireName_cons, wireLabel]
  exact getElem?_append_length front _ _

end Places

/-- A label is read back from its length. -/
theorem toNat_label_length {label : List UInt8} (short : label.length < 256) :
    (UInt8.ofNat label.length).toNat = label.length := by
  rw [UInt8.toNat_ofNat']
  omega

end Mirage.Foundations
