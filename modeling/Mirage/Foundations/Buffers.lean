import Mirage.Foundations.Checked
import Mirage.Foundations.Sealing

/-!
# Buffers which are filled in

A packet is built in a buffer of blank bytes, into which one field after the other is
written.  Written from left to right, the fields stand in the buffer with blanks
between them.
-/

namespace Mirage.Foundations

namespace Checked

universe u

variable {Value : Type u}

/-- `bytes[start..start + new.len()].copy_from_slice(new)`, for each field in turn -/
def writes (bytes : List Value) (fields : List (ℕ × List Value)) : Checked (List Value) :=
  fields.foldlM (fun bytes field => overwrite bytes field.1 field.2) bytes

theorem writes_nil (bytes : List Value) : writes bytes [] = done bytes :=
  rfl

theorem writes_cons (bytes new : List Value) (start : ℕ) (fields : List (ℕ × List Value)) :
    writes bytes ((start, new) :: fields) =
      overwrite bytes start new >>= fun bytes => writes bytes fields :=
  rfl

/-- The fields from left to right, and the blanks in front of each -/
def layout (blank : Value) : ℕ → List (ℕ × List Value) → List Value
  | _, [] => []
  | place, (start, new) :: fields =>
      List.replicate (start - place) blank ++ (new ++ layout blank (start + new.length) fields)

/-- Each field begins where the one before it has ended or later, and all end in time. -/
def InOrder : ℕ → List (ℕ × List Value) → ℕ → Prop
  | place, [], stop => place ≤ stop
  | place, (start, new) :: fields, stop =>
      place ≤ start ∧ InOrder (start + new.length) fields stop

theorem InOrder.le {place stop : ℕ} {fields : List (ℕ × List Value)}
    (ordered : InOrder place fields stop) : place ≤ stop := by
  induction fields generalizing place with
  | nil => exact ordered
  | cons field fields ih =>
      have start_le := ih ordered.2
      have place_le := ordered.1
      omega

theorem writes_blank {blank : Value} {fields : List (ℕ × List Value)} {front : List Value}
    {size : ℕ} (ordered : InOrder front.length fields (front.length + size)) :
    writes (front ++ List.replicate size blank) fields =
      done (front ++ (layout blank front.length fields ++
        List.replicate (size - (layout blank front.length fields).length) blank)) := by
  induction fields generalizing front size with
  | nil => rfl
  | cons field fields ih =>
      rcases field with ⟨start, new⟩
      rcases ordered with ⟨behind, rest⟩
      have inside := rest.le
      have split : List.replicate size blank =
          List.replicate (start - front.length) blank ++ (List.replicate new.length blank ++
            List.replicate (front.length + size - (start + new.length)) blank) := by
        rw [← List.replicate_add, ← List.replicate_add]
        congr 1
        omega
      have place : start = (front ++ List.replicate (start - front.length) blank).length := by
        rw [List.length_append, List.length_replicate]
        omega
      have written : overwrite (front ++ List.replicate size blank) start new =
          done ((front ++ (List.replicate (start - front.length) blank ++ new)) ++
            List.replicate (front.length + size - (start + new.length)) blank) := by
        rw [split, ← List.append_assoc, overwrite_append place (List.length_replicate).symm]
        simp only [List.append_assoc]
      have next : (front ++ (List.replicate (start - front.length) blank ++ new)).length =
          start + new.length := by
        simp only [List.length_append, List.length_replicate]
        omega
      have total : start + new.length + (front.length + size - (start + new.length)) =
          front.length + size := by omega
      have ordered : InOrder (front ++ (List.replicate (start - front.length) blank ++ new)).length
          fields ((front ++ (List.replicate (start - front.length) blank ++ new)).length +
            (front.length + size - (start + new.length))) := by
        rw [next, total]
        exact rest
      have later := ih ordered
      rw [next] at later
      rw [writes_cons, written, done_bind, later, layout]
      have blanks : front.length + size - (start + new.length) -
            (layout blank (start + new.length) fields).length =
          size - (List.replicate (start - front.length) blank ++
            (new ++ layout blank (start + new.length) fields)).length := by
        simp only [List.length_append, List.length_replicate]
        omega
      rw [blanks]
      simp only [List.append_assoc]

theorem writes_layout {blank : Value} {fields : List (ℕ × List Value)} {front result : List Value}
    {size rest : ℕ} (laid : layout blank front.length fields = result)
    (ordered : InOrder front.length fields (front.length + size))
    (sized : size = result.length + rest) :
    writes (front ++ List.replicate size blank) fields =
      done (front ++ (result ++ List.replicate rest blank)) := by
  rw [writes_blank ordered, laid, sized, Nat.add_sub_cancel_left]

theorem writes_start {blank : Value} {fields : List (ℕ × List Value)} {result : List Value}
    {size rest : ℕ} (laid : layout blank 0 fields = result) (ordered : InOrder 0 fields size)
    (sized : size = result.length + rest) :
    writes (List.replicate size blank) fields = done (result ++ List.replicate rest blank) := by
  have written := @writes_layout _ blank fields [] result size rest laid
    ((Nat.zero_add size).symm ▸ ordered) sized
  exact written

/-- The fields fill the buffer. -/
theorem writes_whole {blank : Value} {fields : List (ℕ × List Value)} {result : List Value}
    {size : ℕ} (laid : layout blank 0 fields = result) (ordered : InOrder 0 fields size)
    (sized : size = result.length) :
    writes (List.replicate size blank) fields = done result := by
  rw [@writes_start _ _ _ _ _ 0 laid ordered sized, List.replicate_zero, List.append_nil]

end Checked

theorem ofNat_ofBigEndian_toNat {width : ℕ} (bytes : ℕ) (sized : 2 ^ width = 256 ^ bytes)
    (address : BitVec width) :
    BitVec.ofNat width (ofBigEndian (bigEndian bytes address.toNat)) = address := by
  rw [ofBigEndian_bigEndian bytes address.toNat (sized ▸ address.isLt), BitVec.ofNat_toNat,
    BitVec.setWidth_eq]

section Fields

variable {before bytes : List UInt8} {start width : ℕ}

def bytesAt (bytes : List UInt8) (start width : ℕ) : List UInt8 :=
  (bytes.drop start).take width

/-- The number which stands at a place -/
def numberAt (bytes : List UInt8) (start width : ℕ) : ℕ :=
  ofBigEndian (bytesAt bytes start width)

theorem bytesAt_length (inside : start + width ≤ bytes.length) :
    (bytesAt bytes start width).length = width := by
  rw [bytesAt, List.length_take, List.length_drop]
  omega

theorem bytesAt_one {byte : UInt8} (found : bytes[start]? = some byte) :
    bytesAt bytes start 1 = [byte] := by
  rcases List.getElem?_eq_some_iff.mp found with ⟨inside, rfl⟩
  rw [bytesAt, List.drop_eq_getElem_cons inside, List.take_succ_cons, List.take_zero]

theorem index_eq_bytesAt (inside : start < bytes.length) :
    ∃ byte, Checked.index bytes start = .done byte ∧ bytesAt bytes start 1 = [byte] := by
  refine ⟨bytes[start], ?_, ?_⟩
  · rw [Checked.index, List.getElem?_eq_getElem inside]
  · exact bytesAt_one (List.getElem?_eq_getElem inside)

theorem numberAt_one {byte : UInt8} (read : bytesAt bytes start 1 = [byte]) :
    numberAt bytes start 1 = byte.toNat := by
  rw [numberAt, read]
  exact Nat.zero_add _

theorem slice_eq_bytesAt {stop : ℕ} (ordered : start ≤ stop) (inside : stop ≤ bytes.length) :
    Checked.slice bytes start stop = .done (bytesAt bytes start (stop - start)) := by
  rw [Checked.slice, if_pos ⟨ordered, inside⟩, bytesAt, List.drop_take]

theorem bytesAt_add (bytes : List UInt8) (start width more : ℕ) :
    bytesAt bytes start (width + more) =
      bytesAt bytes start width ++ bytesAt bytes (start + width) more := by
  rw [bytesAt, bytesAt, bytesAt, List.take_add, List.drop_drop]

/-- `[bytes[start], bytes[start + 1], …]` -/
def Checked.indices (bytes : List UInt8) (start : ℕ) : ℕ → Checked (List UInt8)
  | 0 => .done []
  | width + 1 => do
      let byte ← Checked.index bytes start
      let rest ← Checked.indices bytes (start + 1) width
      .done (byte :: rest)

/-- `from_be_bytes` of them -/
def Checked.indexNumber (bytes : List UInt8) (start width : ℕ) : Checked ℕ := do
  let digits ← Checked.indices bytes start width
  .done (ofBigEndian digits)

theorem indices_eq_bytesAt (inside : start + width ≤ bytes.length) :
    Checked.indices bytes start width = .done (bytesAt bytes start width) := by
  induction width generalizing start with
  | zero => rfl
  | succ width ih =>
      obtain ⟨byte, found, read⟩ := index_eq_bytesAt (by omega : start < bytes.length)
      have rest := @ih (start + 1) (by omega)
      rw [Checked.indices, found, Checked.done_bind, rest, Checked.done_bind, Nat.add_comm width,
        bytesAt_add, read]
      rfl

theorem indexNumber_eq_numberAt (inside : start + width ≤ bytes.length) :
    Checked.indexNumber bytes start width = .done (numberAt bytes start width) := by
  rw [Checked.indexNumber, indices_eq_bytesAt inside, Checked.done_bind, numberAt]

theorem bytesAt_take {size : ℕ} (inside : start + width ≤ size) :
    bytesAt (bytes.take size) start width = bytesAt bytes start width := by
  rw [bytesAt, bytesAt, List.drop_take, List.take_take, Nat.min_eq_left (by omega)]

theorem drop_eq_bytesAt_append (bytes : List UInt8) (start width : ℕ) :
    bytes.drop start = bytesAt bytes start width ++ bytes.drop (start + width) := by
  rw [bytesAt, ← List.drop_drop, List.take_append_drop]

theorem bigEndian_numberAt (inside : start + width ≤ bytes.length) :
    bigEndian width (numberAt bytes start width) = bytesAt bytes start width := by
  have read := bigEndian_ofBigEndian (bytesAt bytes start width)
  rwa [bytesAt_length inside] at read

theorem numberAt_lt (inside : start + width ≤ bytes.length) :
    numberAt bytes start width < 256 ^ width := by
  have below := ofBigEndian_lt (bytesAt bytes start width)
  rwa [bytesAt_length inside] at below

/-- Bytes behind their length, which is written in so many bytes -/
def vector (width : ℕ) (bytes : List UInt8) : List UInt8 :=
  bigEndian width bytes.length ++ bytes

/-- What is as long as the number in front of it says -/
theorem drop_eq_vector (inside : start + width + numberAt bytes start width ≤ bytes.length) :
    bytes.drop start =
      vector width (bytesAt bytes (start + width) (numberAt bytes start width)) ++
        bytes.drop (start + width + numberAt bytes start width) := by
  rw [vector, bytesAt_length inside, bigEndian_numberAt (by omega), List.append_assoc,
    ← drop_eq_bytesAt_append, ← drop_eq_bytesAt_append]

theorem bytesAt_append (at_end : start = before.length) (sized : bytes.length = width)
    (after : List UInt8) : bytesAt (before ++ (bytes ++ after)) start width = bytes := by
  rw [bytesAt, at_end, List.drop_left, List.take_left' sized]

theorem bytesAt_start (sized : bytes.length = width) (after : List UInt8) :
    bytesAt (bytes ++ after) 0 width = bytes := by
  rw [bytesAt, List.drop_zero, List.take_left' sized]

/-- A number which is written there is narrowed to the field. -/
theorem numberAt_append (at_end : start = before.length) (number : ℕ) (after : List UInt8) :
    numberAt (before ++ (bigEndian width number ++ after)) start width = number % 256 ^ width := by
  rw [numberAt, bytesAt_append at_end (bigEndian_length width number), ofBigEndian_bigEndian_mod]

theorem numberAt_append_of_lt (at_end : start = before.length) {number : ℕ}
    (fits : number < 256 ^ width) (after : List UInt8) :
    numberAt (before ++ (bigEndian width number ++ after)) start width = number := by
  rw [numberAt_append at_end, Nat.mod_eq_of_lt fits]

theorem numberAt_start {number : ℕ} (fits : number < 256 ^ width) (after : List UInt8) :
    numberAt (bigEndian width number ++ after) 0 width = number := by
  rw [numberAt, bytesAt_start (bigEndian_length width number),
    ofBigEndian_bigEndian width number fits]

theorem bytesAt_behind {front : List UInt8} {size : ℕ} (sized : front.length = size)
    (back : List UInt8) (start width : ℕ) :
    bytesAt (front ++ back) (size + start) width = bytesAt back start width := by
  rw [bytesAt, ← List.drop_drop, List.drop_left' sized, bytesAt]

theorem numberAt_behind {front : List UInt8} {size : ℕ} (sized : front.length = size)
    (back : List UInt8) (start width : ℕ) :
    numberAt (front ++ back) (size + start) width = numberAt back start width := by
  rw [numberAt, bytesAt_behind sized, numberAt]

end Fields

end Mirage.Foundations
