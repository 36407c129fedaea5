import Mathlib.Data.List.Basic

/-!
# Text as bytes and as 16-bit units

A text is a list of Unicode scalar values.  Its bytes are those of UTF-8, its
units those of UTF-16; units are numbers below `2 ^ 16`.
-/

namespace Mirage.Foundations

def utf8 (text : List Char) : List UInt8 :=
  text.flatMap String.utf8EncodeChar

theorem utf8_cons (char : Char) (text : List Char) :
    utf8 (char :: text) = String.utf8EncodeChar char ++ utf8 text :=
  List.flatMap_cons

theorem utf8_append (first second : List Char) :
    utf8 (first ++ second) = utf8 first ++ utf8 second :=
  List.flatMap_append

theorem utf8_ne_nil {text : List Char} (nonempty : text ≠ []) : 0 < (utf8 text).length := by
  cases text with
  | nil => exact absurd rfl nonempty
  | cons char text =>
      have size := Char.utf8Size_pos char
      rw [utf8_cons, List.length_append, String.length_utf8EncodeChar]
      omega

theorem utf8_eq_nil {text : List Char} (empty : utf8 text = []) : text = [] := by
  by_contra nonempty
  have some_bytes := utf8_ne_nil nonempty
  rw [empty] at some_bytes
  cases some_bytes

/-- Characters of which the bytes begin alike are the same. -/
theorem eq_of_utf8EncodeChar_append {first second : Char} {more rest : List UInt8}
    (same : String.utf8EncodeChar first ++ more = String.utf8EncodeChar second ++ rest) :
    first = second := by
  have decoded := congrArg (fun bytes => bytes.toByteArray.utf8DecodeChar? 0) same
  simp only [List.toByteArray_append, ByteArray.utf8DecodeChar?_utf8EncodeChar_append] at decoded
  exact Option.some.inj decoded

/-- So a text of which the bytes begin like those of another begins like it. -/
theorem exists_append_of_utf8 {front text : List Char} {rest : List UInt8}
    (same : utf8 text = utf8 front ++ rest) :
    ∃ back, text = front ++ back ∧ utf8 back = rest := by
  induction front generalizing text with
  | nil => exact ⟨text, rfl, same⟩
  | cons char front ih =>
      cases text with
      | nil =>
          have some_bytes := utf8_ne_nil (List.cons_ne_nil char front)
          rw [(List.append_eq_nil_iff.mp same.symm).1] at some_bytes
          cases some_bytes
      | cons other text =>
          rw [utf8_cons, utf8_cons, List.append_assoc] at same
          obtain rfl := eq_of_utf8EncodeChar_append same
          rcases ih (List.append_cancel_left same) with ⟨back, rfl, bytes⟩
          exact ⟨back, rfl, bytes⟩

/-- `from_utf8`; it accepts exactly the bytes of a text. -/
def fromUtf8 (bytes : List UInt8) : Option String :=
  String.fromUTF8? bytes.toByteArray

theorem toByteArray_utf8 (text : String) : (utf8 text.toList).toByteArray = text.toByteArray := by
  conv => rhs; rw [← String.ofList_toList (s := text), String.toByteArray_ofList]
  rfl

theorem fromUtf8_utf8 (text : String) : fromUtf8 (utf8 text.toList) = some text := by
  rw [fromUtf8, toByteArray_utf8, String.fromUTF8?, dif_pos text.isValidUTF8]
  rfl

theorem utf8_of_fromUtf8 {bytes : List UInt8} {text : String}
    (decoded : fromUtf8 bytes = some text) : utf8 text.toList = bytes := by
  rw [fromUtf8, String.fromUTF8?] at decoded
  split at decoded
  · have same : bytes.toByteArray = text.toByteArray := by
      rw [← Option.some.inj decoded]
      rfl
    rw [← toByteArray_utf8] at same
    exact (List.toByteArray_inj.mp same).symm
  · cases decoded

/-- The bounds of the bytes which go on a character with a given first byte -/
def continuations (first : ℕ) : List (ℕ × ℕ) :=
  if 0xC2 ≤ first ∧ first ≤ 0xDF then [(0x80, 0xBF)]
  else if first = 0xE0 then [(0xA0, 0xBF), (0x80, 0xBF)]
  else if first = 0xED then [(0x80, 0x9F), (0x80, 0xBF)]
  else if 0xE1 ≤ first ∧ first ≤ 0xEF then [(0x80, 0xBF), (0x80, 0xBF)]
  else if first = 0xF0 then [(0x90, 0xBF), (0x80, 0xBF), (0x80, 0xBF)]
  else if 0xF1 ≤ first ∧ first ≤ 0xF3 then [(0x80, 0xBF), (0x80, 0xBF), (0x80, 0xBF)]
  else if first = 0xF4 then [(0x80, 0x8F), (0x80, 0xBF), (0x80, 0xBF)]
  else []

/-- How many bytes in front lie within the bounds -/
def matching : List (ℕ × ℕ) → List UInt8 → ℕ
  | (low, high) :: bounds, byte :: rest =>
      if low ≤ byte.toNat ∧ byte.toNat ≤ high then matching bounds rest + 1 else 0
  | _, _ => 0

/-- Each longest start of a character which is not one is replaced. -/
def replaceInvalid : List UInt8 → List Char
  | [] => []
  | first :: rest =>
      let following := matching (continuations first.toNat) rest
      let piece := fromUtf8 (first :: rest.take following)
      (piece.elim ['\uFFFD'] String.toList) ++ replaceInvalid (rest.drop following)
termination_by bytes => bytes.length

/-- `from_utf8_lossy` -/
def fromUtf8Lossy (bytes : List UInt8) : String :=
  (fromUtf8 bytes).getD (String.ofList (replaceInvalid bytes))

theorem fromUtf8Lossy_utf8 (text : String) : fromUtf8Lossy (utf8 text.toList) = text := by
  rw [fromUtf8Lossy, fromUtf8_utf8, Option.getD_some]

/-- The units of a scalar value: itself, or a pair of surrogates. -/
def unitsOf (char : Char) : List ℕ :=
  let code := char.toNat
  if code < 0x10000 then [code]
  else [0xD800 + (code - 0x10000) / 0x400, 0xDC00 + (code - 0x10000) % 0x400]

def utf16 (text : List Char) : List ℕ :=
  text.flatMap unitsOf

/-- The text of units, if every surrogate has its partner. -/
def fromUtf16 : List ℕ → Option (List Char)
  | [] => some []
  | unit :: rest =>
      if unit < 0xD800 ∨ 0xE000 ≤ unit then
        (fromUtf16 rest).map (Char.ofNat unit :: ·)
      else
        match rest with
        | next :: others =>
            if unit < 0xDC00 ∧ 0xDC00 ≤ next ∧ next < 0xE000 then
              (fromUtf16 others).map
                (Char.ofNat (0x10000 + (unit - 0xD800) * 0x400 + (next - 0xDC00)) :: ·)
            else none
        | [] => none

theorem fromUtf16_utf16 (text : List Char) : fromUtf16 (utf16 text) = some text := by
  induction text with
  | nil => rfl
  | cons char text ih =>
      have scalar : char.toNat < 0xD800 ∨ 0xDFFF < char.toNat ∧ char.toNat < 0x110000 := char.valid
      have cons : utf16 (char :: text) = unitsOf char ++ utf16 text := rfl
      rw [cons, unitsOf]
      by_cases narrow : char.toNat < 0x10000
      · rw [if_pos narrow, List.singleton_append, fromUtf16.eq_def]
        simp only
        rw [if_pos (by omega), ih]
        simp
      · have pair : 0xD800 + (char.toNat - 0x10000) / 0x400 < 0xDC00 := by omega
        have code : 0x10000 + (0xD800 + (char.toNat - 0x10000) / 0x400 - 0xD800) * 0x400 +
            (0xDC00 + (char.toNat - 0x10000) % 0x400 - 0xDC00) = char.toNat := by omega
        rw [if_neg narrow, List.cons_append, List.singleton_append, fromUtf16.eq_def]
        simp only
        rw [if_neg (by omega), if_pos (by omega), ih, code]
        simp

section Bytes

variable {char : Char}

theorem utf8EncodeChar_of_lt (ascii : char.toNat < 128) :
    String.utf8EncodeChar char = [UInt8.ofNat char.toNat] := by
  unfold String.utf8EncodeChar
  exact if_pos (Nat.le_of_lt_succ ascii)

/-- The bytes of other than ASCII characters are not those of ASCII. -/
theorem le_of_mem_utf8EncodeChar (wide : 128 ≤ char.toNat) {byte : UInt8}
    (member : byte ∈ String.utf8EncodeChar char) : 128 ≤ byte.toNat := by
  have not_ascii : ¬char.val.toNat ≤ 0x7f := Nat.not_le.mpr wide
  simp only [String.utf8EncodeChar, if_neg not_ascii] at member
  split at member
  · simp only [List.mem_cons, List.not_mem_nil, or_false] at member
    rcases member with rfl | rfl
    all_goals simp only [UInt8.toNat_ofNat']; omega
  · split at member
    · simp only [List.mem_cons, List.not_mem_nil, or_false] at member
      rcases member with rfl | rfl | rfl
      all_goals simp only [UInt8.toNat_ofNat']; omega
    · simp only [List.mem_cons, List.not_mem_nil, or_false] at member
      rcases member with rfl | rfl | rfl | rfl
      all_goals simp only [UInt8.toNat_ofNat']; omega

/-- They start with a first byte which is not that of a Latin-1 character outside ASCII. -/
theorem exists_utf8EncodeChar (wide : 128 ≤ char.toNat) :
    ∃ first second rest, String.utf8EncodeChar char = first :: second :: rest ∧
      (char.toNat < 256 → first.toNat = 0xC2 ∨ first.toNat = 0xC3) := by
  have not_ascii : ¬char.val.toNat ≤ 0x7f := Nat.not_le.mpr wide
  simp only [String.utf8EncodeChar, if_neg not_ascii]
  split
  · refine ⟨_, _, _, rfl, fun latin => ?_⟩
    have code : char.val.toNat < 256 := latin
    simp only [UInt8.toNat_ofNat']
    omega
  · rename_i long
    have code : ¬char.toNat < 256 := fun latin => long (by change char.toNat ≤ 0x7ff; omega)
    split
    · exact ⟨_, _, _, rfl, fun latin => absurd latin code⟩
    · exact ⟨_, _, _, rfl, fun latin => absurd latin code⟩

end Bytes

end Mirage.Foundations
