import Mathlib.Data.List.DropRight
import Mathlib.Data.List.Infix
import Mathlib.Tactic.Ring

/-!
# Text functions of the Rust standard library

The functions below follow the documented behaviour of `str` and of the
integer parsers.  They work on the characters of a string, so that they can be
evaluated and so that facts about them are facts about lists.
-/

namespace Mirage.Foundations

/-- `char::is_whitespace`: the Unicode property `White_Space`. -/
def isRustWhitespace (char : Char) : Bool :=
  let code := char.toNat
  (9 ≤ code && code ≤ 13) || code == 0x20 || code == 0x85 || code == 0xA0 || code == 0x1680 ||
    (0x2000 ≤ code && code ≤ 0x200A) || code == 0x2028 || code == 0x2029 || code == 0x202F ||
    code == 0x205F || code == 0x3000

def trim (text : String) : String :=
  String.ofList ((text.toList.dropWhile isRustWhitespace).rdropWhile isRustWhitespace)

theorem trim_trim (text : String) : trim (trim text) = trim text := by
  have start : (text.toList.dropWhile isRustWhitespace).rdropWhile isRustWhitespace =
      ((text.toList.dropWhile isRustWhitespace).rdropWhile isRustWhitespace).dropWhile
        isRustWhitespace := by
    symm
    rw [List.dropWhile_eq_self_iff]
    intro nonempty
    have prefixed := List.rdropWhile_prefix isRustWhitespace
      (text.toList.dropWhile isRustWhitespace)
    rw [prefixed.getElem nonempty]
    exact List.dropWhile_get_zero_not isRustWhitespace text.toList _
  rw [trim, trim, String.toList_ofList, ← start, List.rdropWhile_idempotent]

def trimEndMatches (text : String) (pattern : Char) : String :=
  String.ofList (text.toList.rdropWhile (· == pattern))

def toAsciiLowercase (text : String) : String :=
  String.ofList (text.toList.map Char.toLower)

def toAsciiUppercase (text : String) : String :=
  String.ofList (text.toList.map Char.toUpper)

def endsWith (text ending : String) : Bool :=
  ending.toList.isSuffixOf text.toList

def containsText (text pattern : String) : Bool :=
  decide (pattern.toList <:+: text.toList)

def splitChar (text : String) (separator : Char) : List String :=
  (text.toList.splitOn separator).map String.ofList

def splitOnce (text : String) (separator : Char) : Option (String × String) :=
  match text.toList.dropWhile (· != separator) with
  | [] => none
  | _ :: after => some (String.ofList (text.toList.takeWhile (· != separator)), String.ofList after)

theorem trimEndMatches_eq_iff (text : String) (pattern : Char) :
    trimEndMatches text pattern = text ↔ endsWith text (String.ofList [pattern]) = false := by
  rw [trimEndMatches, ← String.toList_inj, String.toList_ofList, List.rdropWhile_eq_self_iff,
    ← Bool.not_eq_true, endsWith, List.isSuffixOf_iff_suffix, String.toList_ofList]
  constructor
  · rintro other ⟨start, whole⟩
    apply other (whole ▸ List.append_ne_nil_of_right_ne_nil start (List.cons_ne_nil _ _))
    simp [← whole]
  · intro other nonempty last
    apply other
    refine ⟨text.toList.dropLast, ?_⟩
    rw [← beq_iff_eq.mp last]
    exact List.dropLast_append_getLast nonempty

/-- The error kinds of `str::parse` for unsigned integers. -/
inductive ParseIntError where
  | empty
  | invalidDigit
  | posOverflow
  deriving DecidableEq, Repr

def ParseIntError.message : ParseIntError → String
  | .empty => "cannot parse integer from empty string"
  | .invalidDigit => "invalid digit found in string"
  | .posOverflow => "number too large to fit in target type"

/-- Accumulate decimal digits, left to right, stopping at the first error. -/
def parseDigits (bound : ℕ) : ℕ → List Char → Except ParseIntError ℕ
  | value, [] => .ok value
  | value, digit :: rest =>
      if digit.isDigit then
        let next := value * 10 + (digit.toNat - '0'.toNat)
        if next ≤ bound then parseDigits bound next rest else .error .posOverflow
      else .error .invalidDigit

/-- `str::parse` for an unsigned integer type with greatest value `bound`. -/
def parseUnsigned (bound : ℕ) (text : String) : Except ParseIntError ℕ :=
  match text.toList with
  | [] => .error .empty
  | ['+'] | ['-'] => .error .invalidDigit
  | '+' :: digits => parseDigits bound 0 digits
  | digits => parseDigits bound 0 digits

/-- The greatest `u8`, `u16`, `u32` and `u64`; `usize` is the `u64` of a 64-bit target. -/
def u8Max : ℕ := 2 ^ 8 - 1

def u16Max : ℕ := 2 ^ 16 - 1

def u32Max : ℕ := 2 ^ 32 - 1

def u64Max : ℕ := 2 ^ 64 - 1

example : parseUnsigned u32Max "+29" = .ok 29 := by decide

/-!
## Decimal numbers as text

`parseUnsigned` reads back what is written for a number.
-/

theorem le_ofDigitChars (digits : List Char) (value : ℕ) :
    value ≤ Nat.ofDigitChars 10 digits value := by
  induction digits generalizing value with
  | nil => exact le_rfl
  | cons digit digits ih =>
      refine le_trans ?_ (ih (10 * value + (digit.toNat - '0'.toNat)))
      omega

theorem parseDigits_eq {bound value : ℕ} {digits : List Char}
    (all_digits : ∀ digit ∈ digits, digit.isDigit = true)
    (small : Nat.ofDigitChars 10 digits value ≤ bound) :
    parseDigits bound value digits = .ok (Nat.ofDigitChars 10 digits value) := by
  induction digits generalizing value with
  | nil => rfl
  | cons digit digits ih =>
      rw [List.forall_mem_cons] at all_digits
      have next : value * 10 + (digit.toNat - '0'.toNat) =
          10 * value + (digit.toNat - '0'.toNat) := by omega
      have fits : value * 10 + (digit.toNat - '0'.toNat) ≤ bound := by
        rw [next]
        exact le_trans (le_ofDigitChars digits _) small
      rw [parseDigits, if_pos all_digits.1]
      simp only [if_pos fits]
      rw [next]
      exact ih all_digits.2 small

theorem parseUnsigned_toString {bound number : ℕ} (small : number ≤ bound) :
    parseUnsigned bound (toString number) = .ok number := by
  have digits : (toString number).toList = Nat.toDigits 10 number := by
    simp [Nat.repr]
  have all_digits : ∀ digit ∈ Nat.toDigits 10 number, digit.isDigit = true :=
    fun digit member => Nat.isDigit_of_mem_toDigits (by decide) (by decide) member
  have value : Nat.ofDigitChars 10 (Nat.toDigits 10 number) 0 = number :=
    Nat.ofDigitChars_toDigits (by decide) (by decide)
  have parsed : parseDigits bound 0 (Nat.toDigits 10 number) = .ok number := by
    rw [parseDigits_eq all_digits (by rwa [value]), value]
  rw [parseUnsigned, digits]
  split
  · rename_i empty
    exact absurd empty Nat.toDigits_ne_nil
  · rename_i sign
    exact absurd (all_digits '+' (by simp [sign])) (by decide)
  · rename_i sign
    exact absurd (all_digits '-' (by simp [sign])) (by decide)
  · rename_i sign
    exact absurd (all_digits '+' (by simp [sign])) (by decide)
  · exact parsed

/-- The number which a text is the decimal form of, of whatever size. -/
def writtenNumber (text : String) : Option ℕ :=
  let digits :=
    match text.toList with
    | '+' :: digits => digits
    | digits => digits
  if digits ≠ [] ∧ digits.all Char.isDigit then some (Nat.ofDigitChars 10 digits 0) else none

theorem parseDigits_toOption {bound value : ℕ} (small : value ≤ bound) (digits : List Char) :
    (parseDigits bound value digits).toOption =
      if digits.all Char.isDigit ∧ Nat.ofDigitChars 10 digits value ≤ bound then
        some (Nat.ofDigitChars 10 digits value)
      else none := by
  induction digits generalizing value with
  | nil => simp [parseDigits, Except.toOption, small]
  | cons digit digits ih =>
      have next : value * 10 + (digit.toNat - '0'.toNat) =
          10 * value + (digit.toNat - '0'.toNat) := by omega
      rw [parseDigits, List.all_cons]
      cases isDigit : digit.isDigit with
      | false => simp [Except.toOption]
      | true =>
          simp only [if_true, Bool.true_and]
          split
          · rename_i fits
            rw [ih fits, next]
            rfl
          · rename_i large
            have larger := le_ofDigitChars digits (10 * value + (digit.toNat - '0'.toNat))
            rw [if_neg]
            · rfl
            · rintro ⟨_, fits⟩
              rw [Nat.ofDigitChars_cons] at fits
              omega

/-- What is parsed is the written number, unless it is too large for the type. -/
theorem parseUnsigned_toOption (bound : ℕ) (text : String) :
    (parseUnsigned bound text).toOption = (writtenNumber text).filter (· ≤ bound) := by
  have parsed (digits : List Char) (nonempty : digits ≠ []) :
      (parseDigits bound 0 digits).toOption =
        (if digits ≠ [] ∧ digits.all Char.isDigit then some (Nat.ofDigitChars 10 digits 0)
        else none).filter (· ≤ bound) := by
    rw [parseDigits_toOption (Nat.zero_le bound)]
    by_cases all : digits.all Char.isDigit = true <;> simp [nonempty, all, Option.filter]
  simp only [parseUnsigned, writtenNumber]
  split
  · rename_i empty
    simp [empty, Except.toOption]
  · rename_i sign
    simp [sign, Except.toOption]
  · rename_i sign
    simp [sign, Except.toOption]
  · rename_i digits not_alone sign
    rw [sign]
    apply parsed
    rintro rfl
    exact not_alone rfl
  · rename_i not_empty _ _ not_signed
    split
    · rename_i digits sign
      exact absurd sign (not_signed digits)
    · exact parsed _ not_empty

end Mirage.Foundations
