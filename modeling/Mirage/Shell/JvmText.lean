import Mathlib.Data.Int.Order.Basic
import Mathlib.Data.List.DropRight
import Mathlib.Data.Nat.Log
import Mathlib.Tactic.Ring

/-!
# Text and numbers of the Kotlin standard library
-/

namespace Mirage.Shell

/-- `Char.isWhitespace` of the JVM -/
def isJvmWhitespace (char : Char) : Bool :=
  let code := char.toNat
  (9 ≤ code && code ≤ 13) || (0x1C ≤ code && code ≤ 0x20) || code == 0xA0 || code == 0x1680 ||
    (0x2000 ≤ code && code ≤ 0x200A) || code == 0x2028 || code == 0x2029 || code == 0x202F ||
    code == 0x205F || code == 0x3000

def isBlank (uri : String) : Bool := uri.toList.all isJvmWhitespace

def jvmTrim (text : String) : String :=
  String.ofList ((text.toList.dropWhile isJvmWhitespace).rdropWhile isJvmWhitespace)

/--
What `equals` and `startsWith` compare a character with when they ignore the case
and the other side is ASCII: four further characters have an ASCII case.
-/
def foldAscii (char : Char) : Char :=
  if char = 'ſ' then 's'
  else if char = 'K' then 'k'
  else if char = 'İ' ∨ char = 'ı' then 'i'
  else char.toLower

/-- `startsWith` with `ignoreCase`, for an ASCII prefix in lower case. -/
def startsWithIgnoreCase (text start : String) : Bool :=
  start.toList.isPrefixOf (text.toList.map foldAscii)

/-- `equals` with `ignoreCase`, where the right side is ASCII. -/
def equalsIgnoreCase (text ascii : String) : Bool :=
  text.toList.map foldAscii == ascii.toList.map Char.toLower

/-! ## Numbers of the JVM -/

/-- A `Long` keeps the low 64 bits of a result. -/
@[irreducible]
def wrapLong (value : ℤ) : ℤ := value.bmod (2 ^ 64)

/-- An `Int` keeps the low 32 bits of a `Long`. -/
@[irreducible]
def wrapInt (value : ℤ) : ℤ := value.bmod (2 ^ 32)

def longMax : ℤ := 2 ^ 63 - 1

/-- The result of an operation on `Long`s is the exact one. -/
def FitsLong (value : ℤ) : Prop := -2 ^ 63 ≤ value ∧ value < 2 ^ 63

instance (value : ℤ) : Decidable (FitsLong value) := by
  unfold FitsLong
  infer_instance

theorem wrapLong_of_fits {value : ℤ} (fits : FitsLong value) : wrapLong value = value := by
  unfold wrapLong
  rcases fits with ⟨low, high⟩
  exact Int.bmod_eq_of_le (by omega) (by omega)

theorem wrapLong_zero : wrapLong 0 = 0 := by decide +kernel

theorem wrapLong_add_left (first second : ℤ) :
    wrapLong (wrapLong first + second) = wrapLong (first + second) := by
  unfold wrapLong
  exact Int.bmod_add_bmod

theorem wrapLong_mul_add (factor first second : ℤ) :
    wrapLong (factor * wrapLong first + second) = wrapLong (factor * first + second) := by
  unfold wrapLong
  rw [← Int.bmod_add_bmod, Int.mul_bmod_bmod, Int.bmod_add_bmod]

/-- A sum which does not fit is negative. -/
theorem wrapLong_nonneg_iff {value : ℕ} (bound : value < 2 ^ 64) :
    0 ≤ wrapLong value ↔ value < 2 ^ 63 := by
  unfold wrapLong
  constructor
  · intro nonneg
    by_contra large
    have wrapped : (value : ℤ).bmod (2 ^ 64) = value - 2 ^ 64 := by
      rw [Int.bmod_eq_iff (by omega)]
      omega
    omega
  · intro fits
    rw [Int.bmod_eq_of_le (by omega) (by omega)]
    omega

theorem wrapLong_natCast {value : ℕ} (fits : value < 2 ^ 63) : wrapLong value = value :=
  wrapLong_of_fits ⟨by omega, by omega⟩

theorem wrapInt_natCast {value : ℕ} (fits : value < 2 ^ 31) : wrapInt value = value := by
  unfold wrapInt
  exact Int.bmod_eq_of_le (by omega) (by omega)

theorem wrapInt_pos {value : ℕ} (bound : value < 2 ^ 32) (positive : 0 < wrapInt value) :
    wrapInt value = value := by
  by_cases fits : value < 2 ^ 31
  · exact wrapInt_natCast fits
  · have wrapped : (value : ℤ).bmod (2 ^ 32) = value - 2 ^ 32 := by
      rw [Int.bmod_eq_iff (by omega)]
      omega
    unfold wrapInt at positive
    omega

theorem wrapInt_eq_natCast_iff {value small : ℕ} (bound : value < 2 ^ 32) (fits : small < 2 ^ 31) :
    wrapInt value = small ↔ value = small := by
  unfold wrapInt
  rw [Int.bmod_eq_iff (by omega)]
  omega

/-- A natural number as a `double`: 53 significant bits, rounded half to even. -/
def asDouble (value : ℕ) : ℕ :=
  let unit := 2 ^ (Nat.log2 value - 52)
  let below := value / unit
  let rest := value % unit
  if unit < 2 * rest ∨ (unit = 2 * rest ∧ below % 2 = 1) then (below + 1) * unit
  else below * unit

/-- `toLong` of a nonnegative `double` -/
def doubleToLong (value : ℕ) : ℤ := min value longMax

/-- What a count of the kernel is after its way through `getStats`. -/
def throughDouble (count : ℕ) : ℤ := doubleToLong (asDouble count)

end Mirage.Shell
