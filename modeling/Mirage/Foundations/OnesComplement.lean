import Mathlib.Data.List.Basic
import Mirage.Foundations.Sealing

/-!
# One's-complement sums

Bytes are added up as 16-bit words, and carries are added back.  A reader adds up
what it has received, with the checksum in it, and finds all ones: the sum is a
multiple of 65535, and not 0.
-/

namespace Mirage.Foundations

/-- The words of bytes; an odd last byte is the high half of one. -/
def words : List UInt8 → List ℕ
  | high :: low :: rest => (high.toNat * 256 + low.toNat) :: words rest
  | [last] => [last.toNat * 256]
  | [] => []

def wordSum (bytes : List UInt8) : ℕ :=
  (words bytes).sum

/-- A sum after its carries have been added back -/
def foldCarries (sum : ℕ) : ℕ :=
  if sum / 2 ^ 16 = 0 then sum else foldCarries (sum % 2 ^ 16 + sum / 2 ^ 16)
termination_by sum

/-- The sum over all words is all ones. -/
def Verifies (bytes : List UInt8) : Prop :=
  foldCarries (wordSum bytes) = 0xFFFF

theorem foldCarries_zero : foldCarries 0 = 0 := by
  rw [foldCarries, if_pos (by decide)]

/-- Carries are counted modulo 65535, with all ones for 0. -/
theorem foldCarries_of_pos {sum : ℕ} (positive : 0 < sum) :
    foldCarries sum = (sum - 1) % 65535 + 1 := by
  fun_induction foldCarries sum with
  | case1 sum fits => omega
  | case2 sum carries ih => rw [ih (by omega)]; omega

theorem foldCarries_lt (sum : ℕ) : foldCarries sum < 2 ^ 16 := by
  rcases Nat.eq_zero_or_pos sum with rfl | positive
  · rw [foldCarries_zero]
    decide
  · rw [foldCarries_of_pos positive]
    omega

theorem foldCarries_eq_ones_iff {sum : ℕ} :
    foldCarries sum = 0xFFFF ↔ 0 < sum ∧ sum % 65535 = 0 := by
  rcases Nat.eq_zero_or_pos sum with rfl | positive
  · rw [foldCarries_zero]
    decide
  · rw [foldCarries_of_pos positive]
    omega

theorem foldCarries_modEq (sum : ℕ) : foldCarries sum % 65535 = sum % 65535 := by
  rcases Nat.eq_zero_or_pos sum with rfl | positive
  · rw [foldCarries_zero]
  · rw [foldCarries_of_pos positive]
    omega

theorem words_append {front : List UInt8} (even : front.length % 2 = 0) (back : List UInt8) :
    words (front ++ back) = words front ++ words back := by
  fun_induction words front with
  | case1 high low rest ih =>
      have rest_even : rest.length % 2 = 0 := by
        simp only [List.length_cons] at even
        omega
      rw [List.cons_append, List.cons_append, words, ih rest_even, List.cons_append]
  | case2 last => cases even
  | case3 => rfl

theorem wordSum_append {front : List UInt8} (even : front.length % 2 = 0) (back : List UInt8) :
    wordSum (front ++ back) = wordSum front + wordSum back := by
  rw [wordSum, words_append even, List.sum_append, wordSum, wordSum]

theorem wordSum_le (bytes : List UInt8) : wordSum bytes ≤ 65535 * ((bytes.length + 1) / 2) := by
  rw [wordSum]
  fun_induction words bytes with
  | case1 high low rest ih =>
      have high_lt := high.toNat_lt
      have low_lt := low.toNat_lt
      simp only [List.sum_cons, List.length_cons]
      omega
  | case2 last =>
      have last_lt := last.toNat_lt
      simp only [List.sum_cons, List.sum_nil, List.length_singleton]
      omega
  | case3 => exact Nat.zero_le _

theorem wordSum_bigEndian_two {number : ℕ} (fits : number < 2 ^ 16) :
    wordSum (bigEndian 2 number) = number := by
  change UInt8.toNat (UInt8.ofNat (number / 256)) * 256 + UInt8.toNat (UInt8.ofNat number) + 0 =
    number
  rw [UInt8.toNat_ofNat', UInt8.toNat_ofNat']
  omega

/-- A checksum field at an even place counts as what is written to it. -/
theorem wordSum_field {front : List UInt8} (even : front.length % 2 = 0) {number : ℕ}
    (fits : number < 2 ^ 16) (back : List UInt8) :
    wordSum (front ++ (bigEndian 2 number ++ back)) =
      wordSum (front ++ ([0, 0] ++ back)) + number := by
  have zeros : wordSum [0, 0] = 0 := rfl
  rw [wordSum_append even, wordSum_append even, wordSum_append (by rw [bigEndian_length]),
    @wordSum_append [0, 0] rfl, wordSum_bigEndian_two fits, zeros]
  omega

end Mirage.Foundations
