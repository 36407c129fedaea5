import Mathlib.Order.Basic

/-!
# Prefixes of bit vectors

Two addresses share a prefix if their first bits are equal.  A mask of ones
which is shifted to the left compares the bits it was not shifted by, and the
length of a prefix is determined by the addresses which share it.
-/

namespace Mirage.Foundations

variable {width : ℕ}

/-- The first `count` bits are equal. -/
def SharePrefix (count : ℕ) (first second : BitVec width) : Prop :=
  ∀ i < count, first.getMsbD i = second.getMsbD i

theorem SharePrefix.mono {count fewer : ℕ} {first second : BitVec width}
    (share : SharePrefix count first second) (le : fewer ≤ count) :
    SharePrefix fewer first second :=
  fun i inside => share i (Nat.lt_of_lt_of_le inside le)

theorem SharePrefix.symm {count : ℕ} {first second : BitVec width}
    (share : SharePrefix count first second) : SharePrefix count second first :=
  fun i inside => (share i inside).symm

theorem SharePrefix.trans {count : ℕ} {first second third : BitVec width}
    (share : SharePrefix count first second) (shares : SharePrefix count second third) :
    SharePrefix count first third :=
  fun i inside => (share i inside).trans (shares i inside)

theorem sharePrefix_width {first second : BitVec width} :
    SharePrefix width first second ↔ first = second := by
  constructor
  · intro share
    exact BitVec.eq_of_getMsbD_eq share
  · rintro rfl i _
    rfl

/-- What is compared under a shifted mask. -/
theorem masked_eq_iff (first second : BitVec width) (shift : ℕ) :
    (first &&& (BitVec.allOnes width <<< shift) = second &&& (BitVec.allOnes width <<< shift)) ↔
      SharePrefix (width - shift) first second := by
  have compared (address : BitVec width) (i : ℕ) :
      (address &&& (BitVec.allOnes width <<< shift)).getMsbD i =
        (address.getMsbD i && decide (i < width - shift)) := by
    simp only [BitVec.getMsbD_and, BitVec.getMsbD_shiftLeft, BitVec.getMsbD_allOnes]
    congr 1
    exact decide_eq_decide.mpr (by omega)
  constructor
  · intro same i inside
    have at_i := congrArg (·.getMsbD i) same
    simpa [compared, inside] using at_i
  · intro share
    apply BitVec.eq_of_getMsbD_eq
    intro i _
    rw [compared, compared]
    by_cases inside : i < width - shift
    · rw [share i inside]
    · simp [inside]

/-- The address with one bit changed. -/
def flipBit (address : BitVec width) (index : ℕ) : BitVec width :=
  address ^^^ BitVec.twoPow width (width - 1 - index)

theorem getMsbD_flipBit {index i : ℕ} (inside : index < width) (i_inside : i < width)
    (address : BitVec width) :
    (flipBit address index).getMsbD i = (address.getMsbD i ^^ decide (i = index)) := by
  rw [flipBit, BitVec.getMsbD_xor]
  congr 1
  rw [BitVec.getMsbD_eq_getLsbD, BitVec.getLsbD_twoPow, decide_eq_true i_inside, Bool.true_and]
  have below : decide (width - 1 - index < width) = true := decide_eq_true (by omega)
  rw [below, Bool.true_and]
  exact decide_eq_decide.mpr (by omega)

theorem sharePrefix_flipBit {index : ℕ} (inside : index < width) (address : BitVec width) :
    SharePrefix index address (flipBit address index) := by
  intro i before
  rw [getMsbD_flipBit inside (Nat.lt_trans before inside), decide_eq_false (Nat.ne_of_lt before),
    Bool.xor_false]

theorem not_sharePrefix_flipBit {index count : ℕ} (inside : index < width) (longer : index < count)
    (address : BitVec width) : ¬SharePrefix count address (flipBit address index) := by
  intro share
  have changed := share index longer
  rw [getMsbD_flipBit inside inside, decide_eq_true rfl, Bool.xor_true] at changed
  simp at changed

theorem flipBit_ne {index : ℕ} (inside : index < width) (address : BitVec width) :
    flipBit address index ≠ address := by
  intro same
  apply not_sharePrefix_flipBit inside inside address
  rw [same]
  exact sharePrefix_width.mpr rfl

/-- Prefixes of different lengths are shared by different addresses. -/
theorem sharePrefix_congr_iff {first second : ℕ} (first_le : first ≤ width)
    (second_le : second ≤ width) (address : BitVec width) :
    (∀ other, SharePrefix first address other ↔ SharePrefix second address other) ↔
      first = second := by
  constructor
  · intro same
    rcases Nat.lt_trichotomy first second with shorter | equal | longer
    · have inside := Nat.lt_of_lt_of_le shorter second_le
      exact absurd ((same _).mp (sharePrefix_flipBit inside address))
        (not_sharePrefix_flipBit inside shorter address)
    · exact equal
    · have inside := Nat.lt_of_lt_of_le longer first_le
      exact absurd ((same _).mpr (sharePrefix_flipBit inside address))
        (not_sharePrefix_flipBit inside longer address)
  · rintro rfl other
    rfl

end Mirage.Foundations
