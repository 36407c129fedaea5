import Mathlib.Data.List.Infix
import Mathlib.Tactic.Ring

/-!
# Sealed byte strings

Byte strings are lists of `UInt8`.  Numbers are written big-endian, and the
writing is injective on the numbers which fit.

An authenticated cipher is the structure `Aead`, with the two facts a record
layer relies on: what is sealed opens again under the same key and nonce, and a
seal adds a tag of fixed size.
-/

namespace Mirage.Foundations

universe u

/-- `n` in big-endian order, on `width` bytes. -/
def bigEndian : ℕ → ℕ → List UInt8
  | 0, _ => []
  | width + 1, n => bigEndian width (n / 256) ++ [UInt8.ofNat n]

def ofBigEndian (bytes : List UInt8) : ℕ :=
  bytes.foldl (fun value byte => value * 256 + byte.toNat) 0

@[simp]
theorem bigEndian_length (width n : ℕ) : (bigEndian width n).length = width := by
  induction width generalizing n with
  | zero => rfl
  | succ width ih => simp [bigEndian, ih]

theorem ofBigEndian_bigEndian (width n : ℕ) (fits : n < 256 ^ width) :
    ofBigEndian (bigEndian width n) = n := by
  induction width generalizing n with
  | zero =>
      simp only [pow_zero] at fits
      simp [bigEndian, ofBigEndian]
      omega
  | succ width ih =>
      have high_fits : n / 256 < 256 ^ width := by
        rw [pow_succ, Nat.mul_comm] at fits
        exact Nat.div_lt_of_lt_mul fits
      have high := ih (n / 256) high_fits
      simp only [bigEndian, ofBigEndian, List.foldl_append, List.foldl_cons, List.foldl_nil,
        UInt8.toNat_ofNat'] at high ⊢
      rw [high]
      omega

theorem bigEndian_mod (width n : ℕ) : bigEndian width (n % 256 ^ width) = bigEndian width n := by
  induction width generalizing n with
  | zero => rfl
  | succ width ih =>
      have high : n % 256 ^ (width + 1) / 256 = n / 256 % 256 ^ width := by
        rw [pow_succ, Nat.mul_comm, Nat.mod_mul_right_div_self]
      have low : UInt8.ofNat (n % 256 ^ (width + 1)) = UInt8.ofNat n := by
        rw [← UInt8.toNat_inj, UInt8.toNat_ofNat', UInt8.toNat_ofNat', pow_succ]
        exact Nat.mod_mul_left_mod n (256 ^ width) 256
      rw [bigEndian, bigEndian, high, low, ih]

theorem ofBigEndian_bigEndian_mod (width n : ℕ) :
    ofBigEndian (bigEndian width n) = n % 256 ^ width := by
  rw [← bigEndian_mod, ofBigEndian_bigEndian _ _ (Nat.mod_lt _ (Nat.pow_pos (by decide)))]

theorem ofBigEndian_concat (bytes : List UInt8) (byte : UInt8) :
    ofBigEndian (bytes ++ [byte]) = ofBigEndian bytes * 256 + byte.toNat := by
  simp [ofBigEndian]

theorem bigEndian_ofBigEndian (bytes : List UInt8) :
    bigEndian bytes.length (ofBigEndian bytes) = bytes := by
  induction bytes using List.reverseRecOn with
  | nil => rfl
  | append_singleton bytes byte ih =>
      have byte_lt := byte.toNat_lt
      have high : (ofBigEndian bytes * 256 + byte.toNat) / 256 = ofBigEndian bytes := by omega
      have low : UInt8.ofNat (ofBigEndian bytes * 256 + byte.toNat) = byte := by
        rw [← UInt8.toNat_inj, UInt8.toNat_ofNat']
        omega
      rw [ofBigEndian_concat, List.length_append, List.length_singleton, bigEndian, high, low, ih]

theorem ofBigEndian_lt (bytes : List UInt8) : ofBigEndian bytes < 256 ^ bytes.length := by
  induction bytes using List.reverseRecOn with
  | nil => decide
  | append_singleton bytes byte ih =>
      have byte_lt := byte.toNat_lt
      rw [ofBigEndian_concat, List.length_append, List.length_singleton, pow_succ]
      omega

theorem bigEndian_inj {width first second : ℕ} (first_fits : first < 256 ^ width)
    (second_fits : second < 256 ^ width)
    (same : bigEndian width first = bigEndian width second) : first = second := by
  rw [← ofBigEndian_bigEndian width first first_fits,
    ← ofBigEndian_bigEndian width second second_fits, same]

/-- An authenticated cipher whose keys are `Key`, with a tag of `tagSize` bytes. -/
structure Aead (Key : Type u) (tagSize : ℕ) where
  sealAppendTag : Key → List UInt8 → List UInt8 → List UInt8
  openInPlace : Key → List UInt8 → List UInt8 → Option (List UInt8)
  open_seal : ∀ key nonce plaintext,
    openInPlace key nonce (sealAppendTag key nonce plaintext) = some plaintext
  seal_length : ∀ key nonce plaintext,
    (sealAppendTag key nonce plaintext).length = plaintext.length + tagSize

namespace Aead

variable {Key : Type u} {tagSize : ℕ}

/-- A tag which names the length of the text and the nonce, behind a mark. -/
def visibleTag (tagSize : ℕ) (nonce plaintext : List UInt8) : List UInt8 :=
  ([0xFF, 0xFF, 0xFF, UInt8.ofNat plaintext.length] ++ nonce ++ List.replicate tagSize 0).take
    tagSize

@[simp]
theorem visibleTag_length (tagSize : ℕ) (nonce plaintext : List UInt8) :
    (visibleTag tagSize nonce plaintext).length = tagSize := by
  simp [visibleTag]
  omega

theorem visibleTag_nonce {nonceSize : ℕ} {nonce plaintext : List UInt8}
    (fits : nonce.length = nonceSize) :
    (visibleTag (4 + nonceSize) nonce plaintext).drop 4 = nonce := by
  simp only [visibleTag, List.cons_append, List.nil_append, Nat.add_comm 4,
    List.take_succ_cons, List.drop_succ_cons, List.drop_zero]
  rw [List.take_append_of_le_length (by omega), ← fits, List.take_length]

/-- The cipher which appends such a tag, and nothing else. -/
def transparent (Key : Type u) (tagSize : ℕ) : Aead Key tagSize where
  sealAppendTag _ nonce plaintext := plaintext ++ visibleTag tagSize nonce plaintext
  openInPlace _ nonce body :=
    let plaintext := body.take (body.length - tagSize)
    if body.drop (body.length - tagSize) = visibleTag tagSize nonce plaintext then some plaintext
    else none
  open_seal key nonce plaintext := by
    simp
  seal_length key nonce plaintext := by
    simp

end Aead

end Mirage.Foundations
