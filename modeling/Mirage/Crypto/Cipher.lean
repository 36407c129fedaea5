import Mirage.Foundations.Text

/-!
# Tunnel ciphers and padding schemes

The two AEAD algorithms of the tunnel, and the list of size ranges which shapes
the first records of a connection.  A `PadRange` carries the bounds which
`parse_padding_scheme` checks, so every scheme the parser returns is usable by
the writer.
-/

namespace Mirage.Crypto

open Mirage.Foundations

def nonceSize : ℕ := 12

def tagSize : ℕ := 16

def maxRecordSize : ℕ := 16384

inductive Cipher where
  | chaCha20Poly1305
  | aes256Gcm
  deriving DecidableEq, Repr

/-- `hkdf_suffix`: the suffix of the key derivation's info, `b""` or `b"-aes256gcm"`. -/
def Cipher.hkdfSuffix : Cipher → String
  | .chaCha20Poly1305 => ""
  | .aes256Gcm => "-aes256gcm"

/-- One range of a padding scheme: the sizes a shaped record may have. -/
structure PadRange where
  lo : ℕ
  hi : ℕ
  one_le : 1 ≤ lo
  lo_le_hi : lo ≤ hi
  hi_le : hi ≤ maxRecordSize
  deriving DecidableEq

def parsePadRange (part : String) : Option PadRange :=
  match splitOnce part '-' with
  | none => none
  | some (loText, hiText) =>
      match parseUnsigned u64Max (trim loText), parseUnsigned u64Max (trim hiText) with
      | .ok lo, .ok hi =>
          if valid : lo < 1 ∨ lo > hi ∨ hi > maxRecordSize then none
          else some ⟨lo, hi, by omega, by omega, by omega⟩
      | _, _ => none

def parsePaddingScheme (s : String) : Option (List PadRange) :=
  let parts := ((splitChar s ';').map trim).filter fun part => part != ""
  match parts.mapM parsePadRange with
  | some [] => none
  | out => out

def defaultPadScheme : List PadRange :=
  [⟨64, 256, by decide, by decide, by decide⟩, ⟨256, 800, by decide, by decide, by decide⟩,
    ⟨100, 1400, by decide, by decide, by decide⟩, ⟨600, 1200, by decide, by decide, by decide⟩,
    ⟨128, 512, by decide, by decide, by decide⟩, ⟨900, 1400, by decide, by decide, by decide⟩,
    ⟨64, 700, by decide, by decide, by decide⟩, ⟨400, 1400, by decide, by decide, by decide⟩]

/-- `set_padding_scheme`: the scheme which new writers take. -/
def setPaddingScheme (scheme : List PadRange) : List PadRange :=
  if scheme.isEmpty then defaultPadScheme else scheme

/-- A scheme which the parser accepts is never replaced by the default. -/
theorem setPaddingScheme_of_accepted {s : String} {scheme : List PadRange}
    (accepted : parsePaddingScheme s = some scheme) : setPaddingScheme scheme = scheme := by
  have notEmpty : scheme ≠ [] := by
    rintro rfl
    simp only [parsePaddingScheme] at accepted
    split at accepted
    · simp at accepted
    · rename_i notEmpty
      exact notEmpty accepted
  simp [setPaddingScheme, notEmpty]

example : (parsePaddingScheme " 1-1 ; 10-20 ;").map (List.map fun range => (range.lo, range.hi)) =
    some [(1, 1), (10, 20)] := by
  rfl

example : parsePaddingScheme "64-256;bad" = none := by
  rfl

end Mirage.Crypto
