import Mirage.Foundations.Checked
import Mirage.Foundations.Sealing

/-!
# A captured ClientHello as a template

`build_from_template` takes a record which was captured and puts its own random,
session identifier and server name into it.  It finds the server name by walking
the chain of extensions, and corrects the three lengths around it.
-/

namespace Mirage.Crypto

open Mirage.Foundations
open Mirage.Foundations.Checked (refuseIf index get slice overwrite)

/-- `[u8; 32]` -/
abbrev Bytes32 : Type :=
  { bytes : List UInt8 // bytes.length = 32 }

def ext (extType : UInt16) (data : List UInt8) : List UInt8 :=
  bigEndian 2 extType.toNat ++ (bigEndian 2 data.length ++ data)

def sniExt (sniBytes : List UInt8) : List UInt8 :=
  let entry := 0 :: (bigEndian 2 sniBytes.length ++ sniBytes)
  ext 0 (bigEndian 2 entry.length ++ entry)

def u16be (bytes : List UInt8) (off : ℕ) : Checked ℕ := do
  let high ← get bytes off
  let low ← get bytes (off + 1)
  pure (high.toNat * 256 + low.toNat)

/-- The sum with `delta` as a `u16` -/
def patchU16 (bytes : List UInt8) (off : ℕ) (delta : ℤ) : Checked (List UInt8) := do
  let high ← index bytes off
  let low ← index bytes (off + 1)
  let value := ((high.toNat * 256 + low.toNat : ℕ) : ℤ) + delta
  overwrite bytes off (bigEndian 2 (value % 2 ^ 16).toNat)

/-- The sum with `delta` as a `u32`, of which the last three bytes are written -/
def patchU24 (bytes : List UInt8) (off : ℕ) (delta : ℤ) : Checked (List UInt8) := do
  let high ← index bytes off
  let middle ← index bytes (off + 1)
  let low ← index bytes (off + 2)
  let value := ((high.toNat * 2 ^ 16 + middle.toNat * 2 ^ 8 + low.toNat : ℕ) : ℤ) + delta
  overwrite bytes off (bigEndian 3 (value % 2 ^ 32).toNat)

/--
The walk along the chain of extensions, for the offset and the whole length of the
first server name; both are 0 without one.
-/
def findServerName (tpl : List UInt8) (extEnd p : ℕ) : Checked (ℕ × ℕ) :=
  if p + 4 ≤ extEnd then
    u16be tpl p >>= fun etype =>
      u16be tpl (p + 2) >>= fun elen =>
        if etype = 0 then pure (p, 4 + elen) else findServerName tpl extEnd (p + (4 + elen))
  else pure (0, 0)
termination_by extEnd - p

def buildFromTemplate (tpl serverName : List UInt8) (sessionId clientRandom : Bytes32) :
    Checked (List UInt8) := do
  refuseIf (tpl.length < 44)
  refuseIf ((← index tpl 0) ≠ 0x16)
  refuseIf ((← index tpl 5) ≠ 0x01)
  refuseIf ((← index tpl 43).toNat ≠ 32)
  let csLen ← u16be tpl (44 + 32)
  let compOff := 44 + 32 + (2 + csLen)
  let compLen ← get tpl compOff
  let extTotalOff := compOff + (1 + compLen.toNat)
  let extTotal ← u16be tpl extTotalOff
  -- The addition is checked for an overflow, which these lengths are too small for.
  let extEnd := extTotalOff + 2 + extTotal
  refuseIf (extEnd > tpl.length)
  let (sniOff, sniTotal) ← findServerName tpl extEnd (extTotalOff + 2)
  refuseIf (sniTotal = 0 ∨ sniOff + sniTotal > extEnd)
  let newExt := sniExt serverName
  let delta : ℤ := newExt.length - sniTotal
  let before ← slice tpl 0 sniOff
  let after ← slice tpl (sniOff + sniTotal) tpl.length
  let out := before ++ (newExt ++ after)
  let out ← overwrite out 11 clientRandom
  let out ← overwrite out 44 sessionId
  let out ← patchU16 out 3 delta
  let out ← patchU24 out 6 delta
  patchU16 out extTotalOff delta

theorem ext_length (extType : UInt16) (data : List UInt8) :
    (ext extType data).length = 4 + data.length := by
  simp only [ext, List.length_append, bigEndian_length]
  omega

theorem sniExt_length (sniBytes : List UInt8) :
    (sniExt sniBytes).length = 9 + sniBytes.length := by
  simp only [sniExt, ext_length, List.length_append, List.length_cons, bigEndian_length]
  omega

section Safe

variable {bytes : List UInt8} {off : ℕ} {delta : ℤ}

theorem safe_u16be (bytes : List UInt8) (off : ℕ) :
    (u16be bytes off).Safe fun _ => off + 1 < bytes.length := by
  apply Checked.safe_bind (Checked.safe_get bytes off)
  intro high _
  apply Checked.safe_bind (Checked.safe_get bytes (off + 1))
  intro low inside
  exact inside

theorem safe_patchU16 (inside : off + 1 < bytes.length) :
    (patchU16 bytes off delta).Safe fun result => result.length = bytes.length := by
  apply Checked.safe_bind (Checked.safe_index (by omega))
  intro high _
  apply Checked.safe_bind (Checked.safe_index inside)
  intro low _
  apply Checked.safe_overwrite
  rw [bigEndian_length]
  omega

theorem safe_patchU24 (inside : off + 2 < bytes.length) :
    (patchU24 bytes off delta).Safe fun result => result.length = bytes.length := by
  apply Checked.safe_bind (Checked.safe_index (by omega))
  intro high _
  apply Checked.safe_bind (Checked.safe_index (by omega))
  intro middle _
  apply Checked.safe_bind (Checked.safe_index inside)
  intro low _
  apply Checked.safe_overwrite
  rw [bigEndian_length]
  omega

/-- A server name which is found lies behind the start of the walk. -/
theorem safe_findServerName (tpl : List UInt8) (extEnd p : ℕ) :
    (findServerName tpl extEnd p).Safe fun found => found.2 = 0 ∨ p ≤ found.1 := by
  fun_induction findServerName tpl extEnd p with
  | case1 p inside ih =>
      apply Checked.safe_bind (safe_u16be tpl p)
      intro etype _
      apply Checked.safe_bind (safe_u16be tpl (p + 2))
      intro elen _
      split
      · exact .inr (Nat.le_refl p)
      · apply (ih elen).imp
        intro found later
        omega
  | case2 p outside => exact .inl rfl

/-- No byte string makes the program panic. -/
theorem safe_buildFromTemplate (tpl serverName : List UInt8) (sessionId clientRandom : Bytes32) :
    (buildFromTemplate tpl serverName sessionId clientRandom).Safe fun _ => True := by
  unfold buildFromTemplate
  apply Checked.safe_bind (Checked.safe_refuseIf _)
  intro _ long
  apply Checked.safe_bind (Checked.safe_index (by omega))
  intro kind _
  apply Checked.safe_bind (Checked.safe_refuseIf _)
  intro _ _
  apply Checked.safe_bind (Checked.safe_index (by omega))
  intro handshake _
  apply Checked.safe_bind (Checked.safe_refuseIf _)
  intro _ _
  apply Checked.safe_bind (Checked.safe_index (by omega))
  intro sidLen _
  apply Checked.safe_bind (Checked.safe_refuseIf _)
  intro _ _
  apply Checked.safe_bind (safe_u16be tpl _)
  intro csLen _
  apply Checked.safe_bind (Checked.safe_get tpl _)
  intro compLen _
  apply Checked.safe_bind (safe_u16be tpl _)
  intro extTotal _
  apply Checked.safe_bind (Checked.safe_refuseIf _)
  intro _ fits
  apply Checked.safe_bind (safe_findServerName tpl _ _)
  rintro ⟨sniOff, sniTotal⟩ found
  apply Checked.safe_bind (Checked.safe_refuseIf _)
  intro _ named
  have inside : sniOff + sniTotal ≤ tpl.length := by omega
  have behind : 44 + 32 + (2 + csLen) + (1 + compLen.toNat) + 2 ≤ sniOff := by
    simp only at found
    omega
  apply Checked.safe_bind (Checked.safe_slice (Nat.zero_le _) (by omega))
  intro before before_length
  apply Checked.safe_bind (Checked.safe_slice inside (Nat.le_refl _))
  intro after _
  have long_enough : sniOff ≤ (before ++ (sniExt serverName ++ after)).length := by
    rw [List.length_append]
    omega
  apply Checked.safe_bind (Checked.safe_overwrite (by rw [clientRandom.2]; omega))
  intro randomised randomised_length
  apply Checked.safe_bind (Checked.safe_overwrite (by rw [sessionId.2]; omega))
  intro identified identified_length
  apply Checked.safe_bind (safe_patchU16 (by omega))
  intro recorded recorded_length
  apply Checked.safe_bind (safe_patchU24 (by omega))
  intro shaken shaken_length
  apply (safe_patchU16 (by omega)).imp
  intro _ _
  trivial

end Safe

end Mirage.Crypto
