import Mathlib.Data.Option.Basic

/-!
# Replacing a file which can be put back

A slot is a file together with its backup.  A replacement sets the old file
aside, puts the new one in its place and discards the backup; to undo it, the
backup is restored.  Restoring takes whatever backup it finds.  So it undoes a
replacement which had an old file to set aside, and leaves a slot which was not
touched alone only if it had no backup already.
-/

namespace Mirage.Foundations

universe u v

/-- Each part is absent if there is no such file. -/
structure Slot (Content : Type u) where
  current : Option Content
  backup : Option Content
  deriving DecidableEq, Repr

namespace Slot

variable {Content : Type u}

/-- A backup which was there is replaced. -/
def setAside (slot : Slot Content) : Slot Content :=
  match slot.current with
  | some old => ⟨none, some old⟩
  | none => slot

def put (slot : Slot Content) (new : Content) : Slot Content :=
  { slot with current := some new }

def discard (slot : Slot Content) : Slot Content :=
  { slot with backup := none }

def restore (slot : Slot Content) : Slot Content :=
  match slot.backup with
  | some old => ⟨some old, none⟩
  | none => slot

def map {Other : Type v} (change : Content → Other) (slot : Slot Content) : Slot Other :=
  ⟨slot.current.map change, slot.backup.map change⟩

@[simp]
theorem put_current (slot : Slot Content) (new : Content) : (slot.put new).current = some new :=
  rfl

@[simp]
theorem put_backup (slot : Slot Content) (new : Content) : (slot.put new).backup = slot.backup :=
  rfl

@[simp]
theorem discard_current (slot : Slot Content) : slot.discard.current = slot.current :=
  rfl

@[simp]
theorem setAside_current (slot : Slot Content) : slot.setAside.current = none := by
  unfold setAside
  split
  · rfl
  · assumption

theorem setAside_backup (slot : Slot Content) :
    slot.setAside.backup = slot.current.or slot.backup := by
  unfold setAside
  split
  · rename_i old here
    rw [here, Option.some_or]
  · rename_i absent
    rw [absent, Option.none_or]

theorem restore_current (slot : Slot Content) :
    slot.restore.current = slot.backup.or slot.current := by
  unfold restore
  split
  · rename_i old kept
    rw [kept, Option.some_or]
  · rename_i none_kept
    rw [none_kept, Option.none_or]

/-- Restoring a slot which was not touched changes nothing if its backup is a copy. -/
theorem restore_current_eq_iff (slot : Slot Content) :
    slot.restore.current = slot.current ↔ ∀ old, slot.backup = some old → slot.current = some old
      := by
  rw [restore_current]
  cases slot.backup with
  | none => simp
  | some old => simp [eq_comm]

/-- What was set aside can be restored; a slot without a file must have had no backup. -/
theorem restore_setAside_current_eq_iff (slot : Slot Content) :
    slot.setAside.restore.current = slot.current ↔
      slot.current.isSome = true ∨ slot.backup = none := by
  rw [restore_current, setAside_backup, setAside_current]
  rcases slot with ⟨_ | old, backup⟩
  · cases backup <;> simp
  · simp

/-- A file which was put in the place of no file cannot be undone. -/
theorem restore_put_setAside_current_eq_iff (slot : Slot Content) (new : Content) :
    ((slot.setAside.put new).restore).current = slot.current ↔ slot.current.isSome = true := by
  rw [restore_current, put_backup, setAside_backup, put_current]
  rcases slot with ⟨_ | old, backup⟩
  · cases backup <;> simp
  · simp

end Slot

end Mirage.Foundations
