import Mathlib.Data.List.Basic

/-!
# Slot tables

A table whose handles are the indices of its slots.  Insertion takes the first
free slot, so the handle of a removed value is given out again.
-/

namespace Mirage.Foundations

universe u

/-- Slots in the order of their handles; a free slot holds nothing. -/
structure SlotTable (Value : Type u) where
  slots : List (Option Value)

namespace SlotTable

variable {Value : Type u}

def empty : SlotTable Value :=
  ⟨[]⟩

def get (table : SlotTable Value) (handle : ℕ) : Option Value :=
  (table.slots[handle]?).join

def nextHandle (table : SlotTable Value) : ℕ :=
  firstFree table.slots
where
  firstFree : List (Option Value) → ℕ
    | [] => 0
    | none :: _ => 0
    | some _ :: slots => firstFree slots + 1

def insert (table : SlotTable Value) (value : Value) : SlotTable Value :=
  ⟨fill table.slots⟩
where
  fill : List (Option Value) → List (Option Value)
    | [] => [some value]
    | none :: slots => some value :: slots
    | some other :: slots => some other :: fill slots

def update (table : SlotTable Value) (handle : ℕ) (change : Value → Value) : SlotTable Value :=
  ⟨table.slots.modify handle (Option.map change)⟩

/-- Remove every value which does not meet `keep`. -/
def retain (table : SlotTable Value) (keep : Value → Bool) : SlotTable Value :=
  ⟨table.slots.map (Option.filter keep)⟩

/-- Remove what is under some handles. -/
def removeAll (table : SlotTable Value) (handles : List ℕ) : SlotTable Value :=
  ⟨table.slots.mapIdx fun handle slot => if handle ∈ handles then none else slot⟩

/-- The first handle whose value meets a test. -/
def find (table : SlotTable Value) (test : Value → Bool) : Option ℕ :=
  table.slots.findIdx? (Option.any test)

def any (table : SlotTable Value) (test : Value → Bool) : Bool :=
  table.slots.any (Option.any test)

theorem get_nextHandle (table : SlotTable Value) : table.get table.nextHandle = none := by
  rcases table with ⟨slots⟩
  simp only [get, nextHandle]
  induction slots with
  | nil => rfl
  | cons slot slots ih =>
      cases slot with
      | none => rfl
      | some other => simpa [nextHandle.firstFree] using ih

theorem get_insert_nextHandle (table : SlotTable Value) (value : Value) :
    (table.insert value).get table.nextHandle = some value := by
  rcases table with ⟨slots⟩
  simp only [get, nextHandle, insert]
  induction slots with
  | nil => rfl
  | cons slot slots ih =>
      cases slot with
      | none => rfl
      | some other => simpa [nextHandle.firstFree, insert.fill] using ih

theorem get_insert_of_ne {table : SlotTable Value} {handle : ℕ} (value : Value)
    (other : handle ≠ table.nextHandle) :
    (table.insert value).get handle = table.get handle := by
  rcases table with ⟨slots⟩
  simp only [get, nextHandle, insert] at other ⊢
  induction slots generalizing handle with
  | nil =>
      cases handle with
      | zero => simp [nextHandle.firstFree] at other
      | succ handle => rfl
  | cons slot slots ih =>
      cases handle with
      | zero =>
          cases slot with
          | none => simp [nextHandle.firstFree] at other
          | some _ => rfl
      | succ handle =>
          cases slot with
          | none => rfl
          | some _ =>
              simp only [nextHandle.firstFree] at other
              simpa [insert.fill] using ih (by omega)

/-- Values in the table stay where they are. -/
theorem get_insert_of_get {table : SlotTable Value} {handle : ℕ} {present : Value}
    (found : table.get handle = some present) (value : Value) :
    (table.insert value).get handle = some present := by
  rw [get_insert_of_ne, found]
  rintro rfl
  simp [get_nextHandle] at found

theorem get_update (table : SlotTable Value) (handle other : ℕ) (change : Value → Value) :
    (table.update handle change).get other =
      if other = handle then (table.get other).map change else table.get other := by
  simp only [get, update, List.getElem?_modify, eq_comm (a := handle)]
  by_cases same : other = handle
  · subst same
    simp only [if_true]
    rcases table.slots[other]? with _ | _ | _ <;> rfl
  · simp [same]

theorem get_update_self {table : SlotTable Value} {handle : ℕ} {value : Value}
    (found : table.get handle = some value) (change : Value → Value) :
    (table.update handle change).get handle = some (change value) := by
  simp [get_update, found]

theorem get_update_of_ne {table : SlotTable Value} {handle other : ℕ} (different : other ≠ handle)
    (change : Value → Value) :
    (table.update handle change).get other = table.get other := by
  simp [get_update, different]

/-- What is in a table after an update: the value which changed, or another one. -/
theorem get_update_cases {table : SlotTable Value} {handle other : ℕ} {value found : Value}
    {change : Value → Value} (present : table.get handle = some value)
    (there : (table.update handle change).get other = some found) :
    other = handle ∧ found = change value ∨ other ≠ handle ∧ table.get other = some found := by
  by_cases here : other = handle
  · subst here
    rw [get_update_self present, Option.some.injEq] at there
    exact Or.inl ⟨rfl, there.symm⟩
  · rw [get_update_of_ne here] at there
    exact Or.inr ⟨here, there⟩

@[simp]
theorem get_retain (table : SlotTable Value) (keep : Value → Bool) (handle : ℕ) :
    (table.retain keep).get handle = (table.get handle).filter keep := by
  simp only [get, retain, List.getElem?_map]
  rcases table.slots[handle]? with _ | _ | _ <;> rfl

theorem get_removeAll (table : SlotTable Value) (handles : List ℕ) (handle : ℕ) :
    (table.removeAll handles).get handle =
      if handle ∈ handles then none else table.get handle := by
  simp only [get, removeAll, List.getElem?_mapIdx]
  rcases table.slots[handle]? with _ | slot
  · simp
  · simp only [Option.map_some, Option.join_some]

end SlotTable

end Mirage.Foundations
