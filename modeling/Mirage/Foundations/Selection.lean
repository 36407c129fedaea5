import Mathlib.Data.Int.Order.Basic
import Mathlib.Data.List.Basic

/-!
# A selected entry of a list

A selection is an index beside a list, `-1` where nothing is selected.  It has to
be kept in step with the list by hand.  `erase` takes an entry away and moves the
index only where it is past the end of what is left: the entry which is selected
stays so only if nothing before it is taken away.
-/

namespace Mirage.Foundations

universe u v

variable {α : Type u}

/-- The index is one of the list. -/
def InIndices (entries : List α) (index : ℤ) : Prop :=
  0 ≤ index ∧ index < entries.length

instance (entries : List α) (index : ℤ) : Decidable (InIndices entries index) :=
  inferInstanceAs (Decidable (_ ∧ _))

theorem inIndices_iff {entries : List α} {index : ℤ} :
    InIndices entries index ↔ ∃ place : ℕ, index = place ∧ place < entries.length := by
  constructor
  · rintro ⟨low, high⟩
    exact ⟨index.toNat, by omega, by omega⟩
  · rintro ⟨place, rfl, inside⟩
    exact ⟨by omega, by omega⟩

theorem inIndices_map {β : Type v} (f : α → β) {entries : List α} {index : ℤ} :
    InIndices (entries.map f) index ↔ InIndices entries index := by
  rw [InIndices, InIndices, List.length_map]

/-- An entry which is kept keeps its place if those in front of it are kept too. -/
theorem getElem?_filter {entries : List α} {keeps : α → Bool} {place : ℕ} {entry : α}
    (found : entries[place]? = some entry) (kept : keeps entry = true)
    (before : ∀ other ∈ entries.take place, keeps other = true) :
    (entries.filter keeps)[place]? = some entry := by
  obtain ⟨inside, rfl⟩ := List.getElem?_eq_some_iff.mp found
  conv_lhs =>
    rw [← List.take_append_drop place entries, List.filter_append,
      List.filter_eq_self.mpr before, List.drop_eq_getElem_cons inside,
      List.filter_cons_of_pos kept]
  have length := List.length_take_of_le (Nat.le_of_lt inside)
  rw [List.getElem?_append_right (List.length_take_le _ _), length, Nat.sub_self,
    List.getElem?_cons_zero]

theorem getElem?_concat_cases {entries : List α} {place : ℕ} {new found : α}
    (here : (entries ++ [new])[place]? = some found) :
    entries[place]? = some found ∨ place = entries.length ∧ found = new := by
  rcases Nat.lt_or_ge place entries.length with inside | outside
  · exact .inl (List.getElem?_append_left inside ▸ here)
  · rw [List.getElem?_append_right outside, List.getElem?_singleton] at here
    split at here
    · exact .inr ⟨by omega, (Option.some.inj here).symm⟩
    · cases here

theorem exists_of_getElem?_modify {entries : List α} {index place : ℕ} {change : α → α} {found : α}
    (here : (entries.modify index change)[place]? = some found) :
    place = index ∧ (∃ old, entries[place]? = some old ∧ found = change old) ∨
      place ≠ index ∧ entries[place]? = some found := by
  by_cases same : place = index
  · subst same
    rw [List.getElem?_modify_eq] at here
    obtain ⟨old, there, changed⟩ := Option.map_eq_some_iff.mp here
    exact .inl ⟨rfl, old, there, changed.symm⟩
  · rw [List.getElem?_modify_ne _ _ (Ne.symm same)] at here
    exact .inr ⟨same, here⟩

/-- What a change of one entry leaves as it is -/
theorem map_modify {β : Type v} {of : α → β} {change : α → α} (index : ℕ) (entries : List α)
    (same : ∀ entry, of (change entry) = of entry) :
    (entries.modify index change).map of = entries.map of := by
  apply List.ext_getElem?
  intro place
  rw [List.getElem?_map, List.getElem?_map, List.getElem?_modify, Option.map_eq_map,
    Option.map_map]
  congr 1
  funext entry
  dsimp only [Function.comp_apply]
  split
  · exact same entry
  · rfl

theorem getElem?_eraseIdx_cases {entries : List α} {index place : ℕ} {found : α}
    (here : (entries.eraseIdx index)[place]? = some found) :
    place < index ∧ entries[place]? = some found ∨
      index ≤ place ∧ entries[place + 1]? = some found := by
  rw [List.getElem?_eraseIdx] at here
  split at here
  · rename_i before
    exact .inl ⟨before, here⟩
  · exact .inr ⟨by omega, here⟩

/-- A list has the entry which is taken out of it, and those which are left. -/
theorem mem_iff_mem_eraseIdx {entries : List α} {place : ℕ} {taken entry : α}
    (found : entries[place]? = some taken) :
    entry ∈ entries ↔ entry = taken ∨ entry ∈ entries.eraseIdx place := by
  obtain ⟨inside, rfl⟩ := List.getElem?_eq_some_iff.mp found
  conv_lhs => rw [← List.take_append_drop place entries, List.drop_eq_getElem_cons inside]
  rw [List.eraseIdx_eq_take_drop_succ, List.mem_append, List.mem_append, List.mem_cons]
  exact or_left_comm

structure Selection (α : Type u) where
  entries : List α
  index : ℤ

namespace Selection

variable {selection : Selection α}

/-- Nothing is selected, or an entry which is there. -/
def Legal (selection : Selection α) : Prop :=
  selection.index = -1 ∨ InIndices selection.entries selection.index

instance (selection : Selection α) : Decidable selection.Legal :=
  inferInstanceAs (Decidable (_ ∨ _))

def selected (selection : Selection α) : Option α :=
  if 0 ≤ selection.index then selection.entries[selection.index.toNat]? else none

def erase (selection : Selection α) (place : ℕ) : Selection α :=
  let rest := selection.entries.eraseIdx place
  ⟨rest, if rest.length ≤ selection.index then rest.length - 1 else selection.index⟩

/-- Taking an entry away leaves the place of the selected one as it was. -/
def Unmoved (selection : Selection α) (place : ℕ) : Prop :=
  selection.index ≤ place ∨ selection.entries.length ≤ selection.index + 1 ∨
    selection.entries[(selection.index + 1).toNat]? = selection.entries[selection.index.toNat]?

instance [DecidableEq α] (selection : Selection α) (place : ℕ) :
    Decidable (selection.Unmoved place) :=
  inferInstanceAs (Decidable (_ ∨ _ ∨ _))

@[simp]
theorem selected_none (entries : List α) : (⟨entries, -1⟩ : Selection α).selected = none :=
  rfl

@[simp]
theorem selected_natCast (entries : List α) (place : ℕ) :
    (⟨entries, place⟩ : Selection α).selected = entries[place]? := by
  rw [selected, if_pos (Int.natCast_nonneg place), Int.toNat_natCast]

theorem legal_cases (legal : selection.Legal) :
    (∃ entries, selection = ⟨entries, -1⟩) ∨
      ∃ (entries : List α) (place : ℕ), place < entries.length ∧ selection = ⟨entries, place⟩ := by
  rcases selection with ⟨entries, index⟩
  rcases legal with rfl | inside
  · exact .inl ⟨entries, rfl⟩
  · obtain ⟨place, rfl, inside⟩ := inIndices_iff.mp inside
    exact .inr ⟨entries, place, inside, rfl⟩

/-- An index which is not below `-1` is legal if it is not past the end. -/
theorem legal_iff_lt {entries : List α} {index : ℤ} (low : -1 ≤ index) :
    (⟨entries, index⟩ : Selection α).Legal ↔ index < entries.length := by
  unfold Legal InIndices
  dsimp only
  omega

theorem Legal.low (legal : selection.Legal) : -1 ≤ selection.index := by
  unfold Legal InIndices at legal
  omega

theorem Legal.lt_length (legal : selection.Legal) : selection.index < selection.entries.length :=
  (legal_iff_lt legal.low).mp legal

theorem legal_erase (legal : selection.Legal) (place : ℕ) : (selection.erase place).Legal := by
  unfold erase Legal InIndices
  rcases legal_cases legal with ⟨entries, rfl⟩ | ⟨entries, index, _, rfl⟩
  · left
    exact if_neg (by dsimp only; omega)
  · dsimp only
    split <;> omega

theorem legal_of_length_le {entries larger : List α} {index : ℤ}
    (legal : (⟨entries, index⟩ : Selection α).Legal) (longer : entries.length ≤ larger.length) :
    (⟨larger, index⟩ : Selection α).Legal := by
  have low : -1 ≤ index := legal.low
  have inside : index < entries.length := legal.lt_length
  exact (legal_iff_lt low).mpr (by omega)

theorem selected_append {entries : List α} {index : ℤ}
    (legal : (⟨entries, index⟩ : Selection α).Legal) (more : List α) :
    (⟨entries ++ more, index⟩ : Selection α).selected =
      (⟨entries, index⟩ : Selection α).selected := by
  have inside := legal.lt_length
  unfold selected
  dsimp only at inside ⊢
  split
  · exact List.getElem?_append_left (by omega)
  · rfl

theorem selected_set {entries : List α} {index : ℤ} {place : ℕ} (other : index ≠ place)
    (new : α) :
    (⟨entries.set place new, index⟩ : Selection α).selected =
      (⟨entries, index⟩ : Selection α).selected := by
  unfold selected
  dsimp only
  split
  · exact List.getElem?_set_ne (by omega)
  · rfl

/-- What is selected after another entry has been taken away -/
theorem selected_erase {entries : List α} {index place : ℕ} (inside : index < entries.length)
    (there : place < entries.length) (other : place ≠ index) :
    (erase ⟨entries, index⟩ place).selected =
      if place < index ∧ index + 1 < entries.length then entries[index + 1]?
      else entries[index]? := by
  have length := List.length_eraseIdx_of_lt there
  rw [erase]
  dsimp only
  rw [length]
  by_cases past : ((entries.length - 1 : ℕ) : ℤ) ≤ index
  -- the last entry was selected, and is the last one still
  · have last : (((entries.length - 1 : ℕ) : ℤ) - 1) = ((index - 1 : ℕ) : ℤ) := by omega
    rw [if_pos past, last, selected_natCast, List.getElem?_eraseIdx, if_neg (by omega),
      if_neg (by omega)]
    congr 1
    omega
  · rw [if_neg past, selected_natCast, List.getElem?_eraseIdx]
    by_cases before : place < index
    · rw [if_neg (by omega), if_pos ⟨before, by omega⟩]
    · rw [if_pos (by omega), if_neg fun both => before both.1]

theorem selected_erase_iff {entries : List α} {index place : ℕ} (inside : index < entries.length)
    (there : place < entries.length) (other : place ≠ index) :
    (erase ⟨entries, index⟩ place).selected = (⟨entries, index⟩ : Selection α).selected ↔
      (⟨entries, index⟩ : Selection α).Unmoved place := by
  have next : ((index : ℤ) + 1).toNat = index + 1 := by omega
  rw [selected_erase inside there other, selected_natCast, Unmoved]
  dsimp only
  rw [next, Int.toNat_natCast]
  split
  · rename_i moved
    have low : ¬(index : ℤ) ≤ place := by omega
    have short : ¬(entries.length : ℤ) ≤ index + 1 := by omega
    simp only [low, short, false_or]
  · rename_i unmoved
    refine iff_of_true rfl ?_
    by_cases before : place < index
    · exact .inr (.inl (by omega))
    · exact .inl (by omega)

/-- The selection stays with its entry while another one is taken away. -/
theorem kept_erase_iff {index : ℤ} (legal : selection.Legal)
    (there : InIndices selection.entries index) :
    (selection.selected.isSome → index ≠ selection.index →
        (selection.erase index.toNat).selected = selection.selected) ↔
      index = selection.index ∨ selection.Unmoved index.toNat := by
  obtain ⟨place, rfl, present⟩ := inIndices_iff.mp there
  rw [Int.toNat_natCast]
  rcases legal_cases legal with ⟨entries, rfl⟩ | ⟨entries, index, inside, rfl⟩
  · refine iff_of_true (fun some => absurd some (by simp)) (.inr (.inl ?_))
    dsimp only
    omega
  · have found : (⟨entries, index⟩ : Selection α).selected.isSome := by
      rw [selected_natCast, List.getElem?_eq_getElem inside]
      rfl
    dsimp only at present ⊢
    by_cases same : (place : ℤ) = index
    · exact iff_of_true (fun _ other => absurd same other) (.inl same)
    · rw [← selected_erase_iff inside present (by omega)]
      exact ⟨fun kept => .inr (kept found same), fun kept _ _ => kept.resolve_left same⟩

end Selection

end Mirage.Foundations
