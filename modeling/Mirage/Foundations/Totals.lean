import Mathlib.Algebra.BigOperators.Group.List.Basic
import Mathlib.Tactic.Abel
import Mirage.Foundations.MutualMaps

/-!
# Totals of tables and of lists

The amounts which a table holds under its keys are added up, and so are those
which the components of a system still have to deliver.  Each lemma says how
one change of the table or of a component changes the total.
-/

namespace Mirage.Foundations

universe u v w

variable {Key : Type u} {Component : Type v} {Amount : Type w} [DecidableEq Key]

namespace FiniteMap

/-- Equality of tables which computes. -/
instance [DecidableEq Amount] : DecidableEq (FiniteMap Key Amount) :=
  fun first second => decidable_of_iff (first.entries = second.entries) AList.ext_iff.symm

section Monoid

variable [AddCommMonoid Amount]

def total (map : FiniteMap Key Amount) : Amount :=
  (map.entries.map Sigma.snd).sum

/-- What the table holds under a key, nothing if it has no entry. -/
def amount (map : FiniteMap Key Amount) (key : Key) : Amount :=
  (AList.lookup key map).getD 0

theorem total_erase (map : FiniteMap Key Amount) (key : Key) :
    total (AList.erase key map) + amount map key = total map := by
  by_cases there : key ∈ map
  · rcases List.exists_of_kerase there with ⟨value, before, after, _, entries, erased⟩
    have here : AList.lookup key map = some value := by
      apply AList.mem_lookup_iff.mpr
      simp [entries]
    have rest : (AList.erase key map).entries = before ++ after := erased
    simp only [total, amount, rest, entries, here, List.map_append, List.map_cons, List.sum_append,
      List.sum_cons, Option.getD_some]
    abel
  · have absent : AList.lookup key map = none := AList.lookup_eq_none.mpr there
    have same : (AList.erase key map).entries = map.entries := List.kerase_of_notMem_keys there
    simp [total, amount, same, absent]

theorem total_insert (map : FiniteMap Key Amount) (key : Key) (value : Amount) :
    total (AList.insert key value map) + amount map key = total map + value := by
  have entries : (AList.insert key value map).entries =
      ⟨key, value⟩ :: (AList.erase key map).entries := AList.entries_insert
  have split : total (AList.insert key value map) = value + total (AList.erase key map) := by
    simp only [total, entries, List.map_cons, List.sum_cons]
  rw [split, add_assoc, total_erase, add_comm]

omit [DecidableEq Key] in
/-- The entries which are kept and those which are not make up the table. -/
theorem total_retain (map : FiniteMap Key Amount) (keep : Key → Bool) :
    total (map.retain keep) + total (map.retain fun key => !keep key) = total map := by
  simp only [total, retain]
  induction map.entries with
  | nil => simp
  | cons entry entries ih =>
      rw [List.map_cons, List.sum_cons, ← ih]
      cases kept : keep entry.1 with
      | true =>
          simp only [List.filter_cons, kept, Bool.not_true, Bool.false_eq_true, if_true, if_false,
            List.map_cons, List.sum_cons]
          abel
      | false =>
          simp only [List.filter_cons, kept, Bool.not_false, Bool.false_eq_true, if_true, if_false,
            List.map_cons, List.sum_cons]
          abel

end Monoid

/-- An amount is added to what the table holds under a key. -/
theorem total_insert_add [AddCommGroup Amount] (map : FiniteMap Key Amount) (key : Key)
    (more : Amount) :
    total (AList.insert key (amount map key + more) map) = total map + more := by
  refine add_right_cancel ((total_insert map key (amount map key + more)).trans ?_)
  rw [add_comm (amount map key), add_assoc]

end FiniteMap

/-- One component of a system steps, and with it what the components still have to deliver. -/
theorem sum_map_set [AddCommMonoid Amount] {components : List Component} {index : ℕ}
    {old : Component} (found : components[index]? = some old) (owed : Component → Amount)
    (new : Component) :
    ((components.set index new).map owed).sum + owed old =
      (components.map owed).sum + owed new := by
  induction components generalizing index with
  | nil => simp at found
  | cons first rest ih =>
      cases index with
      | zero =>
          simp only [List.getElem?_cons_zero, Option.some.injEq] at found
          subst found
          simp only [List.set_cons_zero, List.map_cons, List.sum_cons]
          abel
      | succ index =>
          simp only [List.getElem?_cons_succ] at found
          simp only [List.set_cons_succ, List.map_cons, List.sum_cons, add_assoc, ih found]

end Mirage.Foundations
