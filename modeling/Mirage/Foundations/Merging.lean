import Mathlib.Data.List.Nodup

/-!
# Merging a list into another

Of a list which is merged into another one, the entries are appended whose key is
not there yet, each key once.
-/

namespace Mirage.Foundations

universe u v w

variable {Entry : Type u} {Key : Type v} {Store : Type w} [DecidableEq Key] {key : Entry → Key}

/-- The entries whose keys are not known, the first of each key -/
def missing (key : Entry → Key) : List Key → List Entry → List Entry
  | _, [] => []
  | known, entry :: rest =>
      if key entry ∈ known then missing key known rest
      else entry :: missing key (known ++ [key entry]) rest

theorem missing_cons_of_mem {known : List Key} {entry : Entry} (there : key entry ∈ known)
    (rest : List Entry) : missing key known (entry :: rest) = missing key known rest := by
  rw [missing, if_pos there]

theorem missing_cons_of_notMem {known : List Key} {entry : Entry} (new : key entry ∉ known)
    (rest : List Entry) :
    missing key known (entry :: rest) = entry :: missing key (known ++ [key entry]) rest := by
  rw [missing, if_neg new]

theorem missing_sublist (known : List Key) (entries : List Entry) :
    (missing key known entries).Sublist entries := by
  induction entries generalizing known with
  | nil => exact .slnil
  | cons entry rest ih =>
      rw [missing]
      split
      · exact (ih known).cons entry
      · exact (ih _).cons_cons entry

theorem notMem_known_of_mem_missing {known : List Key} {entries : List Entry} {entry : Entry}
    (there : entry ∈ missing key known entries) : key entry ∉ known := by
  induction entries generalizing known with
  | nil => cases there
  | cons first rest ih =>
      by_cases here : key first ∈ known
      · rw [missing_cons_of_mem here] at there
        exact ih there
      · rw [missing_cons_of_notMem here, List.mem_cons] at there
        rcases there with rfl | later
        · exact here
        · exact fun known_key => ih later (List.mem_append_left _ known_key)

theorem nodup_missing (known : List Key) (entries : List Entry) :
    ((missing key known entries).map key).Nodup := by
  induction entries generalizing known with
  | nil => exact List.nodup_nil
  | cons first rest ih =>
      rw [missing]
      split
      · exact ih known
      · refine List.nodup_cons.mpr ⟨fun again => ?_, ih _⟩
        obtain ⟨entry, there, same⟩ := List.mem_map.mp again
        exact notMem_known_of_mem_missing there
          (same ▸ List.mem_append_right _ (List.mem_singleton_self _))

/-- Nothing of the merged list is left out. -/
theorem mem_append_missing {known : List Key} {entries : List Entry} {entry : Entry}
    (there : entry ∈ entries) : key entry ∈ known ++ (missing key known entries).map key := by
  induction entries generalizing known with
  | nil => cases there
  | cons first rest ih =>
      by_cases here : key first ∈ known
      · rw [missing_cons_of_mem here]
        rcases List.mem_cons.mp there with rfl | later
        · exact List.mem_append_left _ here
        · exact ih later
      · rw [missing_cons_of_notMem here, List.map_cons, ← List.singleton_append,
          ← List.append_assoc]
        rcases List.mem_cons.mp there with rfl | later
        · exact List.mem_append_left _ (List.mem_append_right _ (List.mem_singleton_self _))
        · exact ih later

/-- To merge the same list again changes nothing. -/
theorem missing_eq_nil {known : List Key} {entries : List Entry}
    (all : ∀ entry ∈ entries, key entry ∈ known) : missing key known entries = [] := by
  induction entries with
  | nil => rfl
  | cons first rest ih =>
      rw [missing_cons_of_mem (all first List.mem_cons_self)]
      exact ih fun entry there => all entry (List.mem_cons_of_mem _ there)

/-- The added entries are those of the offered ones which are not there, in order and each once. -/
structure Completes (key : Entry → Key) (existing added offered : List Entry) : Prop where
  taken : added.Sublist offered
  new : ∀ entry ∈ added, key entry ∉ existing.map key
  once : (added.map key).Nodup
  complete : ∀ entry ∈ offered, key entry ∈ (existing ++ added).map key

theorem completes_missing (existing offered : List Entry) :
    Completes key existing (missing key (existing.map key) offered) offered where
  taken := missing_sublist _ _
  new _ := notMem_known_of_mem_missing
  once := nodup_missing _ _
  complete entry there := by
    rw [List.map_append]
    exact mem_append_missing there

end Mirage.Foundations
