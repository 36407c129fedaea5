import Mathlib.Data.List.AList
import Mathlib.Combinatorics.Enumerative.DoubleCounting
import Mirage.Foundations.Splitting

/-!
# Mutually inverse finite maps

A table which is read in both directions is stored as two finite maps.  This
file gives the relation which makes them one table, `Mutual`, and the update
which keeps it: binding a fresh key to a value takes the value away from its
previous owner in both maps.

The number of entries of such a table is bounded by any finite set containing
the values in use.
-/

namespace Mirage.Foundations

universe u v

abbrev FiniteMap (Key : Type u) (Value : Type v) := AList fun _ : Key => Value

variable {Key : Type u} {Value : Type v} [DecidableEq Key]

/-- The entries whose key passes a test. -/
def FiniteMap.retain (map : FiniteMap Key Value) (keep : Key → Bool) : FiniteMap Key Value :=
  ⟨map.entries.filter fun entry => keep entry.1, map.nodupKeys.sublist List.filter_sublist⟩

theorem FiniteMap.lookup_retain (map : FiniteMap Key Value) (keep : Key → Bool) (key : Key) :
    AList.lookup key (map.retain keep) = if keep key then map.lookup key else none := by
  apply Option.ext
  intro value
  change value ∈ AList.lookup key (map.retain keep) ↔ _
  rw [AList.mem_lookup_iff, FiniteMap.retain, List.mem_filter, ← AList.mem_lookup_iff]
  cases keep key with
  | true => simp
  | false => simp

/-- The same keys, with other values -/
def FiniteMap.mapValues {Other : Type*} (map : FiniteMap Key Value) (change : Value → Other) :
    FiniteMap Key Other :=
  ⟨map.entries.map fun entry => ⟨entry.1, change entry.2⟩, by
    rw [List.NodupKeys, List.keys, List.map_map]
    exact map.nodupKeys⟩

def FiniteMap.insertSome (map : FiniteMap Key Value) (key : Key) :
    Option Value → FiniteMap Key Value
  | some value => map.insert key value
  | none => map

theorem FiniteMap.lookup_insertSome_of_ne {map : FiniteMap Key Value} {key other : Key}
    (different : other ≠ key) (value : Option Value) :
    AList.lookup other (map.insertSome key value) = map.lookup other := by
  cases value with
  | none => rfl
  | some value => exact AList.lookup_insert_ne different

section Collect

variable {Item : Type*} {key : Item → Key} {value : Item → Option Value} {items : List Item}

/-- Put every item which has a value under its key. -/
def FiniteMap.collect (key : Item → Key) (value : Item → Option Value) (items : List Item)
    (map : FiniteMap Key Value) : FiniteMap Key Value :=
  items.foldl (fun (map : FiniteMap Key Value) item => map.insertSome (key item) (value item)) map

theorem FiniteMap.lookup_collect_of_notMem {other : Key} (absent : other ∉ items.map key)
    (map : FiniteMap Key Value) :
    AList.lookup other (collect key value items map) = map.lookup other := by
  induction items generalizing map with
  | nil => rfl
  | cons item items ih =>
      rw [List.map_cons, List.mem_cons, not_or] at absent
      rw [collect, List.foldl_cons, ← collect, ih absent.2,
        FiniteMap.lookup_insertSome_of_ne absent.1]

/-- Items of distinct keys are found under their own. -/
theorem FiniteMap.lookup_collect (distinct : (items.map key).Nodup) {map : FiniteMap Key Value}
    (fresh : ∀ item ∈ items, map.lookup (key item) = none) {item : Item} (member : item ∈ items) :
    AList.lookup (key item) (collect key value items map) = value item := by
  induction items generalizing map with
  | nil => cases member
  | cons first items ih =>
      rw [List.map_cons, List.nodup_cons] at distinct
      rw [collect, List.foldl_cons, ← collect]
      rcases List.mem_cons.mp member with rfl | later
      · rw [FiniteMap.lookup_collect_of_notMem distinct.1]
        cases value item with
        | none => exact fresh item member
        | some found => exact AList.lookup_insert map
      · apply ih distinct.2 _ later
        intro other otherMember
        have different : key other ≠ key first := by
          intro same
          exact distinct.1 (same ▸ List.mem_map_of_mem otherMember)
        rw [FiniteMap.lookup_insertSome_of_ne different]
        exact fresh other (.tail _ otherMember)

/-- A table which is filled item by item has, for each key, the value of its last item. -/
theorem FiniteMap.lookup_collect_some (key : Item → Key) (value : Item → Value)
    (items : List Item) (map : FiniteMap Key Value) (wanted : Key) :
    AList.lookup wanted (collect key (fun item => some (value item)) items map) =
      ((items.reverse.find? fun item => decide (key item = wanted)).map value).or
        (map.lookup wanted) := by
  induction items generalizing map with
  | nil => simp [collect]
  | cons item items ih =>
      rw [collect, List.foldl_cons, ← collect, ih, insertSome, List.reverse_cons,
        List.find?_append]
      by_cases here : key item = wanted
      · subst here
        rw [AList.lookup_insert]
        cases items.reverse.find? fun other => decide (key other = key item) <;> simp
      · rw [AList.lookup_insert_ne (Ne.symm here)]
        cases items.reverse.find? fun other => decide (key other = wanted) <;> simp [here]

theorem FiniteMap.lookup_collect_eq_some {key : Item → Key} {value : Item → Value}
    {items : List Item} (distinct : (items.map key).Nodup) {wanted : Key} {found : Value} :
    AList.lookup wanted (collect key (fun item => some (value item)) items ∅) = some found ↔
      ∃ item ∈ items, key item = wanted ∧ value item = found := by
  constructor
  · intro there
    rw [lookup_collect_some, AList.lookup_empty, Option.or_none,
      Option.map_eq_some_iff] at there
    rcases there with ⟨item, last, same⟩
    have same_key : key item = wanted := by simpa using List.find?_some last
    exact ⟨item, List.mem_reverse.mp (List.mem_of_find?_eq_some last), same_key, same⟩
  · rintro ⟨item, member, rfl, rfl⟩
    exact lookup_collect distinct (fun _ _ => AList.lookup_empty _) member

end Collect

/-- Drop the forward entry of a value's previous owner, unless it is `key` itself. -/
def evict (forward : FiniteMap Key Value) (previous : Option Key) (key : Key) :
    FiniteMap Key Value :=
  match previous with
  | some owner => if owner ≠ key then forward.erase owner else forward
  | none => forward

theorem lookup_evict_owner {forward : FiniteMap Key Value} {owner key : Key}
    (different : owner ≠ key) : (evict forward (some owner) key).lookup owner = none := by
  simp [evict, different]

theorem lookup_evict_of_ne {forward : FiniteMap Key Value} {previous : Option Key}
    {key other : Key} (notOwner : previous ≠ some other) :
    (evict forward previous key).lookup other = forward.lookup other := by
  rcases previous with _ | owner
  · rfl
  · have different : other ≠ owner := fun equal => notOwner (by rw [equal])
    simp only [evict]
    split
    · exact AList.lookup_erase_ne different
    · rfl

variable [DecidableEq Value]

/-- Each map contains exactly the reversed pairs of the other. -/
def Mutual (forward : FiniteMap Key Value) (backward : FiniteMap Value Key) : Prop :=
  ∀ key value, forward.lookup key = some value ↔ backward.lookup value = some key

namespace Mutual

variable {forward : FiniteMap Key Value} {backward : FiniteMap Value Key}

theorem empty : Mutual (∅ : FiniteMap Key Value) (∅ : FiniteMap Value Key) := by
  intro key value
  simp

theorem key_unique (mutual_maps : Mutual forward backward) {first second : Key} {value : Value}
    (first_bound : forward.lookup first = some value)
    (second_bound : forward.lookup second = some value) : first = second := by
  have first_owner := (mutual_maps first value).mp first_bound
  have second_owner := (mutual_maps second value).mp second_bound
  exact Option.some.inj (first_owner.symm.trans second_owner)

theorem owner_ne_of_fresh (mutual_maps : Mutual forward backward) {key : Key}
    (fresh : forward.lookup key = none) (value : Value) : backward.lookup value ≠ some key := by
  intro owned
  rw [(mutual_maps key value).mpr owned] at fresh
  exact Option.some_ne_none _ fresh

/-- Binding a fresh key to a value, evicting the previous owner, keeps the maps inverse. -/
theorem rebind (mutual_maps : Mutual forward backward) {key : Key}
    (fresh : forward.lookup key = none) (value : Value) :
    Mutual ((evict forward (backward.lookup value) key).insert key value)
      (backward.insert value key) := by
  intro otherKey otherValue
  by_cases sameKey : otherKey = key
  · subst otherKey
    rw [AList.lookup_insert]
    by_cases sameValue : otherValue = value
    · subst otherValue
      simp
    · rw [AList.lookup_insert_ne sameValue]
      have notOwned := mutual_maps.owner_ne_of_fresh fresh otherValue
      simp [Ne.symm sameValue, notOwned]
  · rw [AList.lookup_insert_ne sameKey]
    by_cases owner : backward.lookup value = some otherKey
    · rw [owner, lookup_evict_owner sameKey]
      have bound := (mutual_maps otherKey value).mpr owner
      by_cases sameValue : otherValue = value
      · subst otherValue
        simp [Ne.symm sameKey]
      · rw [AList.lookup_insert_ne sameValue, ← mutual_maps otherKey otherValue, bound]
        simp [Ne.symm sameValue]
    · rw [lookup_evict_of_ne owner]
      by_cases sameValue : otherValue = value
      · subst otherValue
        rw [AList.lookup_insert, mutual_maps otherKey value]
        simp [owner, Ne.symm sameKey]
      · rw [AList.lookup_insert_ne sameValue]
        exact mutual_maps otherKey otherValue

theorem forward_length_le (mutual_maps : Mutual forward backward) {values : Finset Value}
    (within : ∀ key value, forward.lookup key = some value → value ∈ values) :
    forward.keys.length ≤ values.card := by
  rw [← List.toFinset_card_of_nodup forward.keys_nodup]
  apply Finset.card_le_card_of_forall_subsingleton
    (fun key value => forward.lookup key = some value)
  · intro key key_mem
    have bound : (forward.lookup key).isSome := by
      rw [AList.lookup_isSome, AList.mem_keys]
      simpa using key_mem
    rcases Option.isSome_iff_exists.mp bound with ⟨value, lookup_eq⟩
    exact ⟨value, within key value lookup_eq, lookup_eq⟩
  · intro value _ first first_mem second second_mem
    exact mutual_maps.key_unique first_mem.2 second_mem.2

theorem backward_length_le (mutual_maps : Mutual forward backward) {values : Finset Value}
    (within : ∀ key value, forward.lookup key = some value → value ∈ values) :
    backward.keys.length ≤ values.card := by
  rw [← List.toFinset_card_of_nodup backward.keys_nodup]
  apply Finset.card_le_card
  intro value value_mem
  have owned : (backward.lookup value).isSome := by
    rw [AList.lookup_isSome, AList.mem_keys]
    simpa using value_mem
  rcases Option.isSome_iff_exists.mp owned with ⟨key, lookup_eq⟩
  exact within key value ((mutual_maps key value).mpr lookup_eq)

end Mutual

section Unambiguous

/-- After its last occurrence, the first part of a pair comes again exactly if the second does. -/
def Unambiguous {First : Type u} {Second : Type v} (pairs : List (First × Second)) : Prop :=
  ∀ before first second after, pairs = before ++ (first, second) :: after →
    (first, second) ∉ after →
      ((∃ other, (first, other) ∈ after) ↔ ∃ other, (other, second) ∈ after)

variable {First : Type u} {Second : Type v} [DecidableEq First] [DecidableEq Second]
  {pairs before after : List (First × Second)} {first : First} {second : Second}

/-- The last item of a key is the given one, unless a later one has the key. -/
theorem find?_reverse_iff {Item Key : Type*} [DecidableEq Key] {item : Item}
    {items before after : List Item} (split : items = before ++ item :: after)
    (absent : item ∉ after) (key : Item → Key) :
    (items.reverse.find? fun other => decide (key other = key item)) = some item ↔
      ∀ other ∈ after, key other ≠ key item := by
  rw [split, List.reverse_append, List.reverse_cons, List.append_assoc, List.find?_append]
  cases found : after.reverse.find? fun other => decide (key other = key item) with
  | none =>
      rw [List.find?_eq_none] at found
      refine iff_of_true (by simp) fun other later => ?_
      simpa using found other (List.mem_reverse.mpr later)
  | some newer =>
      have later := List.mem_reverse.mp (List.mem_of_find?_eq_some found)
      have same : key newer = key item := by simpa using List.find?_some found
      refine iff_of_false ?_ fun all => all newer later same
      rintro ⟨⟩
      exact absent later

/-- A table has the value of an item under its key exactly if that is the last item of the key. -/
theorem lookup_collect_iff {Item Key Value : Type*} [DecidableEq Key] {key : Item → Key}
    {value : Item → Value} {items : List Item} {item : Item}
    (determined : ∀ other, key other = key item → value other = value item → other = item) :
    AList.lookup (key item) (FiniteMap.collect key (fun other => some (value other)) items ∅) =
        some (value item) ↔
      (items.reverse.find? fun other => decide (key other = key item)) = some item := by
  rw [FiniteMap.lookup_collect_some, AList.lookup_empty, Option.or_none, Option.map_eq_some_iff]
  constructor
  · rintro ⟨found, there, same_value⟩
    have same_key : key found = key item := by simpa using List.find?_some there
    rw [there, determined found same_key same_value]
  · intro there
    exact ⟨_, there, rfl⟩

/-- Two tables filled pair by pair are one table exactly if the pairs are unambiguous. -/
theorem mutual_collect_iff :
    Mutual (FiniteMap.collect Prod.snd (fun pair => some pair.1) pairs ∅)
        (FiniteMap.collect Prod.fst (fun pair => some pair.2) pairs ∅) ↔
      Unambiguous pairs := by
  have repeated (after : List (First × Second)) (first : First) :
      (∃ other, (first, other) ∈ after) ↔ ¬∀ pair ∈ after, pair.1 ≠ first := by
    simp
  have repeats (after : List (First × Second)) (second : Second) :
      (∃ other, (other, second) ∈ after) ↔ ¬∀ pair ∈ after, pair.2 ≠ second := by
    simp
  have forward (pair : First × Second) := @lookup_collect_iff _ _ _ _ Prod.snd Prod.fst pairs pair
    fun other same_second same_first => Prod.ext same_first same_second
  have backward (pair : First × Second) := @lookup_collect_iff _ _ _ _ Prod.fst Prod.snd pairs pair
    fun other same_first same_second => Prod.ext same_first same_second
  constructor
  · intro mutual_maps before first second after split absent
    have same := (forward (first, second)).symm.trans
      ((mutual_maps second first).trans (backward (first, second)))
    rw [find?_reverse_iff split absent Prod.snd, find?_reverse_iff split absent Prod.fst] at same
    rw [repeated, repeats, same]
  · intro unambiguous second first
    refine (forward (first, second)).trans (Iff.trans ?_ (backward (first, second)).symm)
    by_cases there : (first, second) ∈ pairs
    · rcases exists_last_of_mem there with ⟨before, after, split, absent⟩
      have same := unambiguous before first second after split absent
      rw [repeated, repeats, not_iff_not] at same
      rw [find?_reverse_iff split absent Prod.snd, find?_reverse_iff split absent Prod.fst, same]
    · refine iff_of_false (fun found => there ?_) fun found => there ?_
      · exact List.mem_reverse.mp (List.mem_of_find?_eq_some found)
      · exact List.mem_reverse.mp (List.mem_of_find?_eq_some found)

end Unambiguous

end Mirage.Foundations
