import Mathlib.Data.List.Basic
import Mathlib.Order.Lattice

/-!
# Binary search

The loop of `binary_search_by` keeps a base and halves the number of elements
which are left from it on.  On a list which the comparison orders, everything
past the bracket is greater, and the base is not greater unless it is the start.
-/

namespace Mirage.Foundations

universe u

variable {Element : Type u}

/-- `size` elements from `base` on are left. -/
def searchLoop (compare : Element → Ordering) (elements : List Element) (size base : ℕ) : ℕ :=
  if size ≤ 1 then base
  else
    let half := size / 2
    let mid := base + half
    searchLoop compare elements (size - half)
      (if elements[mid]?.map compare = some .gt then base else mid)
termination_by size

/-- `binary_search_by`, for the index of an element which compares equal. -/
def binarySearchBy (compare : Element → Ordering) (elements : List Element) : Option ℕ :=
  let base := searchLoop compare elements elements.length 0
  if elements[base]?.map compare = some .eq then some base else none

/-- The lesser elements stand first and the greater ones last. -/
def SearchOrdered (compare : Element → Ordering) (elements : List Element) : Prop :=
  elements.Pairwise fun first second =>
    (compare first = .gt → compare second = .gt) ∧ (compare second = .lt → compare first = .lt)

variable {compare : Element → Ordering} {elements : List Element}

/-- What the loop knows of the elements which are left. -/
structure Bracket (compare : Element → Ordering) (elements : List Element) (size base : ℕ) :
    Prop where
  nonempty : 0 < size
  inside : base + size ≤ elements.length
  above : ∀ i element, base + size ≤ i → elements[i]? = some element → compare element = .gt
  below : base = 0 ∨ elements[base]?.map compare ≠ some .gt

theorem SearchOrdered.at {i j : ℕ} {first second : Element}
    (ordered : SearchOrdered compare elements) (before : i < j)
    (at_first : elements[i]? = some first) (at_second : elements[j]? = some second) :
    (compare first = .gt → compare second = .gt) ∧
      (compare second = .lt → compare first = .lt) := by
  rcases List.getElem?_eq_some_iff.mp at_first with ⟨first_inside, rfl⟩
  rcases List.getElem?_eq_some_iff.mp at_second with ⟨second_inside, rfl⟩
  exact List.pairwise_iff_getElem.mp ordered i j first_inside second_inside before

theorem Bracket.halve {size base : ℕ} (ordered : SearchOrdered compare elements)
    (bracket : Bracket compare elements size base) (large : ¬size ≤ 1) :
    Bracket compare elements (size - size / 2)
      (if elements[base + size / 2]?.map compare = some .gt then base else base + size / 2) := by
  have inside := bracket.inside
  have mid_inside : base + size / 2 < elements.length := by omega
  split
  · rename_i greater
    rcases Option.map_eq_some_iff.mp greater with ⟨mid, at_mid, mid_greater⟩
    refine ⟨by omega, by omega, ?_, bracket.below⟩
    intro i element past found
    rcases Nat.lt_or_ge (base + size / 2) i with later | same
    · exact (ordered.at later at_mid found).1 mid_greater
    · obtain rfl : i = base + size / 2 := by omega
      rw [at_mid, Option.some.injEq] at found
      rw [← found]
      exact mid_greater
  · rename_i not_greater
    refine ⟨by omega, by omega, ?_, .inr not_greater⟩
    intro i element past found
    exact bracket.above i element (by omega) found

theorem Bracket.loop {size base : ℕ} (ordered : SearchOrdered compare elements)
    (bracket : Bracket compare elements size base) :
    Bracket compare elements 1 (searchLoop compare elements size base) := by
  fun_induction searchLoop compare elements size base with
  | case1 size base small =>
      have nonempty := bracket.nonempty
      obtain rfl : size = 1 := by omega
      exact bracket
  | case2 size base large half mid ih => exact ih (bracket.halve ordered large)

theorem bracket_start (nonempty : elements ≠ []) : Bracket compare elements elements.length 0 := by
  refine ⟨List.length_pos_of_ne_nil nonempty, by omega, ?_, .inl rfl⟩
  intro i element past found
  have inside := (List.getElem?_eq_some_iff.mp found).1
  omega

theorem binarySearchBy_eq_some {index : ℕ} (found : binarySearchBy compare elements = some index) :
    ∃ element, elements[index]? = some element ∧ compare element = .eq := by
  simp only [binarySearchBy] at found
  split at found
  · rename_i equal
    obtain rfl := Option.some.inj found
    exact Option.map_eq_some_iff.mp equal
  · cases found

/-- The search finds an element exactly when there is one which compares equal. -/
theorem binarySearchBy_isSome_iff (ordered : SearchOrdered compare elements) :
    (binarySearchBy compare elements).isSome ↔ ∃ element ∈ elements, compare element = .eq := by
  constructor
  · intro found
    rcases Option.isSome_iff_exists.mp found with ⟨index, at_index⟩
    rcases binarySearchBy_eq_some at_index with ⟨element, there, equal⟩
    exact ⟨element, List.mem_of_getElem? there, equal⟩
  · rintro ⟨element, member, equal⟩
    have bracket := (bracket_start (List.ne_nil_of_mem member)).loop ordered
    rcases List.getElem?_of_mem member with ⟨i, at_i⟩
    simp only [binarySearchBy]
    generalize searchLoop compare elements elements.length 0 = base at bracket ⊢
    have base_inside : base < elements.length := bracket.inside
    have at_base := List.getElem?_eq_getElem base_inside
    have not_past : i ≤ base := by
      apply Nat.le_of_not_lt
      intro past
      rw [bracket.above i element past at_i] at equal
      cases equal
    have base_equal : compare elements[base] = .eq := by
      rcases Nat.lt_or_eq_of_le not_past with before | rfl
      · have order := ordered.at before at_i at_base
        rcases bracket.below with start | not_greater
        · omega
        · rw [at_base, Option.map_some, ne_eq, Option.some.injEq] at not_greater
          cases outcome : compare elements[base] with
          | lt => rw [order.2 outcome] at equal; cases equal
          | eq => rfl
          | gt => exact absurd outcome not_greater
      · rw [at_base, Option.some.injEq] at at_i
        rw [at_i]
        exact equal
    rw [at_base, Option.map_some, base_equal, if_pos rfl]
    rfl

end Mirage.Foundations

/-!
# Inclusive ranges

Ranges which are sorted by their starts are merged into ranges apart from each
other, and a point of the merged ones is found by binary search.  `touches` says
when the next range goes on where the last one ends: it holds where they have a
point in common, and where it holds there is no point between them.
-/

namespace Mirage.Foundations

universe u

variable {Point : Type u} [LinearOrder Point]

def Covered (ranges : List (Point × Point)) (point : Point) : Prop :=
  ∃ range ∈ ranges, range.1 ≤ point ∧ point ≤ range.2

/-- Add a range to merged ones, the last of which stands first. -/
def mergeInto (touches : Point → Point → Bool) (merged : List (Point × Point))
    (range : Point × Point) : List (Point × Point) :=
  match merged with
  | [] => [range]
  | last :: rest =>
      if touches last.2 range.1 then
        if range.2 > last.2 then (last.1, range.2) :: rest else merged
      else range :: merged

/-- How a range compares with a point which is searched for. -/
def compareRange (point : Point) (range : Point × Point) : Ordering :=
  if point < range.1 then .gt else if point > range.2 then .lt else .eq

/-- The range is not empty, and another one touches it where they have a point in common. -/
structure Mergeable (touches : Point → Point → Bool) (range : Point × Point) : Prop where
  proper : range.1 ≤ range.2
  overlaps : ∀ start ≤ range.2, touches range.2 start = true

/-- What merging keeps: the ranges in `done` are merged into `merged`. -/
structure Merged (touches : Point → Point → Bool) (done merged : List (Point × Point)) : Prop where
  mergeable : ∀ range ∈ merged, Mergeable touches range
  apart : merged.Pairwise fun later earlier => earlier.2 < later.1
  covers : ∀ point, Covered merged point ↔ Covered done point
  starts : ∀ range ∈ merged, ∃ source ∈ done, range.1 = source.1

variable {touches : Point → Point → Bool} {done merged : List (Point × Point)}
  {range : Point × Point}

@[simp]
theorem covered_nil (point : Point) : ¬Covered [] point := by
  simp [Covered]

@[simp]
theorem covered_cons {point : Point} {ranges : List (Point × Point)} :
    Covered (range :: ranges) point ↔
      range.1 ≤ point ∧ point ≤ range.2 ∨ Covered ranges point := by
  simp [Covered]

theorem covered_concat {point : Point} {ranges : List (Point × Point)} :
    Covered (ranges ++ [range]) point ↔
      Covered ranges point ∨ range.1 ≤ point ∧ point ≤ range.2 := by
  simp [Covered, or_and_right, exists_or]

theorem covered_reverse {point : Point} {ranges : List (Point × Point)} :
    Covered ranges.reverse point ↔ Covered ranges point := by
  simp [Covered]

theorem covered_perm {point : Point} {ranges others : List (Point × Point)}
    (perm : ranges.Perm others) : Covered ranges point ↔ Covered others point := by
  simp only [Covered, perm.mem_iff]

theorem merged_nil : Merged touches [] [] :=
  ⟨nofun, .nil, fun _ => Iff.rfl, nofun⟩

/-- A range which goes on where the last one ends makes it longer. -/
theorem covered_extend {last : Point × Point}
    (tight : ∀ point, last.2 < point → range.1 ≤ point) (ordered : last.1 ≤ range.1)
    (longer : last.2 < range.2) (point : Point) :
    last.1 ≤ point ∧ point ≤ range.2 ↔
      (last.1 ≤ point ∧ point ≤ last.2) ∨ range.1 ≤ point ∧ point ≤ range.2 := by
  constructor
  · rintro ⟨after, before⟩
    rcases le_or_gt point last.2 with inside | past
    · exact .inl ⟨after, inside⟩
    · exact .inr ⟨tight point past, before⟩
  · rintro (⟨after, before⟩ | ⟨after, before⟩)
    · exact ⟨after, before.trans longer.le⟩
    · exact ⟨ordered.trans after, before⟩

theorem Merged.step (tight : ∀ end_ start, touches end_ start = true →
      ∀ point, end_ < point → start ≤ point)
    (invariant : Merged touches done merged) (mergeable : Mergeable touches range)
    (sorted : ∀ source ∈ done, source.1 ≤ range.1) :
    Merged touches (done ++ [range]) (mergeInto touches merged range) := by
  have older : ∀ other ∈ merged, ∃ source ∈ done ++ [range], other.1 = source.1 := by
    intro other member
    rcases invariant.starts other member with ⟨source, there, same⟩
    exact ⟨source, List.mem_append_left _ there, same⟩
  have newest : ∃ source ∈ done ++ [range], range.1 = source.1 := ⟨range, by simp, rfl⟩
  cases merged with
  | nil =>
      refine ⟨?_, List.pairwise_singleton _ _, ?_, ?_⟩
      · simpa [mergeInto] using mergeable
      · intro point
        rw [covered_concat, ← invariant.covers]
        simp [mergeInto]
      · simp [mergeInto]
  | cons last rest =>
      have last_mergeable := invariant.mergeable last (by simp)
      have ordered : last.1 ≤ range.1 := by
        rcases invariant.starts last (by simp) with ⟨source, there, same⟩
        rw [same]
        exact sorted source there
      have rest_apart := List.pairwise_cons.mp invariant.apart
      simp only [mergeInto]
      split
      · rename_i touching
        have gapless := tight last.2 range.1 touching
        split
        · rename_i longer
          refine ⟨?_, ?_, ?_, ?_⟩
          · rw [List.forall_mem_cons]
            refine ⟨⟨ordered.trans mergeable.proper, mergeable.overlaps⟩, ?_⟩
            exact fun other member => invariant.mergeable other (List.mem_cons_of_mem _ member)
          · exact List.pairwise_cons.mpr rest_apart
          · intro point
            rw [covered_concat, ← invariant.covers, covered_cons, covered_cons,
              covered_extend gapless ordered longer]
            exact or_right_comm
          · rw [List.forall_mem_cons]
            refine ⟨older last (by simp), ?_⟩
            exact fun other member => older other (List.mem_cons_of_mem _ member)
        · rename_i inside
          refine ⟨invariant.mergeable, invariant.apart, ?_, older⟩
          intro point
          rw [covered_concat, ← invariant.covers, covered_cons]
          constructor
          · exact .inl
          · rintro (covered | ⟨after, before⟩)
            · exact covered
            · exact .inl ⟨ordered.trans after, before.trans (not_lt.mp inside)⟩
      · rename_i separate
        have after_last : last.2 < range.1 := by
          apply lt_of_not_ge
          exact fun overlap => separate (last_mergeable.overlaps range.1 overlap)
        refine ⟨?_, ?_, ?_, ?_⟩
        · rw [List.forall_mem_cons]
          exact ⟨mergeable, invariant.mergeable⟩
        · rw [List.pairwise_cons, List.forall_mem_cons]
          refine ⟨⟨after_last, ?_⟩, invariant.apart⟩
          intro other member
          exact (rest_apart.1 other member).trans_le (last_mergeable.proper.trans after_last.le)
        · intro point
          rw [covered_concat, ← invariant.covers, covered_cons]
          exact or_comm
        · rw [List.forall_mem_cons]
          exact ⟨newest, older⟩

theorem Merged.foldl (tight : ∀ end_ start, touches end_ start = true →
      ∀ point, end_ < point → start ≤ point)
    {ranges : List (Point × Point)} (invariant : Merged touches done merged)
    (mergeable : ∀ range ∈ ranges, Mergeable touches range)
    (later : ∀ source ∈ done, ∀ range ∈ ranges, source.1 ≤ range.1)
    (sorted : ranges.Pairwise fun first second => first.1 ≤ second.1) :
    Merged touches (done ++ ranges) (ranges.foldl (mergeInto touches) merged) := by
  induction ranges generalizing done merged with
  | nil => simpa using invariant
  | cons range ranges ih =>
      rw [List.forall_mem_cons] at mergeable
      rw [List.pairwise_cons] at sorted
      have next := invariant.step tight mergeable.1 fun source there =>
        later source there range (by simp)
      rw [List.append_cons]
      apply ih next mergeable.2 _ sorted.2
      intro source there other member
      rcases List.mem_append.mp there with old | new
      · exact later source old other (List.mem_cons_of_mem _ member)
      · rw [List.mem_singleton] at new
        rw [new]
        exact sorted.1 other member

theorem compareRange_eq_iff {point : Point} :
    compareRange point range = .eq ↔ range.1 ≤ point ∧ point ≤ range.2 := by
  simp only [compareRange]
  split
  · rename_i before
    simp [before.not_ge]
  · rename_i after
    split
    · rename_i past
      simp [past.not_ge]
    · rename_i inside
      simp [not_lt.mp after, not_lt.mp inside]

/-- Ranges apart from each other are ordered for the search of a point. -/
theorem searchOrdered_of_apart {ranges : List (Point × Point)}
    (proper : ∀ range ∈ ranges, range.1 ≤ range.2)
    (apart : ranges.Pairwise fun earlier later => earlier.2 < later.1) (point : Point) :
    SearchOrdered (compareRange point) ranges := by
  apply apart.imp_of_mem
  intro earlier later there also_there separate
  have first := proper earlier there
  have second := proper later also_there
  simp only [compareRange]
  constructor
  · intro greater
    split at greater
    · rename_i before
      rw [if_pos (before.trans_le (first.trans separate.le))]
    · split at greater <;> cases greater
  · intro lesser
    split at lesser
    · cases lesser
    · split at lesser
      · rename_i past
        have beyond : earlier.2 < point := separate.trans (second.trans_lt past)
        rw [if_neg (first.trans_lt beyond).not_gt, if_pos beyond]
      · cases lesser

section Merging

variable {ranges : List (Point × Point)}
  (tight : ∀ end_ start, touches end_ start = true → ∀ point, end_ < point → start ≤ point)
  (mergeable : ∀ range ∈ ranges, Mergeable touches range)
  (sorted : ranges.Pairwise fun first second => first.1 ≤ second.1)

include tight mergeable sorted

theorem merged_of_sorted : Merged touches ranges (ranges.foldl (mergeInto touches) []) := by
  have result := merged_nil.foldl tight mergeable nofun sorted
  rwa [List.nil_append] at result

theorem covered_merged (point : Point) :
    Covered (ranges.foldl (mergeInto touches) []).reverse point ↔ Covered ranges point := by
  rw [covered_reverse, (merged_of_sorted tight mergeable sorted).covers]

/-- A point is found in the merged ranges exactly when one of the ranges has it. -/
theorem search_merged (point : Point) :
    (binarySearchBy (compareRange point)
        (ranges.foldl (mergeInto touches) []).reverse).isSome ↔
      Covered ranges point := by
  have result := merged_of_sorted tight mergeable sorted
  rw [binarySearchBy_isSome_iff]
  · simp only [compareRange_eq_iff]
    exact covered_merged tight mergeable sorted point
  · apply searchOrdered_of_apart
    · intro range member
      exact (result.mergeable range (List.mem_reverse.mp member)).proper
    · exact List.pairwise_reverse.mpr result.apart

end Merging

end Mirage.Foundations
