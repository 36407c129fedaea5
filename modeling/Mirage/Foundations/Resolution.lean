import Mathlib.Logic.Relation
import Mathlib.Order.WellFounded
import Mathlib.Data.Fintype.Order
import Mirage.Foundations.MutualMaps

/-!
# Resolution in rounds

Items which refer to each other by key are built one after the other, each as
soon as everything it refers to is there.  `resolve` passes over the pending
items until nothing is left or a pass brings nothing.

What a successful resolution did is an order of the items in which each finds
its dependencies, `buildAll`; every property of the result is proved by
induction on that order.  A resolution succeeds exactly if every dependency is
declared and the references have no cycle.
-/

namespace Mirage.Foundations

universe u v w

/-- How items are named, what they need, and what is made of them. -/
structure Recipe (Item : Type u) (Key : Type v) (Value : Type w) where
  key : Item → Key
  deps : Item → List Key
  build : Item → List Value → Value

namespace Recipe

variable {Item : Type u} {Key : Type v} {Value : Type w} [DecidableEq Key]
  (recipe : Recipe Item Key Value)

/-- The values of all keys, if none is missing. -/
def lookupAll (built : FiniteMap Key Value) : List Key → Option (List Value)
  | [] => some []
  | dep :: rest =>
      match built.lookup dep with
      | some value => (lookupAll built rest).map (value :: ·)
      | none => none

def attempt (built : FiniteMap Key Value) (item : Item) : Option Value :=
  (lookupAll built (recipe.deps item)).map (recipe.build item)

/-- One pass over the pending items, and those which are still pending after it. -/
def round (built : FiniteMap Key Value) : List Item → FiniteMap Key Value × List Item
  | [] => (built, [])
  | item :: rest =>
      match recipe.attempt built item with
      | some value => round (built.insert (recipe.key item) value) rest
      | none =>
          let outcome := round built rest
          (outcome.1, item :: outcome.2)

def resolve (built : FiniteMap Key Value) (pending : List Item) :
    Except (List Item) (FiniteMap Key Value) :=
  if pending.isEmpty then .ok built
  else if (recipe.round built pending).2.length < pending.length then
    resolve (recipe.round built pending).1 (recipe.round built pending).2
  else .error (recipe.round built pending).2
termination_by pending.length

/-- Build the items in the given order, each from what is there. -/
def buildAll (built : FiniteMap Key Value) : List Item → Option (FiniteMap Key Value)
  | [] => some built
  | item :: rest =>
      match recipe.attempt built item with
      | some value => buildAll (built.insert (recipe.key item) value) rest
      | none => none

/-- The value of an item is made of the values of its dependencies. -/
def Realized (built : FiniteMap Key Value) (item : Item) : Prop :=
  ∃ values, (recipe.deps item).map built.lookup = values.map some ∧
    built.lookup (recipe.key item) = some (recipe.build item values)

/-- A pending item refers to a key which is not cut off. -/
def Refers (pending : List Item) (cut : Key → Prop) (source target : Key) : Prop :=
  ∃ item ∈ pending, recipe.key item = source ∧ target ∈ recipe.deps item ∧ ¬cut target

variable {recipe} {built final : FiniteMap Key Value} {pending order : List Item}

theorem lookupAll_eq_some {deps : List Key} {values : List Value} :
    lookupAll built deps = some values ↔ deps.map built.lookup = values.map some := by
  induction deps generalizing values with
  | nil => cases values <;> simp [lookupAll]
  | cons dep rest ih =>
      rw [lookupAll, List.map_cons]
      cases built.lookup dep with
      | none => cases values <;> simp
      | some value =>
          cases values with
          | nil => simp
          | cons first others => simp [ih, and_comm]

theorem lookupAll_eq_none {deps : List Key} :
    lookupAll built deps = none ↔ ∃ dep ∈ deps, dep ∉ built := by
  induction deps with
  | nil => simp [lookupAll]
  | cons dep rest ih =>
      rw [lookupAll]
      cases found : built.lookup dep with
      | none => simp [AList.lookup_eq_none.mp found]
      | some value =>
          have member : dep ∈ built := AList.lookup_isSome.mp (by simp [found])
          simp [ih, member]

theorem attempt_eq_some {item : Item} {value : Value} :
    recipe.attempt built item = some value ↔
      ∃ values, (recipe.deps item).map built.lookup = values.map some ∧
        recipe.build item values = value := by
  simp only [attempt, Option.map_eq_some_iff, lookupAll_eq_some]

theorem attempt_eq_none {item : Item} :
    recipe.attempt built item = none ↔ ∃ dep ∈ recipe.deps item, dep ∉ built := by
  simp only [attempt, Option.map_eq_none_iff, lookupAll_eq_none]

theorem deps_built_of_attempt {item : Item} {value : Value}
    (made : recipe.attempt built item = some value) : ∀ dep ∈ recipe.deps item, dep ∈ built := by
  intro dep member
  by_contra missing
  rw [attempt_eq_none.mpr ⟨dep, member, missing⟩] at made
  exact Option.some_ne_none value made.symm

section BuildAll

theorem buildAll_cons {item : Item} {rest : List Item}
    (builds : recipe.buildAll built (item :: rest) = some final) :
    ∃ value, recipe.attempt built item = some value ∧
      recipe.buildAll (built.insert (recipe.key item) value) rest = some final := by
  rw [buildAll] at builds
  split at builds
  · rename_i value made
    exact ⟨value, made, builds⟩
  · exact absurd builds.symm (Option.some_ne_none final)

theorem buildAll_append {first second : List Item} :
    recipe.buildAll built (first ++ second) =
      (recipe.buildAll built first).bind fun between => recipe.buildAll between second := by
  induction first generalizing built with
  | nil => rfl
  | cons item rest ih =>
      rw [List.cons_append, buildAll, buildAll]
      split
      · exact ih
      · rfl

/-- The keys of the result are those which were there and those of the items. -/
theorem mem_buildAll (builds : recipe.buildAll built order = some final) (key : Key) :
    key ∈ final ↔ key ∈ built ∨ key ∈ order.map recipe.key := by
  induction order generalizing built with
  | nil =>
      rw [buildAll, Option.some.injEq] at builds
      simp [builds]
  | cons item rest ih =>
      rcases buildAll_cons builds with ⟨value, made, buildsRest⟩
      rw [ih buildsRest, AList.mem_insert, List.map_cons, List.mem_cons]
      tauto

/-- The value of a key which no item has is not changed. -/
theorem lookup_buildAll_of_notMem (builds : recipe.buildAll built order = some final) {key : Key}
    (other : key ∉ order.map recipe.key) : final.lookup key = built.lookup key := by
  induction order generalizing built with
  | nil =>
      rw [buildAll, Option.some.injEq] at builds
      rw [builds]
  | cons item rest ih =>
      rcases buildAll_cons builds with ⟨value, made, buildsRest⟩
      rw [List.map_cons, List.mem_cons, not_or] at other
      rw [ih buildsRest other.2, AList.lookup_insert_ne other.1]

/--
Each item is built from what is there at its turn.  A dependency still has its
value at the end, unless it was there at the start and is the key of an item.
-/
theorem buildAll_at (distinct : (order.map recipe.key).Nodup)
    (builds : recipe.buildAll built order = some final) {item : Item} (member : item ∈ order) :
    ∃ (there : FiniteMap Key Value) (values : List Value),
      (recipe.deps item).map there.lookup = values.map some ∧
        final.lookup (recipe.key item) = some (recipe.build item values) ∧
        (∀ key, key ∉ order.map recipe.key → there.lookup key = built.lookup key) ∧
        ∀ dep ∈ recipe.deps item, dep ∉ built ∨ dep ∉ order.map recipe.key →
          final.lookup dep = there.lookup dep := by
  induction order generalizing built with
  | nil => simp at member
  | cons first rest ih =>
      rcases buildAll_cons builds with ⟨value, made, buildsRest⟩
      rw [List.map_cons, List.nodup_cons] at distinct
      rcases List.mem_cons.mp member with rfl | later
      · rcases attempt_eq_some.mp made with ⟨values, found, madeOf⟩
        refine ⟨built, values, found, ?_, fun _ _ => rfl, ?_⟩
        · rw [lookup_buildAll_of_notMem buildsRest distinct.1, AList.lookup_insert, madeOf]
        · intro dep needed unshadowed
          have there := deps_built_of_attempt made dep needed
          exact lookup_buildAll_of_notMem builds (unshadowed.resolve_left (not_not_intro there))
      · rcases ih distinct.2 buildsRest later with ⟨there, values, found, madeOf, same, kept⟩
        refine ⟨there, values, found, madeOf, ?_, ?_⟩
        · intro key other
          rw [List.map_cons, List.mem_cons, not_or] at other
          rw [same key other.2, AList.lookup_insert_ne other.1]
        · intro dep needed unshadowed
          apply kept dep needed
          by_cases isFirst : dep = recipe.key first
          · right
            rw [isFirst]
            exact distinct.1
          · rcases unshadowed with absent | other
            · left
              rw [AList.mem_insert, not_or]
              exact ⟨isFirst, absent⟩
            · right
              rw [List.map_cons, List.mem_cons, not_or] at other
              exact other.2

/-- Induction on the order: what holds of the dependencies of an item passes to its key. -/
theorem buildAll_induct (property : Key → Prop)
    (builds : recipe.buildAll built order = some final)
    (ready : ∀ item ∈ order, ∀ dep ∈ recipe.deps item, dep ∈ built → property dep)
    (passes : ∀ item ∈ order, (∀ dep ∈ recipe.deps item, property dep) →
      property (recipe.key item)) :
    ∀ item ∈ order, (∀ dep ∈ recipe.deps item, property dep) ∧ property (recipe.key item) := by
  induction order generalizing built with
  | nil => simp
  | cons first rest ih =>
      rcases buildAll_cons builds with ⟨value, made, buildsRest⟩
      have firstDeps : ∀ dep ∈ recipe.deps first, property dep := fun dep needed =>
        ready first List.mem_cons_self dep needed (deps_built_of_attempt made dep needed)
      have firstKey := passes first List.mem_cons_self firstDeps
      have restHolds := ih buildsRest
        (fun item later dep needed there => by
          rcases AList.mem_insert _ |>.mp there with rfl | before
          · exact firstKey
          · exact ready item (List.mem_cons_of_mem first later) dep needed before)
        (fun item later => passes item (List.mem_cons_of_mem first later))
      intro item member
      rcases List.mem_cons.mp member with rfl | later
      · exact ⟨firstDeps, firstKey⟩
      · exact restHolds item later

/-- Every item is realized, if no dependency was there before an item of its name. -/
theorem realized_of_buildAll (distinct : (order.map recipe.key).Nodup)
    (builds : recipe.buildAll built order = some final)
    (unshadowed : ∀ item ∈ order, ∀ dep ∈ recipe.deps item, dep ∈ built →
      dep ∉ order.map recipe.key) :
    ∀ item ∈ order, recipe.Realized final item := by
  intro item member
  rcases buildAll_at distinct builds member with ⟨there, values, found, madeOf, _, kept⟩
  refine ⟨values, ?_, madeOf⟩
  rw [← found]
  apply List.map_congr_left
  intro dep needed
  apply kept dep needed
  by_cases before : dep ∈ built
  · exact .inr (unshadowed item member dep needed before)
  · exact .inl before

/-- Any order in which no item is shadowed gives the same values. -/
theorem lookup_buildAll_congr {built' final' : FiniteMap Key Value} {order' : List Item}
    (distinct : (order.map recipe.key).Nodup) (same : order'.Perm order)
    (alike : ∀ key, built.lookup key = built'.lookup key)
    (unshadowed : ∀ item ∈ order, ∀ dep ∈ recipe.deps item, dep ∈ built →
      dep ∉ order.map recipe.key)
    (builds : recipe.buildAll built order = some final)
    (builds' : recipe.buildAll built' order' = some final') (key : Key) :
    final.lookup key = final'.lookup key := by
  have sameKeys := same.map recipe.key
  have unshadowed' : ∀ item ∈ order', ∀ dep ∈ recipe.deps item, dep ∈ built' →
      dep ∉ order'.map recipe.key := by
    intro item member dep needed before
    rw [sameKeys.mem_iff]
    apply unshadowed item (same.mem_iff.mp member) dep needed
    rwa [← AList.lookup_isSome, alike dep, AList.lookup_isSome]
  have others : ∀ other, other ∉ order.map recipe.key →
      final.lookup other = final'.lookup other := by
    intro other notItem
    rw [lookup_buildAll_of_notMem builds notItem, alike other,
      lookup_buildAll_of_notMem builds' (mt sameKeys.mem_iff.mp notItem)]
  have agree := buildAll_induct
    (fun key => final.lookup key = final'.lookup key) builds
    (fun item member dep needed before => others dep (unshadowed item member dep needed before))
    (fun item member deps => by
      rcases realized_of_buildAll distinct builds unshadowed item member with
        ⟨values, found, made⟩
      rcases realized_of_buildAll (sameKeys.nodup_iff.mpr distinct) builds' unshadowed' item
        (same.mem_iff.mpr member) with ⟨values', found', made'⟩
      have sameValues : values.map some = values'.map some := by
        rw [← found, ← found']
        exact List.map_congr_left deps
      rw [made, made', List.map_injective_iff.mpr (Option.some_injective Value) sameValues])
  by_cases isItem : key ∈ order.map recipe.key
  · rcases List.mem_map.mp isItem with ⟨item, member, rfl⟩
    exact (agree item member).2
  · exact others key isItem

end BuildAll

section Rounds

theorem round_of_buildAll (builds : recipe.buildAll built order = some final) :
    recipe.round built order = (final, []) := by
  induction order generalizing built with
  | nil =>
      rw [buildAll, Option.some.injEq] at builds
      rw [round, builds]
  | cons item rest ih =>
      rcases buildAll_cons builds with ⟨value, made, buildsRest⟩
      simp only [round, made, ih buildsRest]

theorem round_builds (built : FiniteMap Key Value) (pending : List Item) :
    ∃ order, recipe.buildAll built order = some (recipe.round built pending).1 ∧
      (order ++ (recipe.round built pending).2).Perm pending := by
  induction pending generalizing built with
  | nil => exact ⟨[], rfl, .nil⟩
  | cons item rest ih =>
      cases made : recipe.attempt built item with
      | some value =>
          rcases ih (built.insert (recipe.key item) value) with ⟨order, builds, same⟩
          refine ⟨item :: order, ?_, ?_⟩
          · simp only [buildAll, round, made, builds]
          · simp only [round, made]
            exact same.cons item
      | none =>
          rcases ih built with ⟨order, builds, same⟩
          refine ⟨order, ?_, ?_⟩
          · simp only [round, made, builds]
          · simp only [round, made]
            exact List.perm_middle.trans (same.cons item)

theorem round_length_le (built : FiniteMap Key Value) (pending : List Item) :
    (recipe.round built pending).2.length ≤ pending.length := by
  rcases recipe.round_builds built pending with ⟨order, _, same⟩
  have total := same.length_eq
  rw [List.length_append] at total
  omega

theorem stuck_of_no_progress
    (noProgress : ¬(recipe.round built pending).2.length < pending.length) :
    recipe.round built pending = (built, pending) ∧
      ∀ item ∈ pending, recipe.attempt built item = none := by
  induction pending with
  | nil => exact ⟨rfl, by simp⟩
  | cons first rest ih =>
      cases made : recipe.attempt built first with
      | some value =>
          simp only [round, made, List.length_cons] at noProgress
          have shorter := recipe.round_length_le (built.insert (recipe.key first) value) rest
          omega
      | none =>
          simp only [round, made, List.length_cons] at noProgress ⊢
          rcases ih (by omega) with ⟨unchanged, stuck⟩
          rw [unchanged]
          refine ⟨rfl, ?_⟩
          intro item member
          rcases List.mem_cons.mp member with rfl | later
          · exact made
          · exact stuck item later

theorem resolve_of_buildAll (builds : recipe.buildAll built order = some final) :
    recipe.resolve built order = .ok final := by
  rw [resolve, round_of_buildAll builds]
  cases order with
  | nil =>
      rw [buildAll, Option.some.injEq] at builds
      rw [builds]
      rfl
  | cons item rest => simp [resolve]

/-- A successful resolution has built the items in some order. -/
theorem resolve_ok (resolves : recipe.resolve built pending = .ok final) :
    ∃ order : List Item, order.Perm pending ∧ recipe.buildAll built order = some final := by
  induction size : pending.length using Nat.strong_induction_on generalizing built pending with
  | _ size ih =>
      rw [resolve] at resolves
      split at resolves
      · rename_i empty
        rw [List.isEmpty_iff] at empty
        subst empty
        refine ⟨[], .nil, ?_⟩
        simpa [buildAll] using resolves
      · split at resolves
        · rename_i progress
          rcases ih _ (size ▸ progress) resolves rfl with ⟨later, sameLater, buildsLater⟩
          rcases recipe.round_builds built pending with ⟨now, buildsNow, sameNow⟩
          refine ⟨now ++ later, (sameLater.append_left now).trans sameNow, ?_⟩
          rw [buildAll_append, buildsNow, Option.bind_some, buildsLater]
        · exact nomatch resolves

/-- A failed resolution has built what it could: nothing that is left is ready. -/
theorem resolve_error {left : List Item} (fails : recipe.resolve built pending = .error left) :
    ∃ (order : List Item) (there : FiniteMap Key Value), left ≠ [] ∧
      (order ++ left).Perm pending ∧ recipe.buildAll built order = some there ∧
      ∀ item ∈ left, recipe.attempt there item = none := by
  induction size : pending.length using Nat.strong_induction_on generalizing built pending with
  | _ size ih =>
      rw [resolve] at fails
      split at fails
      · exact nomatch fails
      · rename_i nonempty
        split at fails
        · rename_i progress
          rcases ih _ (size ▸ progress) fails rfl with
            ⟨later, there, someLeft, sameLater, buildsLater, stuck⟩
          rcases recipe.round_builds built pending with ⟨now, buildsNow, sameNow⟩
          refine ⟨now ++ later, there, someLeft, ?_, ?_, stuck⟩
          · rw [List.append_assoc]
            exact (sameLater.append_left now).trans sameNow
          · rw [buildAll_append, buildsNow, Option.bind_some, buildsLater]
        · rename_i noProgress
          rcases stuck_of_no_progress noProgress with ⟨unchanged, stuck⟩
          rw [unchanged, Except.error.injEq] at fails
          subst fails
          refine ⟨[], built, ?_, .refl _, rfl, stuck⟩
          rwa [List.isEmpty_iff] at nonempty

end Rounds

section Acyclic

variable {cut : Key → Prop}

omit [DecidableEq Key] in
theorem not_transGen_of_acc {relation : Key → Key → Prop} {key : Key}
    (accessible : Acc (flip relation) key) : ¬Relation.TransGen relation key key := by
  rw [← acc_transGen_iff] at accessible
  induction accessible with
  | intro key _ ih =>
      intro cycle
      exact ih key (Relation.transGen_swap.mpr cycle) cycle

/-- In a finite set in which everything refers to something, there is a cycle. -/
theorem exists_cycle {keys : List Key} {relation : Key → Key → Prop} (nonempty : keys ≠ [])
    (leads : ∀ key ∈ keys, ∃ next ∈ keys, relation key next) :
    ∃ key ∈ keys, Relation.TransGen relation key key := by
  by_contra acyclic
  push Not at acyclic
  let reaches : {key // key ∈ keys} → {key // key ∈ keys} → Prop :=
    fun target source => Relation.TransGen relation source target
  have transitive : IsTrans _ reaches := ⟨fun _ _ _ first second => second.trans first⟩
  have irreflexive : Std.Irrefl reaches := ⟨fun key => acyclic key key.2⟩
  have wellFounded := Finite.wellFounded_of_trans_of_irrefl reaches
  rcases List.exists_mem_of_ne_nil keys nonempty with ⟨start, startMem⟩
  rcases wellFounded.has_min Set.univ ⟨⟨start, startMem⟩, trivial⟩ with ⟨last, _, minimal⟩
  rcases leads last last.2 with ⟨next, nextMem, step⟩
  exact minimal ⟨next, nextMem⟩ trivial (.single step)

/--
A resolution succeeds exactly if every dependency is declared and the references
have no cycle.  A dependency which is there from the start may be cut off from
the graph, and has to be if it is also the key of an item.
-/
theorem resolve_ok_iff (distinct : (pending.map recipe.key).Nodup)
    (cutBuilt : ∀ key, cut key → key ∈ built)
    (plain : ∀ item ∈ pending, ∀ dep ∈ recipe.deps item, dep ∈ built →
      cut dep ∨ dep ∉ pending.map recipe.key) :
    (∃ final, recipe.resolve built pending = .ok final) ↔
      (∀ item ∈ pending, ∀ dep ∈ recipe.deps item,
        dep ∈ built ∨ dep ∈ pending.map recipe.key) ∧
      ∀ key, ¬Relation.TransGen (recipe.Refers pending cut) key key := by
  constructor
  · rintro ⟨final, resolves⟩
    rcases resolve_ok resolves with ⟨order, same, builds⟩
    constructor
    · intro item member dep needed
      have declared := buildAll_induct
        (fun key => key ∈ built ∨ key ∈ pending.map recipe.key) builds
        (fun _ _ dep _ there => .inl there)
        (fun item member _ => .inr (List.mem_map_of_mem (same.mem_iff.mp member)))
      exact (declared item (same.mem_iff.mpr member)).1 dep needed
    · have noSources : ∀ key, key ∉ pending.map recipe.key →
          Acc (flip (recipe.Refers pending cut)) key := by
        intro key other
        refine ⟨key, ?_⟩
        rintro target ⟨item, member, named, _⟩
        exact absurd (named ▸ List.mem_map_of_mem member) other
      have accessible := buildAll_induct
        (fun key => cut key ∨ Acc (flip (recipe.Refers pending cut)) key) builds
        (fun item member dep needed there =>
          (plain item (same.mem_iff.mp member) dep needed there).imp_right (noSources dep))
        (fun item member deps => .inr ⟨_, by
          rintro target ⟨other, otherMem, named, needed, uncut⟩
          rw [List.inj_on_of_nodup_map distinct otherMem (same.mem_iff.mp member) named] at needed
          exact (deps target needed).resolve_left uncut⟩)
      intro key cycle
      rcases Relation.TransGen.tail'_iff.mp cycle with ⟨_, _, _, _, _, _, uncut⟩
      rcases Relation.TransGen.head'_iff.mp cycle with ⟨_, ⟨item, member, rfl, _⟩, _⟩
      have holds := (accessible item (same.mem_iff.mpr member)).2
      exact not_transGen_of_acc (holds.resolve_left uncut) cycle
  · rintro ⟨declared, acyclic⟩
    cases outcome : recipe.resolve built pending with
    | ok final => exact ⟨final, rfl⟩
    | error left =>
        exfalso
        rcases resolve_error outcome with ⟨order, there, someLeft, same, builds, stuck⟩
        have leftPending : ∀ item ∈ left, item ∈ pending := fun item member =>
          same.mem_iff.mp (List.mem_append_right order member)
        have leads : ∀ key ∈ left.map recipe.key, ∃ next ∈ left.map recipe.key,
            recipe.Refers pending cut key next := by
          intro key named
          rcases List.mem_map.mp named with ⟨item, member, rfl⟩
          rcases attempt_eq_none.mp (stuck item member) with ⟨dep, needed, missing⟩
          rw [mem_buildAll builds, not_or] at missing
          have isPending :=
            (declared item (leftPending item member) dep needed).resolve_left missing.1
          rw [← (same.map recipe.key).mem_iff, List.map_append, List.mem_append] at isPending
          refine ⟨dep, isPending.resolve_left missing.2, item, leftPending item member, rfl,
            needed, ?_⟩
          intro isCut
          exact missing.1 (cutBuilt dep isCut)
        rcases exists_cycle (by simpa using someLeft) leads with ⟨key, _, cycle⟩
        exact acyclic key cycle

end Acyclic

end Recipe

end Mirage.Foundations
