import Mirage.Proxy.Outbound

/-!
# The outbound graph

The construction gives the declared graph in every order of the configuration,
unless a group or a chained server is itself called `direct` or `block`: what
names it and is built before it gets the implicit outbound of that name instead.
-/

namespace Mirage.Proxy

open Mirage.Foundations

namespace OutboundConfig

/-- Every tag which is named is that of an outbound or needs no declaration. -/
def Declared (configs : List OutboundConfig) : Prop :=
  ∀ config ∈ configs, ∀ name ∈ config.references, name ∈ configs.map tag ∨ name ∈ reserved

/-- No outbound leads to itself, where references to the tags in `cut` do not count. -/
def Acyclic (configs : List OutboundConfig) (cut : String → Prop) : Prop :=
  ∀ name, ¬Relation.TransGen (recipe.Refers configs cut) name name

/--
What the construction is for: in every order of the outbounds it succeeds exactly
if all names are declared and the references have no cycle; then every outbound
is there and made of the outbounds it names, and the order makes no difference.
-/
structure ConstructsGraph (configs : List OutboundConfig) : Prop where
  succeeds_iff : ∀ order : List OutboundConfig, order.Perm configs →
    ((∃ built, OutboundManager.new ⟨order⟩ = .ok built) ↔
      Declared configs ∧ Acyclic configs fun _ => False)
  realized : ∀ order : List OutboundConfig, order.Perm configs →
    ∀ built, OutboundManager.new ⟨order⟩ = .ok built →
      ∀ config ∈ configs, recipe.Realized built config
  order_irrelevant : ∀ first second : List OutboundConfig,
    first.Perm configs → second.Perm configs → ∀ built built',
      OutboundManager.new ⟨first⟩ = .ok built → OutboundManager.new ⟨second⟩ = .ok built' →
        ∀ name, built.lookup name = built'.lookup name

/-- Something names a group or a chained server which is called `direct` or `block`. -/
def ReservedGroup (configs : List OutboundConfig) : Prop :=
  ∃ config ∈ configs, config.deferred ∧ config.tag ∈ reserved ∧
    ∃ other ∈ configs, config.tag ∈ other.references

variable {configs order : List OutboundConfig} {outbounds built : Outbounds}

section LeafNodes

theorem leafNodes_deferred (outbounds : Outbounds) (configs : List OutboundConfig) :
    (leafNodes outbounds configs).2 = configs.filter deferred := by
  induction configs generalizing outbounds with
  | nil => rfl
  | cons config rest ih =>
      cases later : config.deferred with
      | true => simp [leafNodes, later, ih]
      | false => simp [leafNodes, later, ih]

theorem lookup_leafNodes_of_notMem {name : String}
    (other : ∀ config ∈ configs, config.deferred = false → config.tag ≠ name) :
    (leafNodes outbounds configs).1.lookup name = outbounds.lookup name := by
  induction configs generalizing outbounds with
  | nil => rfl
  | cons config rest ih =>
      rw [List.forall_mem_cons] at other
      cases later : config.deferred with
      | true =>
          simp only [leafNodes, later, if_true]
          exact ih other.2
      | false =>
          simp only [leafNodes, later, Bool.false_eq_true, if_false]
          rw [ih other.2, AList.lookup_insert_ne (other.1 later).symm]

theorem lookup_leafNodes_leaf (distinct : (configs.map tag).Nodup) {config : OutboundConfig}
    (member : config ∈ configs) (leaf : config.deferred = false) :
    (leafNodes outbounds configs).1.lookup config.tag = some (config.node []) := by
  induction configs generalizing outbounds with
  | nil => simp at member
  | cons first rest ih =>
      rw [List.map_cons, List.nodup_cons] at distinct
      rcases List.mem_cons.mp member with rfl | later
      · simp only [leafNodes, leaf, Bool.false_eq_true, if_false]
        rw [lookup_leafNodes_of_notMem, AList.lookup_insert]
        intro other otherMem _ sameTag
        exact distinct.1 (sameTag ▸ List.mem_map_of_mem otherMem)
      · rw [leafNodes]
        split
        · exact ih distinct.2 later
        · exact ih distinct.2 later

end LeafNodes

section Start

/-- What the second pass starts from. -/
def start (configs : List OutboundConfig) : Outbounds :=
  addImplicit (leafNodes ∅ configs).1

theorem new_eq (configs : List OutboundConfig) :
    OutboundManager.new ⟨configs⟩ = recipe.resolve (start configs) (configs.filter deferred) := by
  rw [OutboundManager.new, leafNodes_deferred, start]

theorem lookup_start_leaf (distinct : (configs.map tag).Nodup) {config : OutboundConfig}
    (member : config ∈ configs) (leaf : config.deferred = false) :
    (start configs).lookup config.tag = some (config.node []) := by
  rw [start, lookup_addImplicit, lookup_leafNodes_leaf distinct member leaf, Option.some_or]

theorem lookup_start_other {name : String}
    (other : ∀ config ∈ configs, config.deferred = false → config.tag ≠ name) :
    (start configs).lookup name = implicitNode name := by
  rw [start, lookup_addImplicit, lookup_leafNodes_of_notMem other, AList.lookup_empty,
    Option.none_or]

theorem mem_start (distinct : (configs.map tag).Nodup) {name : String} :
    name ∈ start configs ↔
      name ∈ reserved ∨ ∃ config ∈ configs, config.deferred = false ∧ config.tag = name := by
  rw [← AList.lookup_isSome]
  by_cases isLeaf : ∃ config ∈ configs, config.deferred = false ∧ config.tag = name
  · rcases isLeaf with ⟨config, member, leaf, rfl⟩
    rw [lookup_start_leaf distinct member leaf]
    exact iff_of_true rfl (.inr ⟨config, member, leaf, rfl⟩)
  · rw [lookup_start_other fun config member leaf same => isLeaf ⟨config, member, leaf, same⟩,
      implicitNode_isSome]
    exact ⟨.inl, fun holds => holds.resolve_right isLeaf⟩

theorem lookup_start_perm (distinct : (configs.map tag).Nodup) (same : order.Perm configs)
    (name : String) : (start order).lookup name = (start configs).lookup name := by
  have distinctOrder := (same.map tag).nodup_iff.mpr distinct
  by_cases isLeaf : ∃ config ∈ configs, config.deferred = false ∧ config.tag = name
  · rcases isLeaf with ⟨config, member, leaf, rfl⟩
    rw [lookup_start_leaf distinct member leaf,
      lookup_start_leaf distinctOrder (same.mem_iff.mpr member) leaf]
  · have other : ∀ config ∈ configs, config.deferred = false → config.tag ≠ name :=
      fun config member leaf sameTag => isLeaf ⟨config, member, leaf, sameTag⟩
    rw [lookup_start_other other,
      lookup_start_other fun config member => other config (same.mem_iff.mp member)]

/-- A tag which the second pass starts with is reserved or that of no deferred outbound. -/
theorem reserved_or_not_deferred (distinct : (configs.map tag).Nodup) {name : String}
    (there : name ∈ start configs) :
    name ∈ reserved ∨ name ∉ (configs.filter deferred).map tag := by
  apply ((mem_start distinct).mp there).imp_right
  rintro ⟨config, member, leaf, rfl⟩ isDeferred
  rcases List.mem_map.mp isDeferred with ⟨other, otherMem, sameTag⟩
  rw [List.mem_filter] at otherMem
  rw [List.inj_on_of_nodup_map distinct otherMem.1 member sameTag, leaf] at otherMem
  exact Bool.false_ne_true otherMem.2

end Start

section Succeeds

theorem refers_filter_deferred (cut : String → Prop) :
    recipe.Refers (configs.filter deferred) cut = recipe.Refers configs cut := by
  funext source target
  apply propext
  constructor
  · rintro ⟨config, member, named⟩
    exact ⟨config, List.mem_of_mem_filter member, named⟩
  · rintro ⟨config, member, named, reference, uncut⟩
    refine ⟨config, List.mem_filter.mpr ⟨member, ?_⟩, named, reference, uncut⟩
    cases isDeferred : config.deferred with
    | true => rfl
    | false =>
        change target ∈ config.references at reference
        rw [references_of_not_deferred isDeferred] at reference
        exact absurd reference List.not_mem_nil

theorem declared_iff (distinct : (configs.map tag).Nodup) :
    (∀ config ∈ configs.filter deferred, ∀ name ∈ config.references,
      name ∈ start configs ∨ name ∈ (configs.filter deferred).map tag) ↔ Declared configs := by
  have covers : ∀ name : String,
      (name ∈ start configs ∨ name ∈ (configs.filter deferred).map tag) ↔
        (name ∈ configs.map tag ∨ name ∈ reserved) := by
    intro name
    rw [mem_start distinct]
    constructor
    · rintro ((isReserved | ⟨config, member, _, rfl⟩) | isDeferred)
      · exact .inr isReserved
      · exact .inl (List.mem_map_of_mem member)
      · rcases List.mem_map.mp isDeferred with ⟨config, member, rfl⟩
        exact .inl (List.mem_map_of_mem (List.mem_of_mem_filter member))
    · rintro (declared | isReserved)
      · rcases List.mem_map.mp declared with ⟨config, member, rfl⟩
        cases isDeferred : config.deferred with
        | true => exact .inr (List.mem_map_of_mem (List.mem_filter.mpr ⟨member, isDeferred⟩))
        | false => exact .inl (.inr ⟨config, member, isDeferred, rfl⟩)
      · exact .inl (.inl isReserved)
  constructor
  · intro holds config member name reference
    cases isDeferred : config.deferred with
    | true =>
        rw [← covers]
        exact holds config (List.mem_filter.mpr ⟨member, isDeferred⟩) name reference
    | false =>
        rw [references_of_not_deferred isDeferred] at reference
        exact absurd reference List.not_mem_nil
  · intro declared config member name reference
    rw [covers]
    exact declared config (List.mem_of_mem_filter member) name reference

/-- Names of the reserved tags never hold the construction up. -/
theorem new_ok_iff (distinct : (configs.map tag).Nodup) :
    (∃ built, OutboundManager.new ⟨configs⟩ = .ok built) ↔
      Declared configs ∧ Acyclic configs (· ∈ reserved) := by
  have distinctDeferred : ((configs.filter deferred).map tag).Nodup :=
    distinct.sublist (List.filter_sublist.map tag)
  rw [new_eq, Recipe.resolve_ok_iff distinctDeferred
    (fun name isReserved => (mem_start distinct).mpr (.inl isReserved))
    (fun config member name reference there => reserved_or_not_deferred distinct there),
    refers_filter_deferred]
  exact and_congr_left fun _ => declared_iff distinct

theorem declared_perm (same : order.Perm configs) : Declared order ↔ Declared configs := by
  simp only [Declared, same.mem_iff, (same.map tag).mem_iff]

theorem acyclic_perm (same : order.Perm configs) (cut : String → Prop) :
    Acyclic order cut ↔ Acyclic configs cut := by
  have sameRefers : recipe.Refers order cut = recipe.Refers configs cut := by
    funext source target
    simp only [Recipe.Refers, same.mem_iff]
  rw [Acyclic, Acyclic, sameRefers]

end Succeeds

section Sound

theorem Acyclic.mono {others : List OutboundConfig} {cut cut' : String → Prop}
    (acyclic : Acyclic configs cut) (subset : ∀ config ∈ others, config ∈ configs)
    (cutsMore : ∀ name, cut name → cut' name) : Acyclic others cut' := by
  have uncut : recipe.Refers others cut' ≤ recipe.Refers configs cut := by
    rintro source target ⟨config, member, named, reference, notCut⟩
    exact ⟨config, subset config member, named, reference, mt (cutsMore target) notCut⟩
  intro name cycle
  exact acyclic name (Relation.TransGen.mono uncut name name cycle)

/-- If no named group has a reserved tag, no cycle passes through one. -/
theorem acyclic_reserved_iff (plain : ¬ReservedGroup configs) :
    Acyclic configs (· ∈ reserved) ↔ Acyclic configs fun _ => False := by
  have uncut : ∀ source target next, recipe.Refers configs (fun _ => False) source target →
      recipe.Refers configs (fun _ => False) target next →
      recipe.Refers configs (· ∈ reserved) source target := by
    rintro source target next ⟨config, member, named, reference, _⟩
      ⟨other, otherMem, rfl, otherReference, _⟩
    refine ⟨config, member, named, reference, ?_⟩
    intro isReserved
    cases isDeferred : other.deferred with
    | true => exact plain ⟨other, otherMem, isDeferred, isReserved, config, member, reference⟩
    | false =>
        change next ∈ other.references at otherReference
        rw [references_of_not_deferred isDeferred] at otherReference
        exact absurd otherReference List.not_mem_nil
  have uncutPath : ∀ source target,
      Relation.TransGen (recipe.Refers configs fun _ => False) source target →
      (∃ next, recipe.Refers configs (fun _ => False) target next) →
      Relation.TransGen (recipe.Refers configs (· ∈ reserved)) source target := by
    intro source target path
    induction path with
    | single step =>
        rintro ⟨next, leads⟩
        exact .single (uncut _ _ next step leads)
    | tail path step ih =>
        rintro ⟨next, leads⟩
        exact (ih ⟨_, step⟩).tail (uncut _ _ next step leads)
  constructor
  · intro acyclic name cycle
    rcases Relation.TransGen.head'_iff.mp cycle with ⟨next, leads, _⟩
    exact acyclic name (uncutPath name name cycle ⟨next, leads⟩)
  · intro acyclic
    exact acyclic.mono (fun _ member => member) (fun _ => False.elim)

/-- A successful construction builds the deferred outbounds in some order. -/
theorem new_builds (distinct : (configs.map tag).Nodup) (same : order.Perm configs)
    (succeeds : OutboundManager.new ⟨order⟩ = .ok built) :
    ∃ later : List OutboundConfig, later.Perm (configs.filter deferred) ∧
      (later.map tag).Nodup ∧ recipe.buildAll (start order) later = some built := by
  rw [new_eq] at succeeds
  rcases Recipe.resolve_ok succeeds with ⟨later, sameLater, builds⟩
  have sameDeferred := sameLater.trans (same.filter deferred)
  refine ⟨later, sameDeferred, ?_, builds⟩
  rw [(sameDeferred.map tag).nodup_iff]
  exact distinct.sublist (List.filter_sublist.map tag)

theorem unshadowed_of_plain (distinct : (configs.map tag).Nodup) (plain : ¬ReservedGroup configs)
    (same : order.Perm configs) {later : List OutboundConfig}
    (sameLater : later.Perm (configs.filter deferred)) :
    ∀ config ∈ later, ∀ name ∈ config.references, name ∈ start order →
      name ∉ later.map tag := by
  intro config member name reference there isDeferred
  have distinctOrder := (same.map tag).nodup_iff.mpr distinct
  rw [(sameLater.map tag).mem_iff] at isDeferred
  rcases reserved_or_not_deferred distinctOrder there with isReserved | notDeferred
  · rcases List.mem_map.mp isDeferred with ⟨group, groupMem, rfl⟩
    rw [List.mem_filter] at groupMem
    exact plain ⟨group, groupMem.1, groupMem.2, isReserved, config,
      List.mem_of_mem_filter (sameLater.mem_iff.mp member), reference⟩
  · rw [((same.filter deferred).map tag).mem_iff] at notDeferred
    exact notDeferred isDeferred

theorem constructsGraph_of_plain (distinct : (configs.map tag).Nodup)
    (plain : ¬ReservedGroup configs) : ConstructsGraph configs where
  succeeds_iff := by
    intro order same
    rw [new_ok_iff ((same.map tag).nodup_iff.mpr distinct), declared_perm same,
      acyclic_perm same, acyclic_reserved_iff plain]
  realized := by
    intro order same built succeeds config member
    rcases new_builds distinct same succeeds with ⟨later, sameLater, distinctLater, builds⟩
    cases isDeferred : config.deferred with
    | true =>
        apply Recipe.realized_of_buildAll distinctLater builds
          (unshadowed_of_plain distinct plain same sameLater)
        exact sameLater.mem_iff.mpr (List.mem_filter.mpr ⟨member, isDeferred⟩)
    | false =>
        have notLater : config.tag ∉ later.map tag := by
          rw [(sameLater.map tag).mem_iff]
          intro isLater
          rcases List.mem_map.mp isLater with ⟨other, otherMem, sameTag⟩
          rw [List.mem_filter] at otherMem
          rw [List.inj_on_of_nodup_map distinct otherMem.1 member sameTag, isDeferred] at otherMem
          exact Bool.false_ne_true otherMem.2
        refine ⟨[], ?_, ?_⟩
        · change config.references.map _ = _
          rw [references_of_not_deferred isDeferred]
          rfl
        · exact (Recipe.lookup_buildAll_of_notMem builds notLater).trans
            (lookup_start_leaf ((same.map tag).nodup_iff.mpr distinct)
              (same.mem_iff.mpr member) isDeferred)
  order_irrelevant := by
    intro first second sameFirst sameSecond built built' succeeds succeeds' name
    rcases new_builds distinct sameFirst succeeds with ⟨later, sameLater, distinctLater, builds⟩
    rcases new_builds distinct sameSecond succeeds' with ⟨later', sameLater', _, builds'⟩
    apply Recipe.lookup_buildAll_congr distinctLater (sameLater'.trans sameLater.symm) _
      (unshadowed_of_plain distinct plain sameFirst sameLater) builds builds'
    intro other
    rw [lookup_start_perm distinct sameFirst, lookup_start_perm distinct sameSecond]

end Sound

section Shadowed

theorem start_leaves {later : List OutboundConfig}
    (allDeferred : ∀ config ∈ later, config.deferred = true) :
    start (configs.filter (!·.deferred) ++ later) = start configs := by
  have noLeaf : later.filter (!·.deferred) = [] := by
    rw [List.filter_eq_nil_iff]
    intro config member
    simp [allDeferred config member]
  have skipped : ∀ (outbounds : Outbounds) (configs : List OutboundConfig),
      (leafNodes outbounds configs).1 = (leafNodes outbounds (configs.filter (!·.deferred))).1 := by
    intro outbounds configs
    induction configs generalizing outbounds with
    | nil => rfl
    | cons config rest ih =>
        cases later : config.deferred with
        | true => simpa [leafNodes, later] using ih outbounds
        | false => simpa [leafNodes, later] using ih (outbounds.insert config.tag (config.node []))
  rw [start, skipped, List.filter_append, noLeaf, List.append_nil, List.filter_filter]
  simp only [Bool.and_self]
  rw [← skipped, start]

theorem deferred_of_reference {config : OutboundConfig} {name : String}
    (reference : name ∈ config.references) : config.deferred = true := by
  by_contra leaf
  rw [references_of_not_deferred (by simpa using leaf)] at reference
  exact List.not_mem_nil reference

theorem node_ne_implicitNode {config : OutboundConfig} (isDeferred : config.deferred = true)
    (children : List OutboundNode) (name : String) :
    some (config.node children) ≠ implicitNode name := by
  rw [implicitNode]
  intro same
  cases config with
  | direct | block => simp [deferred] at isDeferred
  | mirage tag server underlying =>
      rw [node, buildMirage] at same
      split at same
      · simp at same
      · split at same <;> simp at same
  | selector | urltest | fallback | loadBalance =>
      rw [node] at same
      split at same
      · simp at same
      · split at same <;> simp at same

/-- A group with a reserved tag can be built after everything else. -/
theorem builds_group_last (distinct : (configs.map tag).Nodup) (declared : Declared configs)
    (acyclic : Acyclic configs (· ∈ reserved)) {group : OutboundConfig}
    (groupMem : group ∈ configs.filter deferred) (isReserved : group.tag ∈ reserved) :
    ∃ (before : List OutboundConfig) (built : Outbounds) (node : OutboundNode),
      (before ++ [group]).Perm (configs.filter deferred) ∧
        recipe.buildAll (start configs) before = some built ∧
        recipe.attempt built group = some node := by
  have split := List.perm_cons_erase groupMem
  generalize (configs.filter deferred).erase group = others at split
  have otherMem : ∀ config ∈ others, config ∈ configs.filter deferred := fun config member =>
    split.mem_iff.mpr (List.mem_cons_of_mem group member)
  have startReserved : ∀ name, name ∈ reserved → name ∈ start configs := fun name holds =>
    (mem_start distinct).mpr (.inl holds)
  have distinctOthers : (others.map recipe.key).Nodup := by
    have distinctDeferred := distinct.sublist ((List.filter_sublist (p := deferred)).map tag)
    rw [(split.map tag).nodup_iff, List.map_cons, List.nodup_cons] at distinctDeferred
    exact distinctDeferred.2
  have available : ∀ config ∈ configs.filter deferred, ∀ name ∈ config.references,
      name ∈ start configs ∨ name ∈ others.map recipe.key := by
    intro config member name reference
    rcases (declared_iff distinct).mpr declared config member name reference with there | isLater
    · exact .inl there
    · rw [(split.map tag).mem_iff, List.map_cons, List.mem_cons] at isLater
      rcases isLater with rfl | isOther
      · exact .inl (startReserved _ isReserved)
      · exact .inr isOther
  have plain : ∀ config ∈ others, ∀ name ∈ recipe.deps config, name ∈ start configs →
      name ∈ reserved ∨ name ∉ others.map recipe.key := by
    intro config member name reference there
    apply (reserved_or_not_deferred distinct there).imp_right
    intro notDeferred isOther
    rw [(split.map tag).mem_iff] at notDeferred
    exact notDeferred (List.mem_cons_of_mem _ isOther)
  have acyclicOthers : Acyclic others (· ∈ reserved) :=
    acyclic.mono (fun config member => List.mem_of_mem_filter (otherMem config member))
      (fun _ holds => holds)
  rcases (Recipe.resolve_ok_iff distinctOthers startReserved plain).mpr
    ⟨fun config member => available config (otherMem config member), acyclicOthers⟩ with
    ⟨built, resolves⟩
  rcases Recipe.resolve_ok resolves with ⟨before, same, builds⟩
  cases made : recipe.attempt built group with
  | some node =>
      refine ⟨before, built, node, ?_, builds, made⟩
      exact (List.perm_append_singleton group before).trans ((same.cons group).trans split.symm)
  | none =>
      rcases Recipe.attempt_eq_none.mp made with ⟨name, reference, missing⟩
      rw [Recipe.mem_buildAll builds, (same.map recipe.key).mem_iff] at missing
      exact absurd (available group groupMem name reference) missing

/-- In this order, what names the group gets the implicit outbound, and not the group. -/
theorem not_constructsGraph (distinct : (configs.map tag).Nodup)
    (reservedGroup : ReservedGroup configs) (declared : Declared configs)
    (acyclic : Acyclic configs (· ∈ reserved)) : ¬ConstructsGraph configs := by
  intro constructs
  have fullyAcyclic := ((constructs.succeeds_iff configs (.refl _)).mp
    ((new_ok_iff distinct).mpr ⟨declared, acyclic⟩)).2
  rcases reservedGroup with ⟨group, groupMem, groupDeferred, isReserved, other, otherMem, reference⟩
  have groupLater := List.mem_filter.mpr ⟨groupMem, groupDeferred⟩
  have notSelf : other.tag ≠ group.tag := by
    intro sameTag
    apply fullyAcyclic group.tag
    exact .single ⟨other, otherMem, sameTag, reference, not_false⟩
  rcases builds_group_last distinct declared acyclic groupLater isReserved with
    ⟨before, partly, groupNode, sameLater, buildsBefore, madeGroup⟩
  have laterDeferred : ∀ config ∈ before ++ [group], config.deferred = true := fun config member =>
    (List.mem_filter.mp (sameLater.mem_iff.mp member)).2
  have distinctLater : ((before ++ [group]).map tag).Nodup := by
    rw [(sameLater.map tag).nodup_iff]
    exact distinct.sublist (List.filter_sublist.map tag)
  rw [List.map_append, List.nodup_append] at distinctLater
  have groupNotBefore : group.tag ∉ before.map tag := fun member =>
    distinctLater.2.2 _ member _ List.mem_cons_self rfl
  have otherBefore : other ∈ before := by
    have isLater := sameLater.mem_iff.mpr
      (List.mem_filter.mpr ⟨otherMem, deferred_of_reference reference⟩)
    rw [List.mem_append, List.mem_singleton] at isLater
    exact isLater.resolve_right fun same => notSelf (congrArg tag same)
  have order : (configs.filter (!·.deferred) ++ (before ++ [group])).Perm configs :=
    (sameLater.append_left _).trans
      (List.perm_append_comm.trans (List.filter_append_perm deferred configs))
  have succeeds : OutboundManager.new ⟨configs.filter (!·.deferred) ++ (before ++ [group])⟩ =
      .ok (partly.insert group.tag groupNode) := by
    rw [new_eq, start_leaves laterDeferred, List.filter_append, List.filter_filter,
      List.filter_eq_self.mpr laterDeferred]
    simp only [Bool.and_not_self, List.filter_false, List.nil_append]
    apply Recipe.resolve_of_buildAll
    rw [Recipe.buildAll_append, buildsBefore, Option.bind_some, Recipe.buildAll, madeGroup]
    rfl
  rcases constructs.realized _ order _ succeeds other otherMem with ⟨values, found, made⟩
  rcases Recipe.buildAll_at distinctLater.1 buildsBefore otherBefore with
    ⟨there, values', found', made', kept, _⟩
  have sameMade : other.node values = other.node values' := by
    apply Option.some.inj
    change _ = some _ at made made'
    change AList.lookup other.tag _ = _ at made made'
    rw [AList.lookup_insert_ne notSelf] at made
    exact made.symm.trans made'
  have sameValues : values = values' := by
    apply node_injective _ _ sameMade
    · simpa [recipe] using (congrArg List.length found).symm
    · simpa [recipe] using (congrArg List.length found').symm
  subst sameValues
  rw [← found'] at found
  have groupFound := List.map_inj_left.mp found group.tag reference
  rw [AList.lookup_insert, kept group.tag groupNotBefore, lookup_start_other] at groupFound
  · rcases Recipe.attempt_eq_some.mp madeGroup with ⟨children, _, rfl⟩
    exact node_ne_implicitNode groupDeferred children group.tag groupFound
  · intro config member leaf sameTag
    rw [List.inj_on_of_nodup_map distinct member groupMem sameTag, groupDeferred] at leaf
    exact Bool.noConfusion leaf

/--
The construction does what it is for, unless a group or a chained server called
`direct` or `block` is named and the rest can be built without it.
-/
theorem constructsGraph_iff (distinct : (configs.map tag).Nodup) :
    ConstructsGraph configs ↔
      ¬ReservedGroup configs ∨ ¬(Declared configs ∧ Acyclic configs (· ∈ reserved)) := by
  constructor
  · intro constructs
    by_contra holds
    rw [not_or, not_not, not_not] at holds
    exact not_constructsGraph distinct holds.1 holds.2.1 holds.2.2 constructs
  · rintro (plain | fails)
    · exact constructsGraph_of_plain distinct plain
    · have neverBuilt : ∀ order : List OutboundConfig, order.Perm configs →
          ¬∃ built, OutboundManager.new ⟨order⟩ = .ok built := by
        intro order same succeeds
        rw [new_ok_iff ((same.map tag).nodup_iff.mpr distinct), declared_perm same,
          acyclic_perm same] at succeeds
        exact fails succeeds
      refine ⟨?_, ?_, ?_⟩
      · intro order same
        apply iff_of_false (neverBuilt order same)
        rintro ⟨declared, acyclic⟩
        exact fails ⟨declared, acyclic.mono (fun _ member => member) (fun _ => False.elim)⟩
      · intro order same built succeeds
        exact absurd ⟨built, succeeds⟩ (neverBuilt order same)
      · intro first second same _ built _ succeeds
        exact absurd ⟨built, succeeds⟩ (neverBuilt first same)

def exampleServer : MirageConfig where
  server := "198.51.100.7"
  serverPort := 443
  password := "secret"
  camouflageHost := "www.apple.com"
  poolSize := 16
  brutalRateMbps := none
  brutalBaseRttMs := none
  pfs := false

/-- A group may name `direct` if no group is called so. -/
def proxyGroup : List OutboundConfig :=
  [.selector "proxy" ["node", "direct"], .mirage "node" exampleServer none]

theorem constructsGraph_proxyGroup : ConstructsGraph proxyGroup := by
  apply (constructsGraph_iff (by decide)).mpr
  left
  rintro ⟨group, member, groupDeferred, isReserved, _⟩
  have named : ∀ config ∈ proxyGroup, config.tag ∉ reserved := by decide
  exact named group member isReserved

/-- The selector is called `direct`, and a group before it names it. -/
def directGroup : List OutboundConfig :=
  [.fallback "auto" ["direct"], .selector "direct" ["node"], .mirage "node" exampleServer none]

/-- What the construction makes of it: the fallback has the implicit outbound. -/
def directGroupBuilt : Outbounds :=
  ((start directGroup).insert "auto" (.fallback "auto" [.direct "direct"])).insert "direct"
    (.selector "direct" [buildMirage "node" exampleServer none])

theorem not_constructsGraph_directGroup :
    (directGroup.map tag).Nodup ∧ OutboundManager.new ⟨directGroup⟩ = .ok directGroupBuilt ∧
      ¬recipe.Realized directGroupBuilt (.fallback "auto" ["direct"]) ∧
      ¬ConstructsGraph directGroup := by
  have succeeds : OutboundManager.new ⟨directGroup⟩ = .ok directGroupBuilt := by
    rw [new_eq]
    apply Recipe.resolve_of_buildAll
    rfl
  have notRealized : ¬recipe.Realized directGroupBuilt (.fallback "auto" ["direct"]) := by
    rintro ⟨values, found, made⟩
    have child : values = [.selector "direct" [buildMirage "node" exampleServer none]] := by
      apply List.map_injective_iff.mpr (Option.some_injective OutboundNode)
      exact found.symm
    have group : some (OutboundNode.fallback "auto" [.direct "direct"]) =
        some (.fallback "auto" values) := made
    rw [child] at group
    simp at group
  refine ⟨by decide, succeeds, notRealized, ?_⟩
  intro constructs
  exact notRealized (constructs.realized directGroup (.refl _) _ succeeds _ List.mem_cons_self)

end Shadowed

end OutboundConfig

end Mirage.Proxy
