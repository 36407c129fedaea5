import Mirage.Foundations.Merging
import Mirage.Shell.ConfigBackup.Restore

/-!
# Merging a backup

An import which overwrites nothing appends the nodes and the rules which are not
there yet.  The index of the selected node is taken from the backup, where it is
one of another list: it is used as it is, and may fall on any node.
-/

namespace Mirage.Shell

open Mirage.Foundations Mirage.Routing

namespace ConfigBackup

/--
A loop over the entries of a backup, some of which offer something: what is not
known by its key yet is added.
-/
theorem foldl_importing {Entry Offered Known Store Key : Type} [DecidableEq Key]
    (step : Importing Known Store → Entry → Importing Known Store)
    (offer : Entry → Option Offered) (made : Offered → Known) (key : Known → Key)
    (add : Store → Offered → Store)
    (skips : ∀ state entry, offer entry = none → step state entry = state)
    (knows : ∀ state entry offered, offer entry = some offered →
      key (made offered) ∈ state.existing.map key → step state entry = state)
    (adds : ∀ state entry offered, offer entry = some offered →
      key (made offered) ∉ state.existing.map key → step state entry =
        ⟨state.existing ++ [made offered], add state.store offered, state.count + 1⟩)
    (entries : List Entry) (state : Importing Known Store) :
    let added := missing (key ∘ made) (state.existing.map key) (entries.filterMap offer)
    entries.foldl step state =
      ⟨state.existing ++ added.map made, added.foldl add state.store,
        state.count + added.length⟩ := by
  induction entries generalizing state with
  | nil => simp [missing]
  | cons entry entries ih =>
      rw [List.foldl_cons]
      cases offers : offer entry with
      | none =>
          rw [skips state entry offers, List.filterMap_cons_none offers]
          exact ih state
      | some offered =>
          rw [List.filterMap_cons_some offers]
          by_cases there : key (made offered) ∈ state.existing.map key
          · have same : (key ∘ made) offered ∈ state.existing.map key := there
            rw [knows state entry offered offers there, missing_cons_of_mem same]
            exact ih state
          · have new : (key ∘ made) offered ∉ state.existing.map key := there
            rw [adds state entry offered offers there, missing_cons_of_notMem new]
            have keys : (state.existing ++ [made offered]).map key =
                state.existing.map key ++ [(key ∘ made) offered] := List.map_append
            refine (ih _).trans ?_
            dsimp only
            rw [keys, List.append_assoc, List.singleton_append, Nat.add_assoc, Nat.add_comm 1]
            rfl

section Nodes

open NodeStore

/-- The node which an entry of a backup describes -/
def entryNode (o : NodeJson) : Node :=
  let uri := o.uri.getD ""
  ⟨uri, o.name.getD (defaultName uri)⟩

/-- The node which can be imported from an entry -/
def offeredNode (o : NodeJson) : Option Node :=
  if hasScheme (entryNode o) then some (entryNode o) else none

/-- The nodes of a backup which are not among the existing ones -/
def missingNodes (existing : List Node) (entries : List NodeJson) : List Node :=
  missing Node.uri (existing.map Node.uri) (entries.filterMap offeredNode)

theorem importNodes_merge (prefs : NodePrefs) (entries : List NodeJson) :
    let added := missingNodes (getNodes prefs) entries
    importNodes false prefs entries =
      ⟨getNodes prefs ++ added, added.foldl addNode prefs, added.length⟩ := by
  have step (state : Importing Node NodePrefs) (o : NodeJson) : importNode false state o =
      if hasScheme (entryNode o) then
        if state.existing.any fun known => known.uri == (entryNode o).uri then state
        else ⟨state.existing ++ [entryNode o], addNode state.store (entryNode o), state.count + 1⟩
      else state := rfl
  have known (state : Importing Node NodePrefs) (o : NodeJson) :
      (state.existing.any fun known => known.uri == (entryNode o).uri) = true ↔
        (entryNode o).uri ∈ state.existing.map Node.uri := by
    simp
  have folded := foldl_importing (importNode false) offeredNode id Node.uri addNode
    (fun state o offer => ?_) (fun state o node offer there => ?_)
    (fun state o node offer new => ?_) entries ⟨getNodes prefs, prefs, 0⟩
  · refine folded.trans ?_
    dsimp only
    rw [List.map_id, Nat.zero_add]
    rfl
  · have scheme : ¬hasScheme (entryNode o) = true := by
      intro scheme
      rw [offeredNode, if_pos scheme] at offer
      cases offer
    rw [step, if_neg scheme]
  all_goals
    have scheme : hasScheme (entryNode o) = true := by
      by_contra other
      rw [offeredNode, if_neg other] at offer
      cases offer
    rw [offeredNode, if_pos scheme, Option.some.injEq] at offer
    subst offer
  · rw [step, if_pos scheme, if_pos ((known state o).mpr there)]
  · rw [step, if_pos scheme, if_neg (mt (known state o).mp new)]
    rfl

theorem getNodes_foldl_addNode (added : List Node) (prefs : NodePrefs) :
    getNodes (added.foldl addNode prefs) = getNodes prefs ++ added ∧
      (added.foldl addNode prefs).selectedIndex = prefs.selectedIndex := by
  induction added generalizing prefs with
  | nil => exact ⟨(List.append_nil _).symm, rfl⟩
  | cons node added ih =>
      obtain ⟨nodes, selected⟩ := ih (addNode prefs node)
      refine ⟨?_, selected⟩
      rw [List.foldl_cons, nodes, getNodes_addNode, List.append_assoc, List.singleton_append]

end Nodes

section Rules

variable {lowercase : String → String}

/-- What rules are compared by -/
def ruleKey (rule : Rule) : String × String := (rule.pattern, rule.kind)

/-- The rule which can be imported from an entry, and its place in the backup -/
def offeredRule (draws : Draws) (entry : RuleJson × ℕ) : Option (Rule × ℕ) :=
  (restoredRule draws entry).map fun rule => (rule, entry.2)

/-- The rules of a backup which are not among the existing ones -/
def missingRules (draws : Draws) (existing : List Rule) (entries : List RuleJson) :
    List (Rule × ℕ) :=
  missing (ruleKey ∘ Prod.fst) (existing.map ruleKey) (entries.zipIdx.filterMap (offeredRule draws))

theorem offeredRule_eq (draws : Draws) (entry : RuleJson × ℕ) :
    offeredRule draws entry =
      if isBlank (importedRule (draws.imported entry.2) entry.1).pattern then none
      else some (importedRule (draws.imported entry.2) entry.1, entry.2) := by
  unfold offeredRule restoredRule
  dsimp only
  split <;> rfl

variable (lowercase) in
def appendRule (draws : Draws) (store : RulePrefs) (entry : Rule × ℕ) : RulePrefs :=
  RuleStore.addRule lowercase (draws.reread entry.2) store entry.1

theorem importRules_merge (draws : Draws) (prefs : RulePrefs) (entries : List RuleJson) :
    let existing := RuleStore.getRules draws.existing prefs
    let added := missingRules draws existing entries
    importRules lowercase draws false prefs entries =
      ⟨existing ++ added.map Prod.fst, added.foldl (appendRule lowercase draws) prefs,
        added.length⟩ := by
  have step (state : Importing Rule RulePrefs) (entry : RuleJson × ℕ) :
      importRule lowercase draws false state entry =
        let rule := importedRule (draws.imported entry.2) entry.1
        if isBlank rule.pattern then state
        else if state.existing.any fun known =>
          known.pattern == rule.pattern && known.kind == rule.kind then state
        else ⟨state.existing ++ [rule], appendRule lowercase draws state.store (rule, entry.2),
          state.count + 1⟩ := rfl
  have known (state : Importing Rule RulePrefs) (rule : Rule) :
      (state.existing.any fun known =>
          known.pattern == rule.pattern && known.kind == rule.kind) = true ↔
        ruleKey rule ∈ state.existing.map ruleKey := by
    simp [ruleKey]
  have folded := foldl_importing (importRule lowercase draws false) (offeredRule draws) Prod.fst
    ruleKey (appendRule lowercase draws)
    (fun state entry offer => ?_) (fun state entry offered offer there => ?_)
    (fun state entry offered offer new => ?_) entries.zipIdx
    ⟨RuleStore.getRules draws.existing prefs, prefs, 0⟩
  · refine folded.trans ?_
    dsimp only
    rw [Nat.zero_add]
    rfl
  · have blank : isBlank (importedRule (draws.imported entry.2) entry.1).pattern = true := by
      by_contra other
      rw [offeredRule_eq, if_neg other] at offer
      cases offer
    rw [step]
    exact if_pos blank
  all_goals
    have given : ¬isBlank (importedRule (draws.imported entry.2) entry.1).pattern = true := by
      intro blank
      rw [offeredRule_eq, if_pos blank] at offer
      cases offer
    rw [offeredRule_eq, if_neg given, Option.some.injEq] at offer
    subst offer
    rw [step]
  · exact (if_neg given).trans (if_pos ((known state _).mpr there))
  · exact (if_neg given).trans (if_neg (mt (known state _).mp new))

/-- What is stored of the rules is their normal form, whatever is drawn for those without a name. -/
theorem getRules_foldl_appendRule (draws : Draws) (added : List (Rule × ℕ)) (prefs : RulePrefs)
    (later : ℕ → Uuid) : ∃ draw,
      (RuleStore.getRules later (added.foldl (appendRule lowercase draws) prefs)).map
          (Rule.normalized lowercase) =
        (RuleStore.getRules draw prefs ++ added.map Prod.fst).map (Rule.normalized lowercase) ∧
      (added.foldl (appendRule lowercase draws) prefs).defaultAction = prefs.defaultAction := by
  induction added generalizing prefs with
  | nil => exact ⟨later, by rw [List.map_nil, List.append_nil]; rfl, rfl⟩
  | cons entry added ih =>
      obtain ⟨draw, rules, action⟩ := ih (appendRule lowercase draws prefs entry)
      have normalized : Rule.normalized lowercase ∘ Rule.normalized lowercase =
          Rule.normalized lowercase := funext Rule.normalized_normalized
      refine ⟨draws.reread entry.2, ?_, action⟩
      rw [List.foldl_cons, rules, appendRule, List.map_append, RuleStore.getRules_addRule,
        List.map_map, normalized, ← List.map_append, List.append_assoc, List.singleton_append,
        List.map_cons]

theorem ruleKeys_getRules (draw later : ℕ → Uuid) (prefs : RulePrefs) :
    (RuleStore.getRules draw prefs).map ruleKey =
      (RuleStore.getRules later prefs).map ruleKey := by
  unfold RuleStore.getRules
  cases prefs.rulesJson with
  | none => rw [Option.elim_none, Option.elim_none]
  | some items =>
      simp only [Option.elim_some, List.map_map, Function.comp_def, ruleKey, Rule.read]

theorem filterMap_offeredRule (draws : Draws) (entries : List (RuleJson × ℕ)) :
    (entries.filterMap (offeredRule draws)).map Prod.fst =
      entries.filterMap (restoredRule draws) := by
  rw [List.map_filterMap]
  refine List.filterMap_congr fun entry _ => ?_
  rw [offeredRule, Option.map_map]
  exact Option.map_id'

theorem completes_missingRules (draws : Draws) (existing : List Rule) (entries : List RuleJson) :
    Completes ruleKey existing ((missingRules draws existing entries).map Prod.fst)
      (entries.zipIdx.filterMap (restoredRule draws)) where
  taken := by
    rw [← filterMap_offeredRule]
    exact (missing_sublist _ _).map Prod.fst
  new rule there := by
    obtain ⟨entry, added, rfl⟩ := List.mem_map.mp there
    have new : (ruleKey ∘ Prod.fst) entry ∉ existing.map ruleKey :=
      notMem_known_of_mem_missing added
    exact new
  once := by
    rw [List.map_map]
    exact nodup_missing _ _
  complete rule there := by
    rw [← filterMap_offeredRule] at there
    obtain ⟨entry, offered, rfl⟩ := List.mem_map.mp there
    have known : (ruleKey ∘ Prod.fst) entry ∈ existing.map ruleKey ++
        (missingRules draws existing entries).map (ruleKey ∘ Prod.fst) :=
      mem_append_missing offered
    rw [List.map_append, List.map_map]
    exact known

/-- The comparison does not depend on what is drawn for the existing rules. -/
theorem completes_of_keys {existing other added offered : List Rule}
    (completes : Completes ruleKey existing added offered)
    (same : other.map ruleKey = existing.map ruleKey) : Completes ruleKey other added offered where
  taken := completes.taken
  new rule there := by
    rw [same]
    exact completes.new rule there
  once := completes.once
  complete rule there := by
    rw [List.map_append, same, ← List.map_append]
    exact completes.complete rule there

end Rules

section Again

/-! ### A second import -/

theorem dropWhile_of_prefix {α : Type} {text whole : List α} {test : α → Bool}
    (start : text <+: whole.dropWhile test) : text.dropWhile test = text := by
  rw [List.dropWhile_eq_self_iff]
  intro some
  have trimmed := List.dropWhile_eq_self_iff.mp (List.dropWhile_idempotent test whole)
  rw [start.getElem some]
  exact trimmed _

theorem jvmTrim_jvmTrim (text : String) : jvmTrim (jvmTrim text) = jvmTrim text := by
  unfold jvmTrim
  rw [String.toList_ofList, dropWhile_of_prefix (List.rdropWhile_prefix _ _),
    List.rdropWhile_idempotent]

/-- An address as `setDns` stores it -/
def cleanDns (default text : String) : String :=
  if jvmTrim text = "" then default else jvmTrim text

theorem cleanDns_cleanDns {default : String} (trimmed : jvmTrim default = default) (text : String) :
    cleanDns default (cleanDns default text) = cleanDns default text := by
  unfold cleanDns
  by_cases empty : jvmTrim text = ""
  · rw [if_pos empty, trimmed, ite_self]
  · rw [if_neg empty, jvmTrim_jvmTrim, if_neg empty]

/-- What is kept where nothing is given is clean already. -/
theorem cleanDns_again {default : String} (trimmed : jvmTrim default = default) (absent : Bool)
    (stored given : String) :
    cleanDns default (if absent then cleanDns default (if absent then stored else given)
        else given) =
      cleanDns default (if absent then stored else given) := by
  cases absent with
  | true =>
      simp only [if_true]
      exact cleanDns_cleanDns trimmed stored
  | false => rfl

theorem setDns_fields (prefs : Preferences) (direct remote : String) :
    (prefs.setDns direct remote).directDns =
        some (cleanDns Preferences.defaultDirectDns direct) ∧
      (prefs.setDns direct remote).remoteDns =
        some (cleanDns Preferences.defaultRemoteDns remote) :=
  ⟨rfl, rfl⟩

theorem setDns_eq {prefs : Preferences} {direct remote : String}
    (directDns : prefs.directDns = some (cleanDns Preferences.defaultDirectDns direct))
    (remoteDns : prefs.remoteDns = some (cleanDns Preferences.defaultRemoteDns remote)) :
    prefs.setDns direct remote = prefs := by
  have same : prefs.setDns direct remote =
      { prefs with
        directDns := some (cleanDns Preferences.defaultDirectDns direct)
        remoteDns := some (cleanDns Preferences.defaultRemoteDns remote) } := rfl
  rw [same, ← directDns, ← remoteDns]

theorem importDns_again {before after : Preferences} {direct remote : Option String}
    (directDns : after.directDns = (importDns before direct remote).directDns)
    (remoteDns : after.remoteDns = (importDns before direct remote).remoteDns) :
    importDns after direct remote = after := by
  unfold importDns at directDns remoteDns ⊢
  dsimp only at directDns remoteDns ⊢
  by_cases blank : (isBlank (direct.getD "") && isBlank (remote.getD "")) = true
  · rw [if_pos blank]
  · rw [if_neg blank] at directDns remoteDns ⊢
    rw [(setDns_fields _ _ _).1] at directDns
    rw [(setDns_fields _ _ _).2] at remoteDns
    apply setDns_eq
    · rw [Preferences.getDirectDns, directDns, Option.getD_some, cleanDns_again (by decide +kernel)]
    · rw [Preferences.getRemoteDns, remoteDns, Option.getD_some, cleanDns_again (by decide +kernel)]

theorem importGeoUrl_again {set : Preferences → String → Preferences}
    (stored : Preferences → Option String)
    (stable : ∀ before after url, stored after = stored (set before url) → set after url = after)
    {before after : Preferences} {url : Option String}
    (same : stored after = stored (importGeoUrl set before url)) :
    importGeoUrl set after url = after := by
  unfold importGeoUrl at same ⊢
  cases url with
  | none => rfl
  | some url =>
      dsimp only at same ⊢
      split
      · rename_i accepted
        rw [if_pos accepted] at same
        exact stable before after url same
      · rfl

theorem setGeositeUrl_again (before after : Preferences) (url : String)
    (same : after.geositeUrl = (before.setGeositeUrl url).geositeUrl) :
    after.setGeositeUrl url = after := by
  unfold Preferences.setGeositeUrl at same ⊢
  split
  · rename_i secure
    rw [if_pos secure] at same
    dsimp only at same
    rw [← same]
  · rfl

theorem setGeoipUrl_again (before after : Preferences) (url : String)
    (same : after.geoipUrl = (before.setGeoipUrl url).geoipUrl) :
    after.setGeoipUrl url = after := by
  unfold Preferences.setGeoipUrl at same ⊢
  split
  · rename_i secure
    rw [if_pos secure] at same
    dsimp only at same
    rw [← same]
  · rfl

theorem importSelected_again {before after : NodeStore.NodePrefs} {index : Option ℤ}
    (nodes : NodeStore.getNodes after = NodeStore.getNodes before)
    (selected : after.selectedIndex = (importSelected before index).selectedIndex) :
    importSelected after index = after := by
  unfold importSelected at selected ⊢
  cases index with
  | none => rfl
  | some idx =>
      dsimp only at selected ⊢
      rw [nodes]
      split
      · rename_i within
        rw [if_pos within] at selected
        rw [NodeStore.setSelected]
        have stored : after.selectedIndex = some idx := selected
        rw [← stored]
      · rfl

theorem importDefaultAction_again (prefs : RulePrefs) (action : Option String) :
    importDefaultAction (importDefaultAction prefs action) action =
      importDefaultAction prefs action := by
  unfold importDefaultAction
  dsimp only
  split <;> rfl

theorem importSettings_again (prefs : Preferences) (root : BackupJson) :
    importSettings (importSettings prefs root) root = importSettings prefs root := by
  have again {α : Type} (given stored : Option α) :
      given.or (given.or stored) = given.or stored := by
    cases given <;> rfl
  simp only [importSettings, again]

theorem importGeoUrl_keeps {Value : Type} (field : Preferences → Value)
    {set : Preferences → String → Preferences}
    (keeps : ∀ prefs url, field (set prefs url) = field prefs) (prefs : Preferences)
    (url : Option String) : field (importGeoUrl set prefs url) = field prefs := by
  unfold importGeoUrl
  split
  · split
    · exact keeps _ _
    · rfl
  · rfl

theorem setGeositeUrl_dns (prefs : Preferences) (url : String) :
    ((prefs.setGeositeUrl url).directDns, (prefs.setGeositeUrl url).remoteDns) =
      (prefs.directDns, prefs.remoteDns) := by
  unfold Preferences.setGeositeUrl
  split <;> rfl

theorem setGeoipUrl_others (prefs : Preferences) (url : String) :
    ((prefs.setGeoipUrl url).directDns, (prefs.setGeoipUrl url).remoteDns,
        (prefs.setGeoipUrl url).geositeUrl) =
      (prefs.directDns, prefs.remoteDns, prefs.geositeUrl) := by
  unfold Preferences.setGeoipUrl
  split <;> rfl

section Merged

variable (lowercase : String → String) (draws : Draws) (prefs : Preferences) (root : BackupJson)

/-- The stored configuration after a backup has been merged with it -/
def merged : Preferences := (importJson lowercase draws false prefs root).1

variable {lowercase}

theorem getNodes_merged : NodeStore.getNodes (merged lowercase draws prefs root).nodes =
    NodeStore.getNodes prefs.nodes ++
      missingNodes (NodeStore.getNodes prefs.nodes) (root.nodes.getD []) := by
  have lists := (importJson_lists lowercase draws false prefs root).1
  have nodes := importNodes_merge prefs.nodes (root.nodes.getD [])
  dsimp only at lists nodes
  rw [merged, lists, getNodes_importSelected, nodes, (getNodes_foldl_addNode _ _).1]

theorem getRules_importDefaultAction (draw : ℕ → Uuid) (store : RulePrefs)
    (action : Option String) :
    RuleStore.getRules draw (importDefaultAction store action) = RuleStore.getRules draw store := by
  unfold importDefaultAction
  dsimp only
  split <;> rfl

/-- The rules which a merge adds -/
def addedRules : List (Rule × ℕ) :=
  missingRules draws (RuleStore.getRules draws.existing prefs.rules) (root.rules.getD [])

theorem rules_merged : (merged lowercase draws prefs root).rules =
    importDefaultAction
      ((addedRules draws prefs root).foldl (appendRule lowercase draws) prefs.rules)
      root.defaultAction := by
  have lists := (importJson_lists lowercase draws false prefs root).2.2
  have rules := @importRules_merge lowercase draws prefs.rules (root.rules.getD [])
  dsimp only at lists rules
  rw [merged, lists, rules]
  rfl

theorem getRules_merged (later : ℕ → Uuid) : ∃ draw,
    (RuleStore.getRules later (merged lowercase draws prefs root).rules).map
        (Rule.normalized lowercase) =
      (RuleStore.getRules draw prefs.rules ++ (addedRules draws prefs root).map Prod.fst).map
        (Rule.normalized lowercase) := by
  rw [rules_merged, getRules_importDefaultAction]
  obtain ⟨draw, rules, -⟩ := getRules_foldl_appendRule draws (addedRules draws prefs root)
    prefs.rules later
  exact ⟨draw, rules⟩

theorem ruleKeys_merged (later draw : ℕ → Uuid) :
    (RuleStore.getRules later (merged lowercase draws prefs root).rules).map ruleKey =
      (RuleStore.getRules draw prefs.rules ++ (addedRules draws prefs root).map Prod.fst).map
        ruleKey := by
  obtain ⟨drawn, rules⟩ := @getRules_merged lowercase draws prefs root later
  have keys := congrArg (List.map ruleKey) rules
  rw [List.map_map, List.map_map] at keys
  have same : ruleKey ∘ Rule.normalized lowercase = ruleKey := rfl
  rw [same, List.map_append, ruleKeys_getRules drawn draw, ← List.map_append] at keys
  exact keys

/-- Nothing is missing any more. -/
theorem missing_merged (later : Draws) :
    missingNodes (NodeStore.getNodes (merged lowercase draws prefs root).nodes)
        (root.nodes.getD []) = [] ∧
      addedRules later (merged lowercase draws prefs root) root = [] := by
  constructor
  · rw [getNodes_merged, missingNodes]
    apply missing_eq_nil
    exact (completes_missing _ _).complete
  · rw [addedRules, missingRules]
    apply missing_eq_nil
    intro entry there
    rw [ruleKeys_merged draws prefs root later.existing draws.existing]
    obtain ⟨source, in_backup, offer⟩ := List.mem_filterMap.mp there
    rw [offeredRule_eq] at offer
    split at offer
    · cases offer
    -- the same rule was offered before, under another identifier
    · rename_i given
      have before : restoredRule draws source =
          some (importedRule (draws.imported source.2) source.1) := if_neg given
      have known := (completes_missingRules draws
        (RuleStore.getRules draws.existing prefs.rules) (root.rules.getD [])).complete _
        (List.mem_filterMap.mpr ⟨source, in_backup, before⟩)
      rw [← Option.some.inj offer]
      exact known

/-- Merging the same backup again changes nothing. -/
theorem merged_merged (later : Draws) :
    merged lowercase later (merged lowercase draws prefs root) root =
      merged lowercase draws prefs root := by
  let lists : Preferences :=
    { prefs with
      nodes := importSelected (importNodes false prefs.nodes (root.nodes.getD [])).store
        root.selectedIndex
      rules := importDefaultAction
        (importRules lowercase draws false prefs.rules (root.rules.getD [])).store
        root.defaultAction }
  let network := importDns lists root.directDns root.remoteDns
  let site := importGeoUrl .setGeositeUrl network root.geositeUrl
  let geo := importGeoUrl .setGeoipUrl site root.geoipUrl
  have settled : merged lowercase draws prefs root = importSettings geo root := rfl
  have missingNone := @missing_merged lowercase draws prefs root later
  have nodes : (importNodes false (merged lowercase draws prefs root).nodes
      (root.nodes.getD [])).store = (merged lowercase draws prefs root).nodes := by
    rw [importNodes_merge]
    dsimp only
    rw [missingNone.1]
    rfl
  have rules : (importRules lowercase later false (merged lowercase draws prefs root).rules
      (root.rules.getD [])).store = (merged lowercase draws prefs root).rules := by
    rw [importRules_merge]
    dsimp only
    have none_added : missingRules later _ _ = [] := missingNone.2
    rw [none_added]
    rfl
  have imported := importJson_lists lowercase draws false prefs root
  have selected : importSelected (merged lowercase draws prefs root).nodes root.selectedIndex =
      (merged lowercase draws prefs root).nodes :=
    importSelected_again (imported.1.trans (getNodes_importSelected _ _)) imported.2.1
  have action : importDefaultAction (merged lowercase draws prefs root).rules root.defaultAction =
      (merged lowercase draws prefs root).rules := by
    rw [rules_merged, importDefaultAction_again]
  have others := importGeoUrl_keeps
    (fun prefs => (prefs.directDns, prefs.remoteDns, prefs.geositeUrl)) setGeoipUrl_others site
    root.geoipUrl
  have dns := importGeoUrl_keeps (fun prefs => (prefs.directDns, prefs.remoteDns))
    setGeositeUrl_dns network root.geositeUrl
  simp only [Prod.mk.injEq] at others dns
  have again : merged lowercase later (merged lowercase draws prefs root) root =
      importSettings (importGeoUrl .setGeoipUrl (importGeoUrl .setGeositeUrl
        (importDns (merged lowercase draws prefs root) root.directDns root.remoteDns)
        root.geositeUrl) root.geoipUrl) root := by
    conv_lhs => rw [merged, importJson]
    dsimp only
    rw [nodes, rules, selected, action]
  have directDns : (merged lowercase draws prefs root).directDns = network.directDns :=
    others.1.trans dns.1
  have remoteDns : (merged lowercase draws prefs root).remoteDns = network.remoteDns :=
    others.2.1.trans dns.2
  have geositeUrl : (merged lowercase draws prefs root).geositeUrl = site.geositeUrl := others.2.2
  have geoipUrl : (merged lowercase draws prefs root).geoipUrl = geo.geoipUrl := rfl
  rw [again, importDns_again directDns remoteDns,
    importGeoUrl_again Preferences.geositeUrl setGeositeUrl_again geositeUrl,
    importGeoUrl_again Preferences.geoipUrl setGeoipUrl_again geoipUrl, settled,
    importSettings_again]

end Merged

end Again

section Selected

open NodeStore

/-- The node which is selected, by its URI -/
def selectedUri (prefs : Preferences) : Option String :=
  (getSelectedNode prefs.nodes).map Node.uri

/-- The node which the backup says was selected, by its URI -/
def backupSelected (root : BackupJson) : Option String :=
  root.selectedIndex.bind fun idx =>
    (atIndex ((root.nodes.getD []).map entryNode) idx).map Node.uri

/--
The index of the backup, where it is that of an existing node, is that of the node
which is selected or has the URI of the backup's; where it is that of an added
node, this is the backup's; and where it is past the end, the stored index was not
waiting for a node to be added at its place, unless for the backup's.
-/
structure SameChoice (prefs : Preferences) (root : BackupJson) : Prop where
  existing : ∀ idx ∈ root.selectedIndex, ∀ node ∈ atIndex (getNodes prefs.nodes) idx,
    some node.uri = selectedUri prefs ∨ some node.uri = backupSelected root
  added : ∀ idx ∈ root.selectedIndex,
    ∀ node ∈ atIndex (missingNodes (getNodes prefs.nodes) (root.nodes.getD []))
      (idx - (getNodes prefs.nodes).length), some node.uri = backupSelected root
  stored : (∀ idx ∈ root.selectedIndex, ¬InIndices
      (getNodes prefs.nodes ++ missingNodes (getNodes prefs.nodes) (root.nodes.getD [])) idx) →
    ∀ node ∈ atIndex (missingNodes (getNodes prefs.nodes) (root.nodes.getD []))
      (getSelected prefs.nodes - (getNodes prefs.nodes).length), some node.uri = backupSelected root

theorem atIndex_append (first second : List Node) (index : ℤ) :
    atIndex (first ++ second) index =
      if index < first.length then atIndex first index
      else atIndex second (index - first.length) := by
  unfold atIndex
  by_cases low : 0 ≤ index
  · obtain ⟨place, rfl⟩ := Int.eq_ofNat_of_zero_le low
    rw [if_pos low, if_pos low, Int.toNat_natCast]
    split
    · rename_i inside
      exact List.getElem?_append_left (by omega)
    · rename_i past
      rw [if_pos (by omega), List.getElem?_append_right (by omega)]
      congr 1
      omega
  · rw [if_neg low, if_pos (by omega), if_neg low]

theorem atIndex_of_lt {nodes : List Node} {index : ℤ} (low : index < 0) :
    atIndex nodes index = none :=
  if_neg (by omega)

theorem atIndex_of_not_inIndices {nodes : List Node} {index : ℤ}
    (outside : ¬InIndices nodes index) : atIndex nodes index = none := by
  unfold atIndex
  split
  · exact List.getElem?_eq_none (by unfold InIndices at outside; omega)
  · rfl

theorem inIndices_of_atIndex {nodes : List Node} {index : ℤ} {node : Node}
    (found : atIndex nodes index = some node) : InIndices nodes index := by
  by_contra outside
  rw [atIndex_of_not_inIndices outside] at found
  cases found

theorem mem_of_atIndex {nodes : List Node} {index : ℤ} {node : Node}
    (found : atIndex nodes index = some node) : node ∈ nodes := by
  rw [atIndex, if_pos (inIndices_of_atIndex found).1] at found
  exact List.mem_of_getElem? found

variable {lowercase : String → String} (draws : Draws) (prefs : Preferences) (root : BackupJson)

theorem selectedIndex_merged : (merged lowercase draws prefs root).nodes.selectedIndex =
    (importSelected (importNodes false prefs.nodes (root.nodes.getD [])).store
      root.selectedIndex).selectedIndex :=
  (importJson_lists lowercase draws false prefs root).2.1

theorem getNodes_importNodes_merge (entries : List NodeJson) :
    let store := (importNodes false prefs.nodes entries).store
    getNodes store = getNodes prefs.nodes ++ missingNodes (getNodes prefs.nodes) entries ∧
      getSelected store = getSelected prefs.nodes := by
  intro store
  have folded := getNodes_foldl_addNode (missingNodes (getNodes prefs.nodes) entries) prefs.nodes
  have same : store = (missingNodes (getNodes prefs.nodes) entries).foldl addNode prefs.nodes :=
    congrArg Importing.store (importNodes_merge prefs.nodes entries)
  rw [same]
  exact ⟨folded.1, congrArg (fun index => index.getD (-1)) folded.2⟩

/-- The index of the backup is used where it is one of the merged list. -/
theorem getSelected_merged_of_inIndices {idx : ℤ} (given : root.selectedIndex = some idx)
    (inside : InIndices
      (getNodes prefs.nodes ++ missingNodes (getNodes prefs.nodes) (root.nodes.getD [])) idx) :
    getSelected (merged lowercase draws prefs root).nodes = idx := by
  have imported := getNodes_importNodes_merge prefs (root.nodes.getD [])
  dsimp only at imported
  rw [getSelected, selectedIndex_merged, given]
  refine (getSelected_importSelected _ idx).trans (if_pos ?_)
  rw [imported.1]
  exact inside

theorem getSelected_merged_of_not_inIndices (outside : ∀ idx ∈ root.selectedIndex, ¬InIndices
      (getNodes prefs.nodes ++ missingNodes (getNodes prefs.nodes) (root.nodes.getD [])) idx) :
    getSelected (merged lowercase draws prefs root).nodes = getSelected prefs.nodes := by
  have imported := getNodes_importNodes_merge prefs (root.nodes.getD [])
  dsimp only at imported
  rw [getSelected, selectedIndex_merged]
  cases given : root.selectedIndex with
  | none => exact imported.2
  | some idx =>
      refine ((getSelected_importSelected _ idx).trans (if_neg ?_)).trans imported.2
      rw [imported.1]
      exact outside idx given

/-- The node which is selected after the merge is the one of before, or the backup's. -/
def SelectedKept (before after : Preferences) (root : BackupJson) : Prop :=
  selectedUri after = selectedUri before ∨
    (backupSelected root).isSome ∧ selectedUri after = backupSelected root

theorem selectedKept_iff_of_some {before after : Preferences} {node : Node}
    (selected : selectedUri after = some node.uri) :
    SelectedKept before after root ↔
      some node.uri = selectedUri before ∨ some node.uri = backupSelected root := by
  rw [SelectedKept, selected]
  refine or_congr_right ⟨And.right, fun same => ⟨?_, same⟩⟩
  rw [← same]
  rfl

/-- The URI of an added node is not that of the node which was selected. -/
theorem missing_ne_selectedUri {node : Node}
    (there : node ∈ missingNodes (getNodes prefs.nodes) (root.nodes.getD [])) :
    some node.uri ≠ selectedUri prefs := by
  intro same
  obtain ⟨selected, found, uri⟩ := Option.map_eq_some_iff.mp same.symm
  exact notMem_known_of_mem_missing there (List.mem_map.mpr ⟨selected, mem_of_atIndex found, uri⟩)

theorem selectedUri_merged : selectedUri (merged lowercase draws prefs root) =
    (atIndex (getNodes prefs.nodes ++ missingNodes (getNodes prefs.nodes) (root.nodes.getD []))
      (getSelected (merged lowercase draws prefs root).nodes)).map Node.uri := by
  rw [selectedUri, getSelectedNode, getNodes_merged]

/-- An index of a merged list is that of an existing node, of an added one or of neither. -/
theorem inIndices_append_cases {first second : List Node} {index : ℤ} :
    (∃ node, atIndex first index = some node ∧ atIndex (first ++ second) index = some node ∧
        atIndex second (index - first.length) = none) ∨
      (∃ node, atIndex second (index - first.length) = some node ∧
        atIndex (first ++ second) index = some node ∧ atIndex first index = none) ∨
      atIndex (first ++ second) index = none ∧ atIndex first index = none ∧
        atIndex second (index - first.length) = none := by
  rw [atIndex_append]
  by_cases before : index < first.length
  · have other : atIndex second (index - first.length) = none := atIndex_of_lt (by omega)
    rw [if_pos before, other]
    cases found : atIndex first index with
    | none => exact .inr (.inr ⟨rfl, rfl, rfl⟩)
    | some node => exact .inl ⟨node, rfl, rfl, rfl⟩
  · have other : atIndex first index = none :=
      atIndex_of_not_inIndices fun inside => before inside.2
    rw [if_neg before, other]
    cases found : atIndex second (index - first.length) with
    | none => exact .inr (.inr ⟨rfl, rfl, rfl⟩)
    | some node => exact .inr (.inl ⟨node, rfl, rfl, rfl⟩)

theorem selectedKept_of_inIndices {idx : ℤ} (given : root.selectedIndex = some idx)
    (inside : InIndices
      (getNodes prefs.nodes ++ missingNodes (getNodes prefs.nodes) (root.nodes.getD [])) idx) :
    SelectedKept prefs (merged lowercase draws prefs root) root ↔ SameChoice prefs root := by
  have uri := @selectedUri_merged lowercase draws prefs root
  rw [getSelected_merged_of_inIndices draws prefs root given inside] at uri
  have stored : ¬∀ idx ∈ root.selectedIndex, ¬InIndices
      (getNodes prefs.nodes ++ missingNodes (getNodes prefs.nodes) (root.nodes.getD [])) idx :=
    fun outside => outside idx given inside
  have only {other : ℤ} (there : other ∈ root.selectedIndex) : other = idx :=
    Option.some.inj (there.symm.trans given)
  rcases inIndices_append_cases with ⟨node, here, found, past⟩ | ⟨node, here, found, past⟩ |
    ⟨nowhere, -, -⟩
  · rw [found] at uri
    rw [selectedKept_iff_of_some root uri]
    constructor
    · refine fun same => ⟨fun other there => ?_, fun other there => ?_, fun none => ?_⟩
      · rw [only there, here]
        rintro _ ⟨⟩
        exact same
      · rw [only there, past]
        rintro _ ⟨⟩
      · exact absurd none stored
    · exact fun same => same.existing idx given node here
  · rw [found] at uri
    rw [selectedKept_iff_of_some root uri,
      or_iff_right (missing_ne_selectedUri prefs root (mem_of_atIndex here))]
    constructor
    · refine fun same => ⟨fun other there => ?_, fun other there => ?_, fun none => ?_⟩
      · rw [only there, past]
        rintro _ ⟨⟩
      · rw [only there, here]
        rintro _ ⟨⟩
        exact same
      · exact absurd none stored
    · exact fun same => same.added idx given node here
  · exact absurd inside (fun inside => by
      have := isSome_atIndex.mpr inside
      rw [nowhere] at this
      cases this)

theorem selectedKept_of_not_inIndices (outside : ∀ idx ∈ root.selectedIndex, ¬InIndices
      (getNodes prefs.nodes ++ missingNodes (getNodes prefs.nodes) (root.nodes.getD [])) idx) :
    SelectedKept prefs (merged lowercase draws prefs root) root ↔ SameChoice prefs root := by
  have uri := @selectedUri_merged lowercase draws prefs root
  rw [getSelected_merged_of_not_inIndices draws prefs root outside] at uri
  have nowhere {idx : ℤ} (there : idx ∈ root.selectedIndex) :
      atIndex (getNodes prefs.nodes) idx = none ∧
        atIndex (missingNodes (getNodes prefs.nodes) (root.nodes.getD []))
          (idx - (getNodes prefs.nodes).length) = none := by
    have none := atIndex_of_not_inIndices (outside idx there)
    rcases inIndices_append_cases with ⟨node, -, found, -⟩ | ⟨node, -, found, -⟩ | ⟨-, absent⟩
    · rw [none] at found
      cases found
    · rw [none] at found
      cases found
    · exact absent
  have choice : SameChoice prefs root ↔
      ∀ node ∈ atIndex (missingNodes (getNodes prefs.nodes) (root.nodes.getD []))
        (getSelected prefs.nodes - (getNodes prefs.nodes).length),
        some node.uri = backupSelected root := by
    refine ⟨fun same => same.stored outside, fun same => ⟨fun idx there => ?_, fun idx there => ?_,
      fun _ => same⟩⟩
    · rw [(nowhere there).1]
      rintro _ ⟨⟩
    · rw [(nowhere there).2]
      rintro _ ⟨⟩
  rw [choice]
  rcases inIndices_append_cases with ⟨node, here, found, past⟩ | ⟨node, here, found, past⟩ |
    ⟨found, here, past⟩
  · rw [found, ← here] at uri
    refine iff_of_true (.inl uri) ?_
    rw [past]
    rintro _ ⟨⟩
  · rw [found] at uri
    rw [selectedKept_iff_of_some root uri,
      or_iff_right (missing_ne_selectedUri prefs root (mem_of_atIndex here)), here]
    refine ⟨fun same => ?_, fun same => same node rfl⟩
    rintro _ ⟨⟩
    exact same
  · rw [found, ← here] at uri
    refine iff_of_true (.inl uri) ?_
    rw [past]
    rintro _ ⟨⟩

theorem selectedKept_iff :
    SelectedKept prefs (merged lowercase draws prefs root) root ↔ SameChoice prefs root := by
  by_cases outside : ∀ idx ∈ root.selectedIndex, ¬InIndices
      (getNodes prefs.nodes ++ missingNodes (getNodes prefs.nodes) (root.nodes.getD [])) idx
  · exact selectedKept_of_not_inIndices draws prefs root outside
  · simp only [not_forall, not_not] at outside
    obtain ⟨idx, given, inside⟩ := outside
    exact selectedKept_of_inIndices draws prefs root given inside

/--
Merging a backup keeps what is there, adds what is missing, leaves the selection
with its node or the backup's, and changes nothing when it is done again.
-/
structure Conservative (lowercase : String → String) (draws : Draws) (prefs : Preferences)
    (root : BackupJson) : Prop where
  nodes : ∃ added,
    getNodes (merged lowercase draws prefs root).nodes = getNodes prefs.nodes ++ added ∧
      Completes Node.uri (getNodes prefs.nodes) added
        ((root.nodes.getD []).filterMap offeredNode)
  rules : ∃ added,
    (∀ later, ∃ draw, (RuleStore.getRules later (merged lowercase draws prefs root).rules).map
        (Rule.normalized lowercase) =
      (RuleStore.getRules draw prefs.rules ++ added).map (Rule.normalized lowercase)) ∧
    ∀ draw, Completes ruleKey (RuleStore.getRules draw prefs.rules) added
      ((root.rules.getD []).zipIdx.filterMap (restoredRule draws))
  selected : SelectedKept prefs (merged lowercase draws prefs root) root
  again : ∀ later, merged lowercase later (merged lowercase draws prefs root) root =
    merged lowercase draws prefs root

theorem conservative_iff (lowercase : String → String) (draws : Draws) (prefs : Preferences)
    (root : BackupJson) : Conservative lowercase draws prefs root ↔ SameChoice prefs root := by
  rw [← @selectedKept_iff lowercase draws prefs root]
  refine ⟨Conservative.selected, fun selected => ⟨?_, ?_, selected, ?_⟩⟩
  · exact ⟨_, getNodes_merged draws prefs root, completes_missing _ _⟩
  · refine ⟨(addedRules draws prefs root).map Prod.fst, getRules_merged draws prefs root,
      fun draw => ?_⟩
    exact completes_of_keys (completes_missingRules draws _ _) (ruleKeys_getRules _ _ _)
  · exact merged_merged draws prefs root

/--
The first of two nodes is selected, and of the backup's two the second: after the
merge it is the second of the old ones.
-/
theorem not_conservative_of_backup_index :
    let node (uri : String) : NodeJson := ⟨some uri, some ""⟩
    let prefs : Preferences := { Preferences.fresh with
      nodes := ⟨some [node "mirage://a", node "mirage://b"], some 0, none, none⟩ }
    let root : BackupJson := { exportJson (fun _ => ⟨fun _ => 0⟩) .fresh with
      nodes := some [node "mirage://c", node "mirage://d"]
      selectedIndex := some 1 }
    let draws : Draws := ⟨fun _ => ⟨fun _ => 0⟩, fun _ => ⟨fun _ => 0⟩, fun _ _ => ⟨fun _ => 0⟩⟩
    selectedUri prefs = some "mirage://a" ∧ backupSelected root = some "mirage://d" ∧
      selectedUri (merged toAsciiLowercase draws prefs root) = some "mirage://b" ∧
      ¬Conservative toAsciiLowercase draws prefs root := by
  intro node prefs root draws
  have before : selectedUri prefs = some "mirage://a" := by decide +kernel
  have backup : backupSelected root = some "mirage://d" := by decide +kernel
  have after : selectedUri (merged toAsciiLowercase draws prefs root) = some "mirage://b" := by
    decide +kernel
  refine ⟨before, backup, after, fun conservative => ?_⟩
  have kept := conservative.selected
  rw [SelectedKept, before, backup, after] at kept
  revert kept
  decide

end Selected

end ConfigBackup

end Mirage.Shell
