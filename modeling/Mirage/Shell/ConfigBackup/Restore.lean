import Mirage.Routing.CustomRules.Verdict
import Mirage.Shell.ConfigBackup

/-!
# Restoring a backup

What an import over everything makes of an export.  The nodes come back; of a
rule only the older fields do, so the restored rules may decide otherwise.
`restores_iff` says when nothing is noticed of it.
-/

namespace Mirage.Shell

open Mirage.Foundations Mirage.Routing

namespace ConfigBackup

section Nodes

open NodeStore

def hasScheme (node : Node) : Bool := isMirageUri node.uri

theorem importNode_toJson (state : Importing Node NodePrefs) (node : Node) :
    importNode true state node.toJson =
      if hasScheme node then
        ⟨state.existing ++ [node], addNode state.store node, state.count + 1⟩
      else state := by
  have scheme : isMirageUri (node.toJson.uri.getD "") = hasScheme node := rfl
  rw [importNode, scheme]
  rfl

/-- The nodes of the scheme are appended in order; the selection is not touched. -/
theorem foldl_importNode (list : List Node) (state : Importing Node NodePrefs) :
    getNodes ((list.map Node.toJson).foldl (importNode true) state).store =
        getNodes state.store ++ list.filter hasScheme ∧
      ((list.map Node.toJson).foldl (importNode true) state).store.selectedIndex =
        state.store.selectedIndex := by
  induction list generalizing state with
  | nil => simp
  | cons node list ih =>
      rw [List.map_cons, List.foldl_cons, importNode_toJson]
      by_cases scheme : hasScheme node
      · rw [if_pos scheme, List.filter_cons_of_pos scheme]
        rcases ih ⟨state.existing ++ [node], addNode state.store node, state.count + 1⟩
          with ⟨nodes, selected⟩
        refine ⟨?_, selected⟩
        rw [nodes, getNodes_addNode, List.append_assoc, List.singleton_append]
      · rw [if_neg scheme, List.filter_cons_of_neg scheme]
        exact ih state

/-- The nodes which an import over everything leaves -/
theorem getNodes_importNodes (prefs : NodePrefs) (list : List Node) :
    getNodes (importNodes true prefs (list.map Node.toJson)).store =
      list.filter hasScheme := by
  rw [importNodes, (foldl_importNode list _).1]
  simp [getNodes_saveNodes]

theorem getSelected_importNodes (prefs : NodePrefs) (list : List Node) :
    getSelected (importNodes true prefs (list.map Node.toJson)).store = getSelected prefs := by
  rw [getSelected, importNodes, (foldl_importNode list _).2]
  rfl

@[simp]
theorem getNodes_importSelected (prefs : NodePrefs) (index : Option ℤ) :
    getNodes (importSelected prefs index) = getNodes prefs := by
  unfold importSelected
  split
  · split <;> rfl
  · rfl

theorem getSelected_importSelected (prefs : NodePrefs) (idx : ℤ) :
    getSelected (importSelected prefs (some idx)) =
      if 0 ≤ idx ∧ idx < (getNodes prefs).length then idx else getSelected prefs := by
  by_cases within : 0 ≤ idx ∧ idx < (getNodes prefs).length
  · rw [importSelected, if_pos within, if_pos within]
    rfl
  · rw [importSelected, if_neg within, if_neg within]

end Nodes

section Rules

variable {lowercase : String → String}

/-- The store holds these rules, whatever is drawn when it is read. -/
def Holds (lowercase : String → String) (store : RulePrefs) (rules : List Rule) : Prop :=
  ∀ draw, RuleStore.getRules draw store = rules.map (Rule.normalized lowercase)

theorem holds_addRule {store : RulePrefs} {rules : List Rule} (holds : Holds lowercase store rules)
    (draw : ℕ → Uuid) (rule : Rule) :
    Holds lowercase (RuleStore.addRule lowercase draw store rule) (rules ++ [rule]) := by
  intro later
  have normalized : Rule.normalized lowercase ∘ Rule.normalized lowercase =
      Rule.normalized lowercase := funext Rule.normalized_normalized
  rw [RuleStore.getRules_addRule, holds draw, List.map_append, List.map_map, normalized,
    List.map_append]

/-- The rule which the import makes of an entry; `none` if it skips it. -/
def restoredRule (draws : Draws) (entry : RuleJson × ℕ) : Option Rule :=
  let rule := importedRule (draws.imported entry.2) entry.1
  if isBlank rule.pattern then none else some rule

theorem foldl_importRule (draws : Draws) (entries : List (RuleJson × ℕ))
    {state : Importing Rule RulePrefs} {rules : List Rule}
    (holds : Holds lowercase state.store rules) :
    Holds lowercase (entries.foldl (importRule lowercase draws true) state).store
        (rules ++ entries.filterMap (restoredRule draws)) ∧
      (entries.foldl (importRule lowercase draws true) state).store.defaultAction =
        state.store.defaultAction := by
  induction entries generalizing state rules with
  | nil => simpa using holds
  | cons entry entries ih =>
      rw [List.foldl_cons]
      by_cases blank : isBlank (importedRule (draws.imported entry.2) entry.1).pattern
      · have skipped : importRule lowercase draws true state entry = state := by
          simp [importRule, blank]
        have absent : restoredRule draws entry = none := by simp [restoredRule, blank]
        rw [skipped, List.filterMap_cons_none absent]
        exact ih holds
      · have kept : restoredRule draws entry =
            some (importedRule (draws.imported entry.2) entry.1) := by simp [restoredRule, blank]
        have store : (importRule lowercase draws true state entry).store =
            RuleStore.addRule lowercase (draws.reread entry.2) state.store
              (importedRule (draws.imported entry.2) entry.1) := by simp [importRule, blank]
        have added := holds_addRule holds (draws.reread entry.2)
          (importedRule (draws.imported entry.2) entry.1)
        rw [← store] at added
        rcases ih added with ⟨all, action⟩
        rw [List.filterMap_cons_some kept]
        refine ⟨by simpa using all, ?_⟩
        rw [action, store]
        rfl

theorem getDefaultAction_importDefaultAction (prefs : RulePrefs) (action : String) :
    RuleStore.getDefaultAction (importDefaultAction prefs (some action)) =
      if action = "" then RuleStore.getDefaultAction prefs else action := by
  by_cases empty : action = ""
  · rw [if_pos empty, empty]
    rfl
  · rw [if_neg empty]
    simp [importDefaultAction, empty, RuleStore.setDefaultAction, RuleStore.getDefaultAction]

/-- The rules which an import over everything leaves -/
theorem holds_importRules (draws : Draws) (prefs : RulePrefs) (entries : List RuleJson) :
    Holds lowercase (importRules lowercase draws true prefs entries).store
        (entries.zipIdx.filterMap (restoredRule draws)) ∧
      (importRules lowercase draws true prefs entries).store.defaultAction =
        prefs.defaultAction := by
  let cleared := RuleStore.saveRules lowercase prefs []
  have empty : Holds lowercase
      (Importing.mk (RuleStore.getRules draws.existing cleared) cleared 0).store [] :=
    fun draw => RuleStore.getRules_saveRules draw prefs []
  exact foldl_importRule draws entries.zipIdx empty

end Rules

section Settings

theorem importDns_lists (prefs : Preferences) (direct remote : Option String) :
    (importDns prefs direct remote).nodes = prefs.nodes ∧
      (importDns prefs direct remote).rules = prefs.rules := by
  simp only [importDns]
  split <;> exact ⟨rfl, rfl⟩

theorem importGeoUrl_lists {set : Preferences → String → Preferences} (prefs : Preferences)
    (url : Option String)
    (keeps : ∀ prefs url,
      (set prefs url).nodes = prefs.nodes ∧ (set prefs url).rules = prefs.rules) :
    (importGeoUrl set prefs url).nodes = prefs.nodes ∧
      (importGeoUrl set prefs url).rules = prefs.rules := by
  unfold importGeoUrl
  split
  · split
    · exact keeps _ _
    · exact ⟨rfl, rfl⟩
  · exact ⟨rfl, rfl⟩

theorem setGeositeUrl_lists (prefs : Preferences) (url : String) :
    (prefs.setGeositeUrl url).nodes = prefs.nodes ∧
      (prefs.setGeositeUrl url).rules = prefs.rules := by
  unfold Preferences.setGeositeUrl
  split <;> exact ⟨rfl, rfl⟩

theorem setGeoipUrl_lists (prefs : Preferences) (url : String) :
    (prefs.setGeoipUrl url).nodes = prefs.nodes ∧ (prefs.setGeoipUrl url).rules = prefs.rules := by
  unfold Preferences.setGeoipUrl
  split <;> exact ⟨rfl, rfl⟩

/-- The settings are imported after the two lists, and leave them alone. -/
theorem importJson_lists (lowercase : String → String) (draws : Draws) (overwrite : Bool)
    (prefs : Preferences) (root : BackupJson) :
    let nodes := importSelected (importNodes overwrite prefs.nodes (root.nodes.getD [])).store
      root.selectedIndex
    let after := (importJson lowercase draws overwrite prefs root).1
    NodeStore.getNodes after.nodes = NodeStore.getNodes nodes ∧
      after.nodes.selectedIndex = nodes.selectedIndex ∧
      after.rules = importDefaultAction
        (importRules lowercase draws overwrite prefs.rules (root.rules.getD [])).store
        root.defaultAction := by
  intro nodes after
  let lists : Preferences :=
    { prefs with
      nodes := nodes
      rules := importDefaultAction
        (importRules lowercase draws overwrite prefs.rules (root.rules.getD [])).store
        root.defaultAction }
  let network := importDns lists root.directDns root.remoteDns
  let site := importGeoUrl .setGeositeUrl network root.geositeUrl
  have dns := importDns_lists lists root.directDns root.remoteDns
  have geosite := importGeoUrl_lists network root.geositeUrl setGeositeUrl_lists
  have geoip := importGeoUrl_lists site root.geoipUrl setGeoipUrl_lists
  have kept : (importGeoUrl .setGeoipUrl site root.geoipUrl).nodes = nodes :=
    geoip.1.trans (geosite.1.trans dns.1)
  -- Of the nodes, the settings hold the test method and the size of the pool.
  have nodesKept := congrArg NodeStore.getNodes kept
  have selectedKept := congrArg NodeStore.NodePrefs.selectedIndex kept
  exact ⟨nodesKept, selectedKept, geoip.2.trans (geosite.2.trans dns.2)⟩

end Settings

section Verdicts

variable {lowercase : String → String} {compile : String → Option (String → Bool)}

/-- What a backup tells of a rule, as a rule -/
def legacy (rule : Rule) : Rule :=
  { rule with id := "", name := "", enabled := true, logic := "OR", conditions := [] }

variable (lowercase compile) in
/-- The verdict of a stored rule once the kernel has been told of it -/
def verdictOf (state : RouterState) (request : Request) (rule : Rule) : Option RuleAction :=
  (rule.toJson lowercase).verdict compile state request

theorem verdictOf_of_blank {state : RouterState} {request : Request} {rule : Rule}
    (blank : isBlank rule.pattern = true) :
    verdictOf lowercase compile state request (legacy rule) = none := by
  apply verdict_of_empty
  simp [Rule.toJson, Rule.conditionsJson, Rule.effectiveConditions, legacy, blank]

theorem toJson_rename (rule : Rule) (id : String) :
    { rule with id := id }.toJson lowercase = { rule.toJson lowercase with id := some id } := rfl

theorem verdictOf_importedRule (state : RouterState) (request : Request) (uuid : Uuid)
    (rule : Rule) :
    verdictOf lowercase compile state request (importedRule uuid (exportRule rule)) =
      verdictOf lowercase compile state request (legacy rule) := by
  have own : { (legacy rule).toJson lowercase with id := some uuid.text }.isSystem =
      ((legacy rule).toJson lowercase).isSystem := by
    have unnamed : ((legacy rule).toJson lowercase).isSystem = false := by
      simp [RuleJson.isSystem, Rule.toJson, legacy]
    rw [unnamed, RuleJson.isSystem, Option.getD_some, Uuid.not_system]
  have renamed : importedRule uuid (exportRule rule) = { legacy rule with id := uuid.text } := rfl
  rw [verdictOf, renamed, toJson_rename, verdict_rename state request own, verdictOf]

/-- A restored rule says what the older fields say. -/
theorem verdictOf_restoredRule (state : RouterState) (request : Request) (draws : Draws)
    (rule : Rule) (place : ℕ) :
    (restoredRule draws (exportRule rule, place)).bind (verdictOf lowercase compile state request) =
      verdictOf lowercase compile state request (legacy rule) := by
  have pattern : (importedRule (draws.imported place) (exportRule rule)).pattern = rule.pattern :=
    rfl
  by_cases blank : isBlank rule.pattern
  · rw [verdictOf_of_blank blank]
    simp [restoredRule, pattern, blank]
  · rw [← verdictOf_importedRule state request (draws.imported place)]
    simp [restoredRule, pattern, blank]

/-- The two readings of a rule never name different actions. -/
theorem verdictOf_agree {state : RouterState} {request : Request} {rule : Rule}
    {one other : RuleAction} (stored : verdictOf lowercase compile state request rule = some one)
    (restored : verdictOf lowercase compile state request (legacy rule) = some other) :
    one = other := by
  rw [action_of_verdict stored, action_of_verdict restored]
  rfl

end Verdicts

section Restored

variable (lowercase : String → String) (compile : String → Option (String → Bool))

/-- What the kernel decides with once it has been told of the stored rules -/
def loaded (draw : ℕ → Uuid) (prefs : Preferences) (state : RouterState) : RouterState :=
  setCustomRules compile (some (RuleStore.toJson lowercase draw prefs.rules)) state

/-- The stored configuration after its backup has been imported over another one -/
def restored (draw : ℕ → Uuid) (draws : Draws) (stored prior : Preferences) : Preferences :=
  (importJson lowercase draws true prior (exportJson draw stored)).1

/--
The same nodes in order, the same selected node, and every request decided as
before, in every state of the router and whatever identifiers are drawn.
-/
structure Equivalent (before after : Preferences) : Prop where
  nodes : NodeStore.getNodes after.nodes = NodeStore.getNodes before.nodes
  selected : NodeStore.getSelectedNode after.nodes = NodeStore.getSelectedNode before.nodes
  decisions : ∀ draw state request,
    (loaded lowercase compile draw after state).routeDecision request =
      (loaded lowercase compile draw before state).routeDecision request

/-- The requests which the rules of the user are asked about. -/
def LookedThrough (state : RouterState) (request : Request) : Prop :=
  state.ReachesRules request ∧ readVerdict compile state request sysLanPrivateDirect = none

/-- What is decided where no rule of the user gives a verdict. -/
def unruled (stored : Preferences) (state : RouterState) (request : Request) : RuleAction :=
  ({ state with defaultAction := .fromStr (RuleStore.getDefaultAction stored.rules)
    }.routeUnruled request).1

/--
When a backup of a configuration restores it over another one.  The rules are
read twice: as they are stored, and as what their older fields tell, enabled
and with no conditions of their own.
-/
structure Survives (stored prior : Preferences) : Prop where
  nodes : ∀ node ∈ NodeStore.getNodes stored.nodes, isMirageUri node.uri = true
  selected : (NodeStore.getSelectedNode stored.nodes).isSome ∨
    NodeStore.atIndex (NodeStore.getNodes stored.nodes) (NodeStore.getSelected prior.nodes) = none
  defaultAction : RuleStore.getDefaultAction stored.rules ≠ "" ∨
    RuleAction.fromStr (RuleStore.getDefaultAction prior.rules) = .proxy
  rules : ∀ draw state request, LookedThrough compile state request →
    MadeUp (verdictOf lowercase compile state request)
      (fun rule => verdictOf lowercase compile state request (legacy rule))
      (unruled stored state request) (RuleStore.getRules draw stored.rules)

variable {lowercase compile}

theorem getNodes_restored (draw : ℕ → Uuid) (draws : Draws) (stored prior : Preferences) :
    NodeStore.getNodes (restored lowercase draw draws stored prior).nodes =
      (NodeStore.getNodes stored.nodes).filter hasScheme := by
  rw [restored, (importJson_lists lowercase draws true prior _).1, getNodes_importSelected]
  exact getNodes_importNodes prior.nodes _

theorem rules_restored (draw : ℕ → Uuid) (draws : Draws) (stored prior : Preferences) :
    Holds lowercase (restored lowercase draw draws stored prior).rules
      (((RuleStore.getRules draw stored.rules).map exportRule).zipIdx.filterMap
        (restoredRule draws)) := by
  intro later
  have lists := (importJson_lists lowercase draws true prior (exportJson draw stored)).2.2
  have held : Holds lowercase _ _ := (holds_importRules draws prior.rules
    ((RuleStore.getRules draw stored.rules).map exportRule)).1
  rw [restored, lists, ← held later]
  simp only [importDefaultAction]
  split <;> rfl

theorem getSelected_restored (draw : ℕ → Uuid) (draws : Draws) (stored prior : Preferences) :
    NodeStore.getSelected (restored lowercase draw draws stored prior).nodes =
      let sel := NodeStore.getSelected stored.nodes
      if 0 ≤ sel ∧ sel < ((NodeStore.getNodes stored.nodes).filter hasScheme).length then sel
      else NodeStore.getSelected prior.nodes := by
  have lists : NodeStore.getSelected (restored lowercase draw draws stored prior).nodes =
      NodeStore.getSelected (importSelected (importNodes true prior.nodes
        ((exportJson draw stored).nodes.getD [])).store (exportJson draw stored).selectedIndex) :=
    congrArg (fun index => index.getD (-1))
      (importJson_lists lowercase draws true prior (exportJson draw stored)).2.1
  have nodes := getNodes_importNodes prior.nodes (NodeStore.getNodes stored.nodes)
  have selected := getSelected_importNodes prior.nodes (NodeStore.getNodes stored.nodes)
  rw [lists, ← nodes, ← selected]
  exact getSelected_importSelected _ _

theorem getDefaultAction_restored (draw : ℕ → Uuid) (draws : Draws) (stored prior : Preferences) :
    RuleStore.getDefaultAction (restored lowercase draw draws stored prior).rules =
      if RuleStore.getDefaultAction stored.rules = "" then RuleStore.getDefaultAction prior.rules
      else RuleStore.getDefaultAction stored.rules := by
  have lists := (importJson_lists lowercase draws true prior (exportJson draw stored)).2.2
  have kept : (importRules lowercase draws true prior.rules
      ((RuleStore.getRules draw stored.rules).map exportRule)).store.defaultAction =
        prior.rules.defaultAction := (holds_importRules draws prior.rules _).2
  have default := congrArg (fun action => action.getD "proxy") kept
  rw [restored, lists]
  exact (getDefaultAction_importDefaultAction _ _).trans (if_congr Iff.rfl default rfl)

/-- What the older fields tell does not depend on what is drawn. -/
theorem legacy_getRules (draw later : ℕ → Uuid) (prefs : RulePrefs) :
    (RuleStore.getRules draw prefs).map legacy = (RuleStore.getRules later prefs).map legacy := by
  unfold RuleStore.getRules
  cases prefs.rulesJson with
  | none => simp only [Option.elim_none]
  | some items =>
      simp only [Option.elim_some, List.map_map, Function.comp_def, legacy, Rule.read]

theorem outcome_loaded (draw : ℕ → Uuid) (prefs : Preferences) {state : RouterState}
    {request : Request} (looked : LookedThrough compile state request) :
    (loaded lowercase compile draw prefs state).routeDecision request =
      outcome (verdictOf lowercase compile state request) (unruled prefs state request)
        (RuleStore.getRules draw prefs.rules) := by
  rw [loaded, routeDecision_setCustomRules looked.1, looked.2, Option.getD_none]
  exact outcome_map _ _

/-- The restored rules come to the outcome of what the older fields of the stored ones tell. -/
theorem outcome_restored (draw later : ℕ → Uuid) (draws : Draws) (stored prior : Preferences)
    (state : RouterState) (request : Request) (otherwise : RuleAction) :
    outcome (verdictOf lowercase compile state request) otherwise
        (RuleStore.getRules later (restored lowercase draw draws stored prior).rules) =
      outcome (fun rule => verdictOf lowercase compile state request (legacy rule)) otherwise
        (RuleStore.getRules later stored.rules) := by
  have normalized (rule : Rule) : verdictOf lowercase compile state request
      (rule.normalized lowercase) = verdictOf lowercase compile state request rule := by
    rw [verdictOf, Rule.toJson_normalized, verdictOf]
  let told (rule : Rule) := verdictOf lowercase compile state request (legacy rule)
  have restoredVerdict (entry : Rule × ℕ) :
      (restoredRule draws (exportRule entry.1, entry.2)).bind
        (verdictOf lowercase compile state request) = told entry.1 :=
    verdictOf_restoredRule state request draws entry.1 entry.2
  have zipped : outcome (fun entry : Rule × ℕ => told entry.1) otherwise
      (RuleStore.getRules draw stored.rules).zipIdx =
        outcome told otherwise (RuleStore.getRules draw stored.rules) := outcome_zipIdx _ 0
  rw [rules_restored draw draws stored prior later, outcome_map, funext normalized,
    outcome_filterMap, List.zipIdx_map, outcome_map]
  refine (outcome_congr fun entry _ => restoredVerdict entry).trans (zipped.trans ?_)
  rw [← outcome_map, legacy_getRules draw later, outcome_map]

theorem isSome_atIndex {nodes : List NodeStore.Node} {index : ℤ} :
    (NodeStore.atIndex nodes index).isSome ↔ 0 ≤ index ∧ index < nodes.length := by
  unfold NodeStore.atIndex
  by_cases positive : 0 ≤ index
  · rw [if_pos positive, isSome_getElem?]
    omega
  · simp [positive]

/-- A request which no rule decides tells the default action. -/
theorem decision_unknownRequest (draw : ℕ → Uuid) (prefs : Preferences) :
    (loaded lowercase compile draw prefs (.initial .empty)).routeDecision unknownRequest =
      .fromStr (RuleStore.getDefaultAction prefs.rules) := by
  have looked : LookedThrough compile (.initial .empty) unknownRequest :=
    ⟨⟨nofun, rfl, rfl, by decide, by decide⟩, readVerdict_unknownRequest _ _⟩
  have undecided (rule : Rule) : verdictOf lowercase compile (.initial .empty) unknownRequest rule =
      none := RuleJson.verdict_unknownRequest _ _
  rw [outcome_loaded draw prefs looked, outcome_of_none fun rule _ => undecided rule]
  rfl

/-- What comes before the rules of the user does not depend on them. -/
theorem decision_of_not_looked (draw : ℕ → Uuid) (before after : Preferences) {state : RouterState}
    {request : Request} (early : ¬LookedThrough compile state request) :
    (loaded lowercase compile draw after state).routeDecision request =
      (loaded lowercase compile draw before state).routeDecision request := by
  by_cases reaches : state.ReachesRules request
  · obtain ⟨action, decided⟩ := Option.ne_none_iff_exists'.mp fun undecided =>
      early ⟨reaches, undecided⟩
    rw [loaded, loaded, routeDecision_setCustomRules reaches, routeDecision_setCustomRules reaches,
      decided, Option.getD_some, Option.getD_some]
  · have unchanged (prefs : Preferences) :
        (loaded lowercase compile draw prefs state).routeDecision request =
          state.routeDecision request :=
      congrArg Prod.fst (RouterState.routeDecisionSourced_early rfl (.refl request) reaches)
    rw [unchanged, unchanged]

/-- The selected node of a restored configuration whose nodes have all come back -/
theorem getSelectedNode_restored (draw : ℕ → Uuid) (draws : Draws) {stored prior : Preferences}
    (scheme : (NodeStore.getNodes stored.nodes).filter hasScheme =
      NodeStore.getNodes stored.nodes) :
    NodeStore.getSelectedNode (restored lowercase draw draws stored prior).nodes =
      if (NodeStore.getSelectedNode stored.nodes).isSome then
        NodeStore.getSelectedNode stored.nodes
      else NodeStore.atIndex (NodeStore.getNodes stored.nodes)
        (NodeStore.getSelected prior.nodes) := by
  rw [NodeStore.getSelectedNode, getNodes_restored, getSelected_restored, scheme]
  by_cases chosen : (NodeStore.getSelectedNode stored.nodes).isSome
  · rw [if_pos chosen, if_pos (isSome_atIndex.mp chosen), NodeStore.getSelectedNode]
  · rw [if_neg chosen, if_neg fun within => chosen (isSome_atIndex.mpr within)]

/-- The default action which is restored -/
theorem fromStr_restored (draw : ℕ → Uuid) (draws : Draws) (stored prior : Preferences) :
    RuleAction.fromStr
        (RuleStore.getDefaultAction (restored lowercase draw draws stored prior).rules) =
        .fromStr (RuleStore.getDefaultAction stored.rules) ↔
      RuleStore.getDefaultAction stored.rules ≠ "" ∨
        RuleAction.fromStr (RuleStore.getDefaultAction prior.rules) = .proxy := by
  have empty : RuleAction.fromStr "" = .proxy := by decide +kernel
  rw [getDefaultAction_restored]
  by_cases written : RuleStore.getDefaultAction stored.rules = ""
  · simp [written, empty]
  · simp [written]

/-- The decisions of requests which are looked through, before and after -/
theorem decision_eq_iff (draw later : ℕ → Uuid) (draws : Draws) {stored prior : Preferences}
    {state : RouterState} {request : Request} (looked : LookedThrough compile state request)
    (default : RuleAction.fromStr
      (RuleStore.getDefaultAction (restored lowercase draw draws stored prior).rules) =
        .fromStr (RuleStore.getDefaultAction stored.rules)) :
    (loaded lowercase compile later (restored lowercase draw draws stored prior)
        state).routeDecision request =
        (loaded lowercase compile later stored state).routeDecision request ↔
      MadeUp (verdictOf lowercase compile state request)
        (fun rule => verdictOf lowercase compile state request (legacy rule))
        (unruled stored state request) (RuleStore.getRules later stored.rules) := by
  have unruledSame : unruled (restored lowercase draw draws stored prior) state request =
      unruled stored state request := by
    rw [unruled, unruled, default]
  rw [outcome_loaded later _ looked, outcome_loaded later _ looked, unruledSame,
    outcome_restored draw later draws stored prior, eq_comm]
  exact outcome_eq_iff fun rule _ one other first second => verdictOf_agree first second

/-- Exactly when importing the backup of a configuration over another one restores it. -/
theorem restores_iff {draw : ℕ → Uuid} {draws : Draws} {stored prior : Preferences} :
    Equivalent lowercase compile stored (restored lowercase draw draws stored prior) ↔
      Survives lowercase compile stored prior := by
  constructor
  · intro same
    have scheme := same.nodes
    rw [getNodes_restored] at scheme
    have default := same.decisions draw (.initial .empty) unknownRequest
    rw [decision_unknownRequest, decision_unknownRequest] at default
    refine ⟨List.filter_eq_self.mp scheme, ?_, (fromStr_restored draw draws _ _).mp default,
      fun later state request looked =>
        (decision_eq_iff draw later draws looked default).mp (same.decisions later state request)⟩
    have selected := same.selected
    rw [getSelectedNode_restored draw draws scheme] at selected
    by_cases chosen : (NodeStore.getSelectedNode stored.nodes).isSome
    · exact .inl chosen
    · rw [if_neg chosen] at selected
      rw [selected]
      exact .inr (by simpa using chosen)
  · intro survives
    have scheme : (NodeStore.getNodes stored.nodes).filter hasScheme =
        NodeStore.getNodes stored.nodes := List.filter_eq_self.mpr survives.nodes
    have default : RuleAction.fromStr (RuleStore.getDefaultAction
        (restored lowercase draw draws stored prior).rules) =
          .fromStr (RuleStore.getDefaultAction stored.rules) :=
      (fromStr_restored draw draws stored prior).mpr survives.defaultAction
    refine ⟨?_, ?_, ?_⟩
    · rw [getNodes_restored, scheme]
    · rw [getSelectedNode_restored draw draws scheme]
      split
      · rfl
      · rename_i unchosen
        rw [survives.selected.resolve_left unchosen, eq_comm]
        simpa using unchosen
    · intro later state request
      by_cases looked : LookedThrough compile state request
      · exact (decision_eq_iff draw later draws looked default).mpr
          (survives.rules later state request looked)
      · exact decision_of_not_looked later _ _ looked

/-- The settings which are stored as they are come back. -/
theorem settings_restored (draw : ℕ → Uuid) (draws : Draws) (stored prior : Preferences) :
    let after := restored lowercase draw draws stored prior
    after.isIpv6Enabled = stored.isIpv6Enabled ∧ after.isBlockQuic = stored.isBlockQuic ∧
      after.isUdpMux = stored.isUdpMux ∧ after.isAutoReconnect = stored.isAutoReconnect ∧
      after.getFailoverMode = stored.getFailoverMode ∧
      NodeStore.getTestMethod after.nodes = NodeStore.getTestMethod stored.nodes ∧
      NodeStore.getPoolSize after.nodes = NodeStore.getPoolSize stored.nodes :=
  ⟨rfl, rfl, rfl, rfl, rfl, rfl, rfl⟩

/-- Importing a backup over any configuration restores the one it was made of. -/
def RoundTrips (lowercase : String → String) (compile : String → Option (String → Bool)) : Prop :=
  ∀ draw draws stored prior,
    (∀ node ∈ NodeStore.getNodes stored.nodes, isMirageUri node.uri = true) →
      Equivalent lowercase compile stored (restored lowercase draw draws stored prior)

/-- The default rules have conditions of their own only: none of them comes back. -/
theorem not_roundTrips_defaultRules : ¬RoundTrips toAsciiLowercase fun _ => none := by
  intro roundTrips
  let draw : ℕ → Uuid := fun _ => ⟨fun _ => 0⟩
  have same := (roundTrips draw ⟨draw, draw, fun _ => draw⟩ .fresh .fresh nofun).decisions draw
    (.initial .empty) (.ofDomain "ads.doubleclick.net")
  revert same
  decide +kernel

end Restored

end ConfigBackup

end Mirage.Shell
