import Mirage.Routing.CustomRules
import Mirage.Routing.Partial

/-!
# The verdict of a rule

A rule of a document gives a verdict on a request where its compiled form
decides the request.  The number which a rule is compiled under, its place in
the document, has no part in this.  The decision on a request which reaches the
rules is the outcome of their verdicts.
-/

namespace Mirage.Routing

open Mirage.Foundations

/-- Whatever the logic, a rule needs a condition which matches. -/
theorem CompositeRule.matches_eq_false {geo : GeoStore} {request : Request} {rule : CompositeRule}
    (unmatched : ∀ c ∈ rule.conditions, c.matches geo request = false) :
    rule.matches geo request = false := by
  unfold CompositeRule.matches
  split
  · rfl
  rename_i active
  obtain ⟨first, mem⟩ := List.exists_mem_of_ne_nil rule.conditions (by grind)
  split
  · simpa using unmatched
  · rw [List.all_eq_false]
    exact ⟨first, mem, by simp [unmatched first mem]⟩

namespace RouterState

def verdict (state : RouterState) (request : Request) (rule : CompositeRule) : Option RuleAction :=
  if state.decides request rule then some rule.action else none

theorem verdict_eq_none {state : RouterState} {request : Request} {rule : CompositeRule}
    (unmatched : ∀ c ∈ rule.conditions, c.matches state.geo request = false) :
    state.verdict request rule = none := by
  have undecided : state.decides request rule = false := by
    rw [decides, CompositeRule.matches_eq_false unmatched, Bool.false_and]
  rw [verdict, undecided]
  rfl

theorem outcome_verdict (state : RouterState) (request : Request) (otherwise : RuleAction)
    (rules : List CompositeRule) :
    outcome (state.verdict request) otherwise rules =
      ((rules.find? (state.decides request)).map CompositeRule.action).getD otherwise := by
  induction rules with
  | nil => rfl
  | cons rule rules ih =>
      by_cases decided : state.decides request rule
      · rw [outcome_cons_some (by rw [verdict, if_pos decided]), List.find?_cons_of_pos decided]
        rfl
      · rw [outcome_cons_none (by rw [verdict, if_neg decided]), List.find?_cons_of_neg decided, ih]

theorem routeDecision_of_reaches {state : RouterState} {request : Request}
    (reaches : state.ReachesRules request) :
    state.routeDecision request =
      outcome (state.verdict request) (state.routeUnruled request).1 state.rules := by
  rw [outcome_verdict, routeDecision, routeDecisionSourced_ruled reaches, ruledDecision]
  cases state.rules.find? (state.decides request) <;> rfl

end RouterState

section Document

variable (compile : String → Option (String → Bool))

/-- The rule which the kernel makes of one of the document -/
def RuleJson.compiled (item : RuleJson) (idx place : ℕ) : Option CompositeRule :=
  (cleanRule compile item idx).bind fun clean => readRule compile clean place

/-- The verdict of a rule which is read as it stands -/
def readVerdict (state : RouterState) (request : Request) (item : RuleJson) : Option RuleAction :=
  (readRule compile item 0).bind (state.verdict request)

def RuleJson.verdict (state : RouterState) (request : Request) (item : RuleJson) :
    Option RuleAction :=
  (item.compiled compile 0 0).bind (state.verdict request)

variable {compile}

/-- The places in the documents, and the identifier itself, have no other part in the result. -/
theorem compiled_eq_map {item : RuleJson} {id : Option String}
    (system : { item with id := id }.isSystem = item.isSystem) (idx place : ℕ) :
    { item with id := id }.compiled compile idx place =
      (item.compiled compile 0 0).map fun rule =>
        { rule with id := (cleaned compile { item with id := id } idx).id.getD "" } := by
  have valid : validConditions compile { item with id := id } = validConditions compile item := rfl
  have conditions : readConditions compile (cleaned compile { item with id := id } idx) =
      readConditions compile (cleaned compile item 0) := rfl
  unfold RuleJson.compiled cleanRule
  rw [system, valid]
  by_cases isSystem : item.isSystem
  · simp only [if_pos isSystem, Option.bind_none, Option.map_none]
  by_cases empty : (validConditions compile item).isEmpty
  · simp only [if_neg isSystem, if_pos empty, Option.bind_none, Option.map_none]
  simp only [if_neg isSystem, if_neg empty, Option.bind_some]
  unfold readRule
  rw [conditions]
  by_cases unread : (readConditions compile (cleaned compile item 0)).isEmpty
  · simp only [if_pos unread, Option.map_none]
  · simp only [if_neg unread, Option.map_some]
    rfl

theorem verdict_compiled (state : RouterState) (request : Request) (item : RuleJson)
    (idx place : ℕ) :
    (item.compiled compile idx place).bind (state.verdict request) =
      item.verdict compile state request := by
  have same : { item with id := item.id }.isSystem = item.isSystem := rfl
  rw [show item.compiled compile idx place = _ from compiled_eq_map same idx place,
    Option.bind_map]
  rfl

/-- Of its identifier it matters only whether it claims to be one of the system. -/
theorem verdict_rename (state : RouterState) (request : Request) {item : RuleJson}
    {id : Option String} (system : { item with id := id }.isSystem = item.isSystem) :
    { item with id := id }.verdict compile state request =
      item.verdict compile state request := by
  rw [RuleJson.verdict, compiled_eq_map system, Option.bind_map]
  rfl

theorem action_of_verdict {state : RouterState} {request : Request} {item : RuleJson}
    {action : RuleAction} (decided : item.verdict compile state request = some action) :
    action = .fromStr (item.action.getD "proxy") := by
  obtain ⟨rule, compiled, judged⟩ := Option.bind_eq_some_iff.mp decided
  obtain ⟨clean, kept, read⟩ := Option.bind_eq_some_iff.mp compiled
  unfold cleanRule at kept
  split at kept
  · cases kept
  split at kept
  · cases kept
  cases kept
  unfold readRule at read
  split at read
  · cases read
  cases read
  unfold RouterState.verdict at judged
  split at judged
  · exact (Option.some.inj judged).symm
  · cases judged

/-- A rule without conditions decides nothing. -/
theorem verdict_of_empty {state : RouterState} {request : Request} {item : RuleJson}
    (empty : item.conditions = some []) : item.verdict compile state request = none := by
  have valid : validConditions compile item = [] := by
    rw [validConditions, empty]
    rfl
  simp [RuleJson.verdict, RuleJson.compiled, cleanRule, valid]

/-- A request of which nothing is known. -/
def unknownRequest : Request :=
  ⟨none, none, none, none⟩

theorem RouterState.verdict_unknownRequest (state : RouterState) (rule : CompositeRule) :
    state.verdict unknownRequest rule = none := by
  have unmatched (c : ConditionKind) : c.matches state.geo unknownRequest = false := by
    cases c <;> rfl
  exact verdict_eq_none fun c _ => unmatched c

theorem RuleJson.verdict_unknownRequest (state : RouterState) (item : RuleJson) :
    item.verdict compile state unknownRequest = none := by
  rw [RuleJson.verdict, Option.bind_eq_none_iff]
  exact fun rule _ => state.verdict_unknownRequest rule

theorem readVerdict_unknownRequest (state : RouterState) (item : RuleJson) :
    readVerdict compile state unknownRequest item = none := by
  rw [readVerdict, Option.bind_eq_none_iff]
  exact fun rule _ => state.verdict_unknownRequest rule

/-- A rule with an identifier is read in the same way at every place. -/
theorem readRule_of_id {item : RuleJson} {id : String} (named : item.id = some id) (place : ℕ) :
    readRule compile item place = readRule compile item 0 := by
  rw [readRule, readRule, named]
  rfl

/-- The guard is about fake addresses only, and a condition on addresses matches none of them. -/
theorem readVerdict_sysFakeIpGuard (state : RouterState) (request : Request) :
    readVerdict compile state request sysFakeIpGuard = none := by
  have cidr : parseCidr "198.18.0.0/15" = some ⟨0xC6120000, 0xFFFE0000⟩ := by decide +kernel
  have conditions : readConditions compile sysFakeIpGuard =
      [.ipCidr "198.18.0.0/15" (some ⟨0xC6120000, 0xFFFE0000⟩)] := by
    have kind : toAsciiLowercase (trim "cidr") = "cidr" := by decide +kernel
    simp [readConditions, sysFakeIpGuard, parseConditionKind, kind, cidr]
  rw [readVerdict, readRule, conditions]
  apply RouterState.verdict_eq_none
  intro c mem
  rw [List.mem_singleton.mp mem]
  rcases request with ⟨domain, ip, port, protocol⟩
  cases ip with
  | none => rfl
  | some ip =>
      cases ip with
      | v6 address => rfl
      | v4 address => simp [ConditionKind.matches, isFakeIp, Ipv4Cidr.contains]

def parsedRules (json : Option RulesJson) : List RuleJson :=
  ((json.getD ⟨some [], some "proxy"⟩).rules).getD []

def parsedDefaultAction (json : Option RulesJson) : RuleAction :=
  .fromStr ((json.getD ⟨some [], some "proxy"⟩).defaultAction.getD "proxy")

variable (compile) in
def cleanRules (json : Option RulesJson) : List RuleJson :=
  (parsedRules json).zipIdx.filterMap fun entry => cleanRule compile entry.1 entry.2

theorem rules_stripAndInjectRules (json : Option RulesJson) :
    (stripAndInjectRules compile json).rules =
      some (sysLanPrivateDirect :: (cleanRules compile json ++ [sysFakeIpGuard])) := rfl

/-- Every rule which is handed on has an identifier. -/
theorem named_of_mem {json : Option RulesJson} {item : RuleJson}
    (mem : item ∈ sysLanPrivateDirect :: (cleanRules compile json ++ [sysFakeIpGuard])) :
    ∃ id, item.id = some id := by
  rw [List.mem_cons, List.mem_append, List.mem_singleton] at mem
  rcases mem with rfl | kept | rfl
  · exact ⟨_, rfl⟩
  · obtain ⟨entry, _, kept⟩ := List.mem_filterMap.mp kept
    rw [cleanRule] at kept
    split at kept
    · cases kept
    split at kept
    · cases kept
    cases kept
    exact ⟨_, rfl⟩
  · exact ⟨_, rfl⟩

/-- The rules of the user come to the outcome which the document has. -/
theorem outcome_cleanRules (json : Option RulesJson) (state : RouterState) (request : Request)
    (otherwise : RuleAction) :
    outcome (readVerdict compile state request) otherwise (cleanRules compile json) =
      outcome (RuleJson.verdict compile state request) otherwise (parsedRules json) := by
  rw [cleanRules, outcome_filterMap, ← outcome_zipIdx (parsedRules json) 0]
  refine outcome_congr fun entry _ => ?_
  rw [← verdict_compiled state request entry.1 entry.2 0, RuleJson.compiled, Option.bind_assoc]
  rfl

theorem outcome_setCustomRules (json : Option RulesJson) (state : RouterState)
    (request : Request) (otherwise : RuleAction) :
    outcome (state.verdict request) otherwise (setCustomRules compile json state).rules =
      (readVerdict compile state request sysLanPrivateDirect).getD
        (outcome (RuleJson.verdict compile state request) otherwise (parsedRules json)) := by
  have placed (entry : RuleJson × ℕ)
      (mem : entry ∈ (sysLanPrivateDirect ::
        (cleanRules compile json ++ [sysFakeIpGuard])).zipIdx) :
      (readRule compile entry.1 entry.2).bind (state.verdict request) =
        readVerdict compile state request entry.1 := by
    obtain ⟨id, named⟩ := named_of_mem (List.fst_mem_of_mem_zipIdx mem)
    rw [readRule_of_id named, readVerdict]
  have guard : outcome (readVerdict compile state request) otherwise [sysFakeIpGuard] =
      otherwise := by
    rw [outcome_cons_none (readVerdict_sysFakeIpGuard state request), outcome_nil]
  rw [setCustomRules, rules_stripAndInjectRules, Option.getD_some, outcome_filterMap,
    outcome_congr placed, outcome_zipIdx, outcome_cons, outcome_append, guard, outcome_cleanRules]

theorem setCustomRules_eq (json : Option RulesJson) (state : RouterState) :
    setCustomRules compile json state =
      { state with
        rules := (setCustomRules compile json state).rules
        defaultAction := parsedDefaultAction json } := by
  have default : (setCustomRules compile json state).defaultAction = parsedDefaultAction json := by
    simp only [setCustomRules, stripAndInjectRules, Option.map_some, Option.getD_some,
      parsedDefaultAction]
  rw [← default]
  rfl

/-- The rules have no part in what is decided without them. -/
theorem routeUnruled_rules (state : RouterState) (rules : List CompositeRule) (action : RuleAction)
    (request : Request) :
    { state with rules := rules, defaultAction := action }.routeUnruled request =
      { state with defaultAction := action }.routeUnruled request := rfl

/-- The decision after the rules of a document have been set -/
theorem routeDecision_setCustomRules {json : Option RulesJson} {state : RouterState}
    {request : Request} (reaches : state.ReachesRules request) :
    (setCustomRules compile json state).routeDecision request =
      (readVerdict compile state request sysLanPrivateDirect).getD
        (outcome (RuleJson.verdict compile state request)
          ({ state with defaultAction := parsedDefaultAction json }.routeUnruled request).1
          (parsedRules json)) := by
  have kept : (setCustomRules compile json state).ReachesRules request := reaches
  rw [RouterState.routeDecision_of_reaches kept, setCustomRules_eq, routeUnruled_rules]
  exact outcome_setCustomRules json state request _

end Document

end Mirage.Routing
