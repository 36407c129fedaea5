import Mirage.Routing.CustomRules.Verdict

/-!
# The normal form of a document

What `strip_and_inject_rules` makes of a document: the two rules of the system
around those of the user which are kept.  Cleaning a document which is clean
leaves it as it is.
-/

namespace Mirage.Routing

open Mirage.Foundations

section Cleaning

variable (compile : String → Option (String → Bool))

theorem isSome_parseConditionKind (kind pattern : String) :
    (parseConditionKind compile kind pattern).isSome = true := by
  unfold parseConditionKind
  split <;> rfl

/-- A rule which is kept: it is not one of the system, and a condition of it is valid. -/
def RuleJson.survives (item : RuleJson) : Bool :=
  !item.isSystem && !(validConditions compile item).isEmpty

/-- The rules of the user which are kept, with their places in the document. -/
def survivors (raw : Option RulesJson) : List (RuleJson × ℕ) :=
  (parsedRules raw).zipIdx.filter fun entry => entry.1.survives compile

theorem cleanRule_eq (item : RuleJson) (idx : ℕ) :
    cleanRule compile item idx =
      if item.survives compile then some (cleaned compile item idx) else none := by
  rw [cleanRule, RuleJson.survives]
  cases item.isSystem with
  | true => rfl
  | false => cases (validConditions compile item).isEmpty <;> rfl

/-- A condition which is valid is left as it is. -/
theorem validCondition_validCondition {cond valid : ConditionJson}
    (found : validCondition compile cond = some valid) :
    validCondition compile valid = some valid := by
  simp only [validCondition] at found
  split at found
  · rename_i checked
    cases found
    simp only [validCondition, Option.getD_some, trim_trim]
    exact if_pos checked
  · cases found

theorem filterMap_validConditions (item : RuleJson) :
    (validConditions compile item).filterMap (validCondition compile) =
      validConditions compile item := by
  have kept : ∀ cond ∈ validConditions compile item, validCondition compile cond = some cond := by
    intro cond member
    simp only [validConditions] at member
    split at member
    · rcases List.mem_filterMap.mp member with ⟨source, _, found⟩
      exact validCondition_validCondition compile found
    · split at member
      · split at member
        · rename_i kind pattern _ checked
          rw [List.mem_singleton.mp member]
          simp only [validCondition, Option.getD_some, trim_trim]
          exact if_pos ⟨checked.1, checked.2.1, isSome_parseConditionKind compile _ _⟩
        · cases member
      · cases member
  rw [List.filterMap_congr kept]
  exact List.filterMap_some

theorem validConditions_cleaned (item : RuleJson) (idx : ℕ) :
    validConditions compile (cleaned compile item idx) = validConditions compile item :=
  filterMap_validConditions compile item

theorem isSystem_cleaned {item : RuleJson} (user : item.isSystem = false) (idx : ℕ) :
    (cleaned compile item idx).isSystem = false := by
  simp only [RuleJson.isSystem, cleaned, Option.getD_some] at user ⊢
  split
  · simp [List.isPrefixOf]
  · exact user

theorem survives_cleaned {item : RuleJson} (survives : item.survives compile = true) (idx : ℕ) :
    (cleaned compile item idx).survives compile = true := by
  simp only [RuleJson.survives, Bool.and_eq_true, Bool.not_eq_true'] at survives ⊢
  rw [validConditions_cleaned]
  exact ⟨isSystem_cleaned compile survives.1 idx, survives.2⟩

theorem cleaned_cleaned (item : RuleJson) (idx place : ℕ) :
    cleaned compile (cleaned compile item idx) place = cleaned compile item idx := by
  have named : (cleaned compile item idx).id.getD "" ≠ "" := by
    simp only [cleaned, Option.getD_some]
    split
    · simp
    · assumption
  rw [cleaned.eq_1 compile (cleaned compile item idx), if_neg named, validConditions_cleaned]
  rfl

theorem cleanRules_eq (raw : Option RulesJson) :
    cleanRules compile raw =
      (survivors compile raw).map fun entry => cleaned compile entry.1 entry.2 := by
  simp only [cleanRules, cleanRule_eq, survivors, ← List.filterMap_eq_map', List.filterMap_filter]

theorem survives_of_mem_cleanRules {raw : Option RulesJson} {item : RuleJson}
    (member : item ∈ cleanRules compile raw) :
    item.survives compile = true ∧ ∀ place, cleaned compile item place = item := by
  rw [cleanRules_eq, List.mem_map] at member
  rcases member with ⟨entry, there, rfl⟩
  have survives := (List.mem_filter.mp there).2
  exact ⟨survives_cleaned compile survives entry.2, cleaned_cleaned compile entry.1 entry.2⟩

/-- The rules of a document which is clean are kept as they are. -/
theorem cleanRules_stripAndInjectRules (raw : Option RulesJson) :
    cleanRules compile (some (stripAndInjectRules compile raw)) = cleanRules compile raw := by
  have rules : parsedRules (some (stripAndInjectRules compile raw)) =
      sysLanPrivateDirect :: (cleanRules compile raw ++ [sysFakeIpGuard]) := rfl
  have system (idx : ℕ) : cleanRule compile sysLanPrivateDirect idx = none ∧
      cleanRule compile sysFakeIpGuard idx = none :=
    ⟨rfl, rfl⟩
  have kept : ∀ entry ∈ (cleanRules compile raw).zipIdx 1,
      cleanRule compile entry.1 entry.2 = some entry.1 := by
    intro entry there
    have clean := survives_of_mem_cleanRules compile (List.fst_mem_of_mem_zipIdx there)
    rw [cleanRule_eq, if_pos clean.1, clean.2]
  rw [cleanRules, rules]
  simp only [List.zipIdx_cons, List.zipIdx_append, List.filterMap_cons, List.filterMap_append,
    List.zipIdx_nil, List.filterMap_nil, (system _).1, (system _).2, List.append_nil]
  rw [List.filterMap_congr kept, List.filterMap_eq_map', List.zipIdx_map_fst]

end Cleaning

/-- How often a rule with the identifier of `guard` occurs in the document -/
def RulesJson.occurrences (document : RulesJson) (guard : RuleJson) : ℕ :=
  (document.rules.getD []).countP fun item => item.id == guard.id

/-- `result` is the normal form of a document. -/
structure NormalForm (compile : String → Option (String → Bool)) (raw : Option RulesJson)
    (result : RulesJson) : Prop where
  /-- The guards stand at the ends, and between them what is kept, in its order. -/
  rules : result.rules = some (sysLanPrivateDirect ::
    ((survivors compile raw).map fun entry => cleaned compile entry.1 entry.2) ++
      [sysFakeIpGuard])
  lanOnce : result.occurrences sysLanPrivateDirect = 1
  fakeOnce : result.occurrences sysFakeIpGuard = 1
  again : stripAndInjectRules compile (some result) = result

theorem countP_cleanRules (compile : String → Option (String → Bool)) (raw : Option RulesJson)
    {guard : RuleJson} (system : guard.isSystem = true) :
    (cleanRules compile raw).countP (fun item => item.id == guard.id) = 0 := by
  rw [List.countP_eq_zero]
  intro item member same
  have user := (survives_of_mem_cleanRules compile member).1
  have also_system : item.isSystem = true := by
    rw [RuleJson.isSystem, beq_iff_eq.mp same]
    exact system
  rw [RuleJson.survives, also_system] at user
  cases user

theorem stripAndInjectRules_normalForm (compile : String → Option (String → Bool))
    (raw : Option RulesJson) : NormalForm compile raw (stripAndInjectRules compile raw) := by
  have occurrences (guard : RuleJson) (system : guard.isSystem = true) :
      (stripAndInjectRules compile raw).occurrences guard =
        [sysLanPrivateDirect, sysFakeIpGuard].countP fun item => item.id == guard.id := by
    rw [RulesJson.occurrences, rules_stripAndInjectRules, Option.getD_some, List.countP_cons,
      List.countP_append, countP_cleanRules compile raw system, Nat.zero_add, ← List.countP_cons]
  constructor
  · rw [rules_stripAndInjectRules, cleanRules_eq, List.cons_append]
  · rw [occurrences sysLanPrivateDirect rfl]
    decide
  · rw [occurrences sysFakeIpGuard rfl]
    decide
  · have rules : (stripAndInjectRules compile (some (stripAndInjectRules compile raw))).rules =
        (stripAndInjectRules compile raw).rules := by
      rw [rules_stripAndInjectRules, cleanRules_stripAndInjectRules, rules_stripAndInjectRules]
    exact congrArg (fun rules => { stripAndInjectRules compile raw with rules := rules }) rules

end Mirage.Routing
