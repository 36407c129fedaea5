import Mirage.Routing.Gate
import Mirage.Routing.Partial

/-!
# Other spellings of a name

A name may be asked for in capital letters, and with a dot at its end.  All that a
decision reads of it is the same then, but for two kinds of conditions: a keyword
sees the dot, and an expression the dot and the case.
-/

namespace Mirage.Routing

open Mirage.Foundations

/-- The same name, with letters of another case or with one dot more or less at its end -/
def Respelled (domain other : String) : Prop :=
  toAsciiLowercase other = toAsciiLowercase domain ∨
    toAsciiLowercase other = toAsciiLowercase domain ++ "." ∨
      toAsciiLowercase domain = toAsciiLowercase other ++ "."

instance (domain other : String) : Decidable (Respelled domain other) :=
  inferInstanceAs (Decidable (_ ∨ _ ∨ _))

/-- The request for a name -/
def Request.spelled (request : Request) (domain : String) : Request :=
  { request with domain := some domain }

theorem normalize_eq_trim (domain : String) :
    normalize domain = trimEndMatches (toAsciiLowercase domain) '.' := by
  have stable : (fun char : Char => char.toLower == '.') = fun char => char == '.' :=
    funext toLower_eq_dot
  unfold normalize trimEndMatches toAsciiLowercase
  rw [String.toList_ofList, String.toList_ofList, List.rdropWhile, List.rdropWhile,
    ← List.map_reverse, List.dropWhile_map, Function.comp_def, stable, List.map_reverse]

theorem trimEndMatches_dot (text : String) :
    trimEndMatches (text ++ ".") '.' = trimEndMatches text '.' := by
  have dot : ".".toList = ['.'] := rfl
  rw [trimEndMatches, trimEndMatches, String.toList_append, dot,
    List.rdropWhile_concat_pos _ _ _ (by rfl)]

theorem Respelled.normalize_eq {domain other : String} (respelled : Respelled domain other) :
    normalize other = normalize domain := by
  rw [normalize_eq_trim, normalize_eq_trim]
  rcases respelled with same | dotted | dotted
  · rw [same]
  · rw [dotted, trimEndMatches_dot]
  · rw [dotted, trimEndMatches_dot]

theorem Respelled.symm {domain other : String} (respelled : Respelled domain other) :
    Respelled other domain := by
  rcases respelled with same | dotted | dotted
  · exact .inl same.symm
  · exact .inr (.inr dotted)
  · exact .inr (.inl dotted)

/-- What depends on the normal form only is the same for every spelling. -/
theorem Respelled.congr {Answer : Type} {answer : String → Answer} {domain other : String}
    (respelled : Respelled domain other) (normal : ∀ name, answer (normalize name) = answer name) :
    answer other = answer domain := by
  rw [← normal other, respelled.normalize_eq, normal]

theorem toUpper_val (char : Char) : char.toUpper.val.toNat =
    if 97 ≤ char.val.toNat ∧ char.val.toNat ≤ 122 then char.val.toNat - 32
    else char.val.toNat := by
  have lower : ('a'.val ≤ char.val ∧ char.val ≤ 'z'.val) ↔
      97 ≤ char.val.toNat ∧ char.val.toNat ≤ 122 := by
    rfl
  delta Char.toUpper
  split
  · rename_i isLower
    rw [if_pos (lower.mp isLower)]
    have bound := lower.mp isLower
    have shift : ('A'.val - 'a'.val).toNat = 2 ^ 32 - 32 := by decide
    change (char.val + ('A'.val - 'a'.val)).toNat = _
    rw [UInt32.toNat_add, shift]
    omega
  · rename_i notLower
    rw [if_neg fun isLower => notLower (lower.mpr isLower)]

theorem toLower_toUpper (char : Char) : char.toUpper.toLower = char.toLower := by
  apply char_ext
  have upper := toUpper_val char
  rw [toLower_val, toLower_val]
  split at upper <;> split <;> split <;> omega

/-- A letter in lower case is not the same in upper case. -/
theorem toLower_eq_of_toUpper {char : Char} (same : char.toLower.toUpper = char.toLower) :
    char.toLower = char := by
  apply char_ext
  have upper := toUpper_val char.toLower
  rw [same, toLower_val] at upper
  rw [toLower_val]
  split
  · rename_i capital
    rw [if_pos capital, if_pos (by omega)] at upper
    omega
  · rfl

theorem toAsciiLowercase_toAsciiUppercase (text : String) :
    toAsciiLowercase (toAsciiUppercase text) = toAsciiLowercase text := by
  rw [toAsciiLowercase, toAsciiUppercase, String.toList_ofList, List.map_map]
  congr 1
  exact List.map_congr_left fun char _ => toLower_toUpper char

section Contains

variable {text pattern : String}

/-- A dot at the end is part of no pattern which does not end with one. -/
theorem containsText_dot (undotted : pattern.toList.getLast? ≠ some '.') (text : String) :
    containsText (text ++ ".") pattern = containsText text pattern := by
  have dot : (text ++ ".").toList = text.toList ++ ['.'] := String.toList_append
  rw [containsText, containsText, dot, decide_eq_decide, List.infix_concat_iff,
    List.suffix_concat_iff]
  constructor
  · rintro ((empty | ⟨front, ends, _⟩) | inside)
    · rw [empty]
      exact List.nil_infix
    · rw [ends, List.getLast?_concat] at undotted
      exact absurd rfl undotted
    · exact inside
  · exact .inr

theorem toAsciiLowercase_of_containsText (inside : containsText (toAsciiLowercase text) pattern) :
    toAsciiLowercase pattern = pattern := by
  have part := of_decide_eq_true inside
  rw [toAsciiLowercase, String.toList_ofList] at part
  rw [toAsciiLowercase]
  apply String.toList_inj.mp
  rw [String.toList_ofList]
  refine (List.map_congr_left fun char there => ?_).trans (List.map_id _)
  obtain ⟨before, -, same⟩ := List.mem_map.mp (part.subset there)
  rw [← same]
  exact toLower_toLower before

/-- A pattern without letters is found whatever the case of the letters around it. -/
theorem containsText_toAsciiLowercase (lower : toAsciiLowercase pattern = pattern)
    (upper : toAsciiUppercase pattern = pattern) (text : String) :
    containsText (toAsciiLowercase text) pattern = containsText text pattern := by
  have lower_chars := congrArg String.toList lower
  have upper_chars := congrArg String.toList upper
  rw [toAsciiLowercase, String.toList_ofList] at lower_chars
  rw [toAsciiUppercase, String.toList_ofList] at upper_chars
  rw [containsText, containsText, decide_eq_decide, toAsciiLowercase, String.toList_ofList]
  constructor
  · intro inside
    obtain ⟨part, found, same⟩ := List.infix_map_iff.mp inside
    have unchanged : part = pattern.toList := by
      rw [same]
      refine ((List.map_congr_left fun char there => ?_).trans (List.map_id _)).symm
      apply toLower_eq_of_toUpper
      rw [same] at upper_chars
      rw [List.map_map] at upper_chars
      exact List.map_inj_left.mp upper_chars char there
    rw [← unchanged]
    exact found
  · intro inside
    rw [← lower_chars]
    exact inside.map Char.toLower

theorem containsText_self (text : String) : containsText text text = true :=
  decide_eq_true List.infix_rfl

theorem containsText_of_length {text pattern : String}
    (same : text.toList.length = pattern.toList.length) (inside : containsText text pattern) :
    text = pattern :=
  String.toList_inj.mp ((of_decide_eq_true inside).eq_of_length same.symm).symm

theorem containsText_eq_false {text pattern : String}
    (shorter : text.toList.length < pattern.toList.length) :
    containsText text pattern = false :=
  decide_eq_false fun inside => absurd inside.length_le (by omega)

theorem exists_of_dotted (dotted : pattern.toList.getLast? = some '.') :
    ∃ short, pattern = short ++ "." := by
  obtain ⟨front, ends⟩ := List.getLast?_eq_some_iff.mp dotted
  refine ⟨.ofList front, String.toList_inj.mp ?_⟩
  rw [ends, String.toList_append, String.toList_ofList]
  rfl

theorem length_toAsciiLowercase (text : String) :
    (toAsciiLowercase text).toList.length = text.toList.length := by
  rw [toAsciiLowercase, String.toList_ofList, List.length_map]

theorem length_toAsciiUppercase (text : String) :
    (toAsciiUppercase text).toList.length = text.toList.length := by
  rw [toAsciiUppercase, String.toList_ofList, List.length_map]

theorem length_dotted (text : String) :
    (text ++ ".").toList.length = text.toList.length + 1 := by
  rw [String.toList_append, List.length_append]
  rfl

end Contains

section Conditions

/-- The condition tells no spellings of a name apart. -/
def ConditionKind.Blind : ConditionKind → Prop
  | .domainKeyword s => toAsciiLowercase s = s → s.toList.getLast? ≠ some '.'
  | .domainRegex _ (some re) => ∀ domain other, Respelled domain other → re other = re domain
  | .domainRegex raw none =>
      toAsciiLowercase raw = raw ∧ toAsciiUppercase raw = raw ∧ raw.toList.getLast? ≠ some '.'
  | _ => True

variable {domain other : String}

theorem containsText_respelled {pattern : String} (respelled : Respelled domain other)
    (undotted : pattern.toList.getLast? ≠ some '.') :
    containsText (toAsciiLowercase other) pattern =
      containsText (toAsciiLowercase domain) pattern := by
  rcases respelled with same | dotted | dotted
  · rw [same]
  · rw [dotted, containsText_dot undotted]
  · rw [dotted, containsText_dot undotted]

theorem ConditionKind.matches_respelled {condition : ConditionKind} (blind : condition.Blind)
    (geo : GeoStore) (request : Request) (respelled : Respelled domain other) :
    condition.matches geo (request.spelled other) =
      condition.matches geo (request.spelled domain) := by
  cases condition with
  | geoSite tag =>
      have site : geo.matchGeosite tag other = geo.matchGeosite tag domain :=
        respelled.congr (geo.matchGeosite_normalize tag)
      simp only [ConditionKind.matches, Request.spelled, Option.any_some, site]
  | geoIp code => rfl
  | domainSuffix s =>
      simp only [ConditionKind.matches, Request.spelled, Option.any_some,
        respelled.normalize_eq]
  | domainExact s =>
      have same : toAsciiLowercase (trimEndMatches other '.') =
          toAsciiLowercase (trimEndMatches domain '.') := respelled.normalize_eq
      simp only [ConditionKind.matches, Request.spelled, Option.any_some, same]
  | domainKeyword s =>
      by_cases lower : toAsciiLowercase s = s
      · exact containsText_respelled respelled (blind lower)
      · have absent (name : String) : containsText (toAsciiLowercase name) s = false := by
          by_contra there
          rw [Bool.not_eq_false] at there
          exact lower (toAsciiLowercase_of_containsText there)
        exact (absent other).trans (absent domain).symm
  | domainRegex raw re =>
      cases re with
      | some re => exact blind domain other respelled
      | none =>
          obtain ⟨lower, upper, undotted⟩ := blind
          have same := containsText_respelled respelled undotted
          rwa [containsText_toAsciiLowercase lower upper,
            containsText_toAsciiLowercase lower upper] at same
  | ipCidr raw cidr => rfl
  | port singles ranges => rfl
  | protocol proto => rfl

theorem respelled_dotted (name : String) : Respelled name (name ++ ".") := by
  right; left
  apply String.toList_inj.mp
  simp only [toAsciiLowercase, String.toList_append, String.toList_ofList, List.map_append]
  rfl

theorem respelled_toAsciiLowercase (name : String) : Respelled name (toAsciiLowercase name) :=
  .inl (toAsciiLowercase_toAsciiLowercase name)

theorem respelled_toAsciiUppercase (name : String) : Respelled name (toAsciiUppercase name) :=
  .inl (toAsciiLowercase_toAsciiUppercase name)

/-- These are the conditions which match one spelling of a name where they match another. -/
theorem ConditionKind.blind_iff (condition : ConditionKind) :
    condition.Blind ↔ ∀ geo (request : Request) domain other, Respelled domain other →
      condition.matches geo (request.spelled other) =
        condition.matches geo (request.spelled domain) := by
  constructor
  · exact fun blind geo request domain other => matches_respelled blind geo request
  intro alike
  have found {domain other : String} (respelled : Respelled domain other) :=
    alike .empty ⟨none, none, none, none⟩ domain other respelled
  cases condition with
  | domainKeyword s =>
      intro lower dotted
      obtain ⟨short, ends⟩ := exists_of_dotted dotted
      have same : containsText (toAsciiLowercase (short ++ ".")) s =
          containsText (toAsciiLowercase short) s := found (respelled_dotted short)
      have length := length_dotted short
      rw [← ends, lower, containsText_self,
        containsText_eq_false (by rw [length_toAsciiLowercase, ends]; omega)] at same
      cases same
  | domainRegex raw re =>
      cases re with
      | some re => exact fun domain other respelled => found respelled
      | none =>
          have lower : containsText (toAsciiLowercase raw) raw = containsText raw raw :=
            found (respelled_toAsciiLowercase raw)
          have upper : containsText (toAsciiUppercase raw) raw = containsText raw raw :=
            found (respelled_toAsciiUppercase raw)
          rw [containsText_self] at lower upper
          refine ⟨containsText_of_length (length_toAsciiLowercase raw) lower,
            containsText_of_length (length_toAsciiUppercase raw) upper, fun dotted => ?_⟩
          obtain ⟨short, ends⟩ := exists_of_dotted dotted
          have same : containsText (short ++ ".") raw = containsText short raw :=
            found (respelled_dotted short)
          have length := length_dotted short
          rw [← ends, containsText_self, containsText_eq_false (by rw [ends]; omega)] at same
          cases same
  | _ => trivial

end Conditions

namespace RouterState

variable {domain other : String}

/-- The action of the first rule which decides a request -/
def firstRuled (state : RouterState) (request : Request) : Option RuleAction :=
  (state.rules.find? (state.decides request)).map CompositeRule.action

/-- The action for a request, and where it comes from -/
def answer (state : RouterState) (request : Request) : RuleAction × DecisionSource :=
  ((state.routeDecisionSourced request).1, (state.routeDecisionSourced request).2.1)

theorem routeUnruled_source (state : RouterState) (request : Request) :
    (state.routeUnruled request).2.1 ≠ .rule := by
  unfold routeUnruled
  split
  · exact nofun
  split
  · exact nofun
  split <;> exact nofun

theorem answer_of_reaches {state : RouterState} {request : Request}
    (reaches : state.ReachesRules request) :
    state.answer request =
      (state.firstRuled request).elim
        ((state.routeUnruled request).1, (state.routeUnruled request).2.1)
        fun action => (action, .rule) := by
  rw [answer, routeDecisionSourced_ruled reaches, ruledDecision, firstRuled]
  cases state.rules.find? (state.decides request) <;> rfl

theorem routeUnruled_respelled (state : RouterState) (request : Request)
    (respelled : Respelled domain other) :
    state.routeUnruled (request.spelled other) = state.routeUnruled (request.spelled domain) := by
  have cn : state.geo.isCnDomain other = state.geo.isCnDomain domain :=
    respelled.congr state.geo.isCnDomain_normalize
  have isCn : (request.spelled other).domain.any state.geo.isCnDomain =
      (request.spelled domain).domain.any state.geo.isCnDomain := by
    rw [Request.spelled, Request.spelled, Option.any_some, Option.any_some, cn]
  have learned : state.isDynamicDirectDomain other = state.isDynamicDirectDomain domain :=
    respelled.congr state.isDynamicDirectDomain_normalize
  have direct : (request.spelled other).domain.any
        (fun dom => state.isDynamicDirectDomain dom == some true) =
      (request.spelled domain).domain.any
        (fun dom => state.isDynamicDirectDomain dom == some true) := by
    rw [Request.spelled, Request.spelled, Option.any_some, Option.any_some, learned]
  have ip : (request.spelled other).ip = (request.spelled domain).ip := rfl
  simp only [routeUnruled, isCn, direct, ip]

theorem reachesRules_respelled {state : RouterState} {request : Request}
    (respelled : Respelled domain other) :
    state.ReachesRules (request.spelled other) ↔ state.ReachesRules (request.spelled domain) := by
  have isLan : isLanOrRouterDomain other = isLanOrRouterDomain domain :=
    respelled.congr isLanOrRouterDomain_normalize
  simp only [ReachesRules, Request.spelled, Option.any_some, isLan]

theorem decides_respelled {rule : CompositeRule}
    (blind : ∀ condition ∈ rule.conditions, condition.Blind) (state : RouterState)
    (request : Request) (respelled : Respelled domain other) :
    state.decides (request.spelled other) rule = state.decides (request.spelled domain) rule := by
  have foreign : isKnownNonCnDomain other = isKnownNonCnDomain domain :=
    respelled.congr isKnownNonCnDomain_normalize
  have matched : rule.matches state.geo (request.spelled other) =
      rule.matches state.geo (request.spelled domain) :=
    CompositeRule.matches_congr_conditions fun condition there =>
      ConditionKind.matches_respelled (blind condition there) state.geo request respelled
  rw [decides, decides, matched, Request.spelled, Request.spelled, Option.any_some,
    Option.any_some, foreign]

theorem firstRuled_respelled {state : RouterState}
    (blind : ∀ rule ∈ state.rules, ∀ condition ∈ rule.conditions, condition.Blind)
    (request : Request) (respelled : Respelled domain other) :
    state.firstRuled (request.spelled other) = state.firstRuled (request.spelled domain) := by
  have same (rule : CompositeRule) (there : rule ∈ state.rules) :=
    decides_respelled (blind rule there) state request respelled
  rw [firstRuled, firstRuled, find?_eq_of_agree (fun rule found => ?_) fun rule found => ?_]
  · rw [← same rule (List.mem_of_find?_eq_some found)]
    exact List.find?_some found
  · rw [same rule (List.mem_of_find?_eq_some found)]
    exact List.find?_some found

/-- Requests which do not reach the rules are answered alike. -/
theorem answer_respelled_early {state : RouterState} {request : Request}
    (respelled : Respelled domain other)
    (early : ¬state.ReachesRules (request.spelled domain)) :
    state.answer (request.spelled other) = state.answer (request.spelled domain) := by
  have isLan : isLanOrRouterDomain other = isLanOrRouterDomain domain :=
    respelled.congr isLanOrRouterDomain_normalize
  have decided : state.routeDecisionSourced (request.spelled other) =
      state.routeDecisionSourced (request.spelled domain) := by
    have lan : (request.spelled other).domain.any isLanOrRouterDomain =
        (request.spelled domain).domain.any isLanOrRouterDomain := by
      rw [Request.spelled, Request.spelled, Option.any_some, Option.any_some, isLan]
    have ip : (request.spelled other).ip = (request.spelled domain).ip := rfl
    unfold routeDecisionSourced
    simp only [lan, ip]
    split
    · rfl
    split
    · rfl
    split
    · rfl
    split
    · rfl
    split
    · rfl
    · rename_i notServer notPrivate notLan notProxy notDirect
      refine absurd ⟨notServer, ?_, ?_, notProxy, notDirect⟩ early
      · simpa using notPrivate
      · simpa using notLan
  rw [answer, answer, decided]

/--
Two spellings of a name are answered alike if nothing is left to the rules or the
first rules to decide have one action, and so they are where all conditions are blind.
-/
theorem answer_respelled_iff (state : RouterState) (request : Request)
    (respelled : Respelled domain other) :
    (state.answer (request.spelled other) = state.answer (request.spelled domain) ↔
        (state.ReachesRules (request.spelled domain) →
          state.firstRuled (request.spelled other) = state.firstRuled (request.spelled domain))) ∧
      ((∀ rule ∈ state.rules, ∀ condition ∈ rule.conditions, condition.Blind) →
        state.answer (request.spelled other) = state.answer (request.spelled domain)) := by
  have exact_when : state.answer (request.spelled other) = state.answer (request.spelled domain) ↔
      (state.ReachesRules (request.spelled domain) →
        state.firstRuled (request.spelled other) =
          state.firstRuled (request.spelled domain)) := by
    by_cases reaches : state.ReachesRules (request.spelled domain)
    · rw [answer_of_reaches reaches, answer_of_reaches ((reachesRules_respelled respelled).mpr
        reaches), routeUnruled_respelled state request respelled, imp_iff_right reaches]
      have unruled := state.routeUnruled_source (request.spelled domain)
      generalize state.routeUnruled (request.spelled domain) = otherwise at unruled
      cases state.firstRuled (request.spelled other) with
      | none =>
          cases state.firstRuled (request.spelled domain) with
          | none => exact iff_of_true rfl rfl
          | some action =>
              exact iff_of_false (fun same => unruled (Prod.mk.inj same).2) nofun
      | some later =>
          cases state.firstRuled (request.spelled domain) with
          | none => exact iff_of_false (fun same => unruled (Prod.mk.inj same).2.symm) nofun
          | some action =>
              exact ⟨fun same => congrArg some (Prod.mk.inj same).1,
                fun same => by rw [Option.some.inj same]⟩
    · exact iff_of_true (answer_respelled_early respelled reaches) fun reached =>
        absurd reached reaches
  exact ⟨exact_when, fun blind => exact_when.mpr fun _ =>
    firstRuled_respelled blind request respelled⟩

theorem answer_respelled_initial :
    (initial .empty).answer ((Request.ofDomain "example.com").spelled "EXAMPLE.com.") =
      (initial .empty).answer ((Request.ofDomain "example.com").spelled "example.com") :=
  (answer_respelled_iff (initial .empty) (.ofDomain "example.com") (by decide)).2 nofun

/-- A state with one rule, which blocks what a condition matches -/
def blocking (condition : ConditionKind) : RouterState :=
  { initial .empty with rules := [⟨"1", "ads", true, .or, [condition], .block⟩] }

/-- Capital letters get around a regular expression, and the dot around a keyword. -/
theorem not_answer_respelled :
    let regex : ConditionKind :=
      .domainRegex "^ads\\.example\\.com$" (some fun text => text == "ads.example.com")
    let keyword : ConditionKind := .domainKeyword "example.com."
    let known := Request.ofDomain "ads.example.com"
    Respelled "ads.example.com" "ADS.example.com" ∧
      (blocking regex).answer (known.spelled "ads.example.com") = (.block, .rule) ∧
      (blocking regex).answer (known.spelled "ADS.example.com") = (.proxy, .default) ∧
      Respelled "ads.example.com." "ads.example.com" ∧
      (blocking keyword).answer (known.spelled "ads.example.com.") = (.block, .rule) ∧
      (blocking keyword).answer (known.spelled "ads.example.com") = (.proxy, .default) ∧
      ¬∀ (state : RouterState) (request : Request) (domain other : String),
        Respelled domain other →
          state.answer (request.spelled other) = state.answer (request.spelled domain) := by
  intro regex keyword known
  have cased : Respelled "ads.example.com" "ADS.example.com" := by decide +kernel
  have lower : (blocking regex).answer (known.spelled "ads.example.com") = (.block, .rule) := by
    decide +kernel
  have upper : (blocking regex).answer (known.spelled "ADS.example.com") =
      (.proxy, .default) := by
    decide +kernel
  refine ⟨cased, lower, upper, by decide +kernel, by decide +kernel, by decide +kernel, ?_⟩
  intro alike
  have same := alike (blocking regex) known "ads.example.com" "ADS.example.com" cased
  rw [lower, upper] at same
  cases same

end RouterState

end Mirage.Routing
