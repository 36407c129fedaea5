import Mirage.Routing.CustomRules.Cidr
import Mirage.Routing.CustomRules.NormalForm

/-!
# What a cleaned rule means

A condition of the user is cleaned and compiled before anything is matched with
it.  Here a condition means something as it is written: it is about the domain,
the address, the port or the protocol of a request.  Conditions without a type
or a pattern are left out, an unknown type is read as that of a suffix, and a
regular expression which does not compile is looked for as a text.  A compiled
rule matches what the conditions which are left mean together.
-/

namespace Mirage.Routing

open Mirage.Foundations

inductive ConditionType where
  | geosite
  | geoip
  | exact
  | keyword
  | suffix
  | regex
  | cidr
  | port
  | protocol
  deriving DecidableEq, Repr

/-- The type which is written, `none` if it is unknown -/
def ConditionType.read (kind : String) : Option ConditionType :=
  match toAsciiLowercase (trim kind) with
  | "geosite" => some geosite
  | "geoip" => some geoip
  | "exact" | "domain_exact" => some exact
  | "keyword" | "domain_keyword" => some keyword
  | "suffix" | "domain_suffix" => some suffix
  | "regex" | "domain_regex" => some regex
  | "cidr" | "ip_cidr" => some cidr
  | "port" => some port
  | "protocol" => some protocol
  | _ => none

/-- The block of a CIDR text; what is not a prefix stands for the address alone. -/
def readBlock (pattern : String) : Option (Ipv4Addr × ℕ) :=
  (splitOnce pattern '/').elim ((parseIpv4 (trim pattern)).map fun ip => (ip, 32)) fun parts =>
    (parseIpv4 (trim parts.1)).map fun ip =>
      (ip, ((writtenNumber (trim parts.2)).filter (· ≤ 32)).getD 32)

/-- A part of a list of ports is a port or a range of them. -/
def PartHasPort (part : String) (port : ℕ) : Prop :=
  match splitOnce (trim part) '-' with
  | none => parsePort (trim part) = some port
  | some ends =>
      ∃ first last, parsePort (trim ends.1) = some first ∧ parsePort (trim ends.2) = some last ∧
        first ≤ port ∧ port ≤ last

section Meaning

variable (compile : String → Option (String → Bool)) (geo : GeoStore) (request : Request)

/-- The request meets a condition with this type and this pattern. -/
def ConditionType.Holds (pattern : String) : ConditionType → Prop
  | geosite => ∃ domain ∈ request.domain, geo.matchGeosite (toAsciiUppercase pattern) domain = true
  | geoip => ∃ ip ∈ request.ip, isFakeIp ip = false ∧
      geo.matchGeoip (toAsciiUppercase pattern) ip = true
  | exact => ∃ domain ∈ request.domain, normalize domain = toAsciiLowercase pattern
  | keyword => ∃ domain ∈ request.domain,
      (toAsciiLowercase pattern).toList <:+: (toAsciiLowercase domain).toList
  | suffix => ∃ domain ∈ request.domain, normalize domain = toAsciiLowercase pattern ∨
      ('.' :: (toAsciiLowercase pattern).toList) <:+ (normalize domain).toList
  | regex => ∃ domain ∈ request.domain,
      (compile pattern).elim (pattern.toList <:+: domain.toList) fun re => re domain = true
  | cidr => ∃ address, request.ip = some (.v4 address) ∧ isFakeIp (.v4 address) = false ∧
      ∃ block ∈ readBlock pattern, SharePrefix block.2 block.1 address
  | port => ∃ port ∈ request.port, ∃ part ∈ splitChar pattern ',', PartHasPort part port
  | protocol => ∃ protocol ∈ request.protocol, toAsciiLowercase protocol = toAsciiLowercase pattern

namespace ConditionJson

def kindText (cond : ConditionJson) : String :=
  trim (cond.type.getD "")

def patternText (cond : ConditionJson) : String :=
  trim (cond.pattern.getD "")

/-- The condition has a type and a pattern. -/
def complete (cond : ConditionJson) : Bool :=
  cond.kindText != "" && cond.patternText != ""

/-- The type is known, and a regular expression compiles. -/
def understood (cond : ConditionJson) : Bool :=
  match ConditionType.read cond.kindText with
  | none => false
  | some .regex => (compile cond.patternText).isSome
  | some _ => true

def Holds (cond : ConditionJson) : Prop :=
  ((ConditionType.read cond.kindText).getD .suffix).Holds compile geo request cond.patternText

/-- The prefix of a block is in the range, or what is taken for it does no harm. -/
def InRange (cond : ConditionJson) : Prop :=
  ConditionType.read cond.kindText = some .cidr →
    ∀ ip text prefixLen, writtenCidr cond.patternText = some (ip, text) →
      writtenNumber text = some prefixLen → Harmless ip prefixLen

end ConditionJson

namespace RuleJson

/-- The conditions of a rule, as they are written -/
def written (item : RuleJson) : List ConditionJson :=
  item.conditions.getD
    (item.single.elim [] fun (kind, pattern) => [⟨some kind, some pattern⟩])

/-- Some or all of the conditions hold, as the logic of the rule says. -/
def Joins (item : RuleJson) (conditions : List ConditionJson) (holds : ConditionJson → Prop) :
    Prop :=
  match MatchLogic.fromStr (item.logic.getD "OR") with
  | .and => ∀ cond ∈ conditions, holds cond
  | .or => ∃ cond ∈ conditions, holds cond

/-- The rule is enabled and its complete conditions hold together. -/
def Satisfied (item : RuleJson) : Prop :=
  item.enabled.getD true = true ∧
    item.Joins (item.written.filter ConditionJson.complete) (·.Holds compile geo request)

/-- Every condition which is written counts, and holds only if it is complete and understood. -/
def StrictlySatisfied (item : RuleJson) : Prop :=
  item.enabled.getD true = true ∧ item.Joins item.written fun cond =>
    cond.complete = true ∧ cond.understood compile = true ∧ cond.Holds compile geo request

end RuleJson

end Meaning

section Compile

variable (compile : String → Option (String → Bool))

def ConditionType.compiled (pattern : String) : ConditionType → ConditionKind
  | geosite => .geoSite (toAsciiUppercase (trim pattern))
  | geoip => .geoIp (toAsciiUppercase (trim pattern))
  | exact => .domainExact (toAsciiLowercase (trim pattern))
  | keyword => .domainKeyword (toAsciiLowercase (trim pattern))
  | suffix => .domainSuffix (toAsciiLowercase (trim pattern))
  | regex => .domainRegex pattern (compile (trim pattern))
  | cidr => .ipCidr pattern (parseCidr pattern)
  | port => .port (parsePorts pattern).1 (parsePorts pattern).2
  | protocol => .protocol (toAsciiLowercase (trim pattern))

/-- Every condition is compiled, by its type if that is known and as a suffix otherwise. -/
theorem parseConditionKind_eq (kind pattern : String) :
    parseConditionKind compile kind pattern =
      some (((ConditionType.read kind).getD .suffix).compiled compile pattern) := by
  unfold parseConditionKind
  rw [ConditionType.read]
  generalize toAsciiLowercase (trim kind) = text
  split
  case h_13 =>
    -- What is left is a suffix or unknown.
    split
    case h_7 | h_8 | h_15 => rfl
    all_goals contradiction
  all_goals rfl

end Compile

section Matching

variable {compile : String → Option (String → Bool)} {geo : GeoStore} {request : Request}
  {pattern : String}

theorem partHasPort_iff {part : String} {port : ℕ} :
    PartHasPort part port ↔
      (if (splitOnce (trim part) '-').isSome then none else parsePort (trim part)) = some port ∨
        ∃ range ∈ (splitOnce (trim part) '-').bind parseRange, range.1 ≤ port ∧ port ≤ range.2 := by
  rw [PartHasPort]
  cases splitOnce (trim part) '-' with
  | none => simp
  | some ends =>
      simp only [Option.isSome_some, if_true, reduceCtorEq, false_or, Option.bind_some, parseRange]
      constructor
      · rintro ⟨first, last, first_eq, last_eq, after, before⟩
        refine ⟨(first, last), ?_, after, before⟩
        rw [first_eq, last_eq]
        exact if_pos (after.trans before)
      · rintro ⟨range, found, after, before⟩
        split at found
        · rename_i first last first_eq last_eq
          split at found
          · cases found
            exact ⟨first, last, first_eq, last_eq, after, before⟩
          · cases found
        · cases found

theorem matches_port :
    (ConditionKind.port (parsePorts pattern).1 (parsePorts pattern).2).matches geo request = true ↔
      ConditionType.port.Holds compile geo request pattern := by
  cases port_eq : request.port with
  | none => simp [ConditionKind.matches, ConditionType.Holds, port_eq]
  | some port =>
      simp only [ConditionKind.matches, ConditionType.Holds, partHasPort_iff, parsePorts, port_eq,
        Option.any_some, Bool.or_eq_true, List.contains_iff_mem, List.any_eq_true,
        List.mem_filterMap, List.mem_map, Bool.and_eq_true, decide_eq_true_eq, Option.mem_def,
        Option.some.injEq, exists_eq_left']
      constructor
      · rintro (⟨_, ⟨part, member, rfl⟩, single⟩ | ⟨range, ⟨_, ⟨part, member, rfl⟩, found⟩, inside⟩)
        · exact ⟨part, member, .inl single⟩
        · exact ⟨part, member, .inr ⟨range, found, inside⟩⟩
      · rintro ⟨part, member, single | ⟨range, found, inside⟩⟩
        · exact .inl ⟨_, ⟨part, member, rfl⟩, single⟩
        · exact .inr ⟨range, ⟨_, ⟨part, member, rfl⟩, found⟩, inside⟩

theorem readBlock_of_written {ip : Ipv4Addr} {text : String}
    (written : writtenCidr pattern = some (ip, text)) :
    readBlock pattern = some (ip, ((writtenNumber text).filter (· ≤ 32)).getD 32) := by
  rcases Option.bind_eq_some_iff.mp written with ⟨parts, split_eq, rest⟩
  rcases Option.map_eq_some_iff.mp rest with ⟨address, parsed, same⟩
  cases same
  simp only [readBlock, split_eq, Option.elim_some, parsed, Option.map_some]

/-- Without a prefix, or without an address, the text stands for at most one address. -/
theorem readBlock_of_not_written (unwritten : writtenCidr pattern = none) :
    ∃ host : Option Ipv4Addr, readBlock pattern = host.map (fun ip => (ip, 32)) ∧
      parseCidr pattern = host.map fun ip => .new ip 32 := by
  rw [writtenCidr, Option.bind_eq_none_iff] at unwritten
  cases parts_eq : splitOnce pattern '/' with
  | none =>
      refine ⟨parseIpv4 (trim pattern), ?_, ?_⟩
      · rw [readBlock, parts_eq, Option.elim_none]
      · simp only [parseCidr, parts_eq, Option.elim_none]
        rfl
  | some parts =>
      have unparsed := unwritten parts parts_eq
      rw [Option.map_eq_none_iff] at unparsed
      refine ⟨none, ?_, ?_⟩
      · simp only [readBlock, parts_eq, Option.elim_some, unparsed, Option.map_none]
      · simp only [parseCidr, parts_eq, Option.elim_some, unparsed, Option.map_none]

/-- A fake address shares no long prefix with a real one. -/
theorem isFakeIp_of_share {ip address : Ipv4Addr} {count : ℕ} (fake : isFakeIp (.v4 ip) = true)
    (deep : 15 ≤ count) (share : SharePrefix count ip address) :
    isFakeIp (.v4 address) = true :=
  isFakeIp_iff.mpr ((isFakeIp_iff.mp fake).trans (share.mono deep))

theorem sharePrefix_taken_iff {ip address : Ipv4Addr} {number : Option ℕ}
    (harmless : ∀ prefixLen, number = some prefixLen → Harmless ip prefixLen)
    (real : isFakeIp (.v4 address) = false) :
    SharePrefix (keptBits 32 (takenPrefix number)) ip address ↔
      SharePrefix ((number.filter (· ≤ 32)).getD 32) ip address := by
  by_cases outside : ∀ prefixLen, number = some prefixLen → 32 < prefixLen
  · have host : (number.filter (· ≤ 32)).getD 32 = 32 := by
      cases number with
      | none => rfl
      | some n =>
          have past : ¬n ≤ 32 := Nat.not_le.mpr (outside n rfl)
          simp [Option.filter, past]
    rw [host]
    rcases keptBits_of_harmless outside harmless with whole | ⟨fake, deep⟩
    · rw [whole]
    · -- Neither block has a real address.
      apply iff_of_false
      · intro share
        rw [isFakeIp_of_share fake deep share] at real
        cases real
      · intro share
        rw [isFakeIp_of_share fake (by decide) share] at real
        cases real
  · push Not at outside
    rcases outside with ⟨n, rfl, bounded⟩
    have small : n ≤ u8Max := le_trans bounded (by decide)
    rw [takenPrefix_of_le small, keptBits_32 (Nat.lt_succ_of_le small), if_pos bounded]
    simp [Option.filter, bounded]

/-- What is not a prefix, or wraps to a whole address, stands for the address alone. -/
theorem matches_cidr
    (inRange : ∀ ip text prefixLen, writtenCidr pattern = some (ip, text) →
      writtenNumber text = some prefixLen → Harmless ip prefixLen) :
    (ConditionKind.ipCidr pattern (parseCidr pattern)).matches geo request = true ↔
      ConditionType.cidr.Holds compile geo request pattern := by
  cases written : writtenCidr pattern with
  | some parts =>
      rcases parts with ⟨ip, text⟩
      rw [matches_iff written, ConditionType.Holds]
      apply exists_congr
      intro address
      apply and_congr_right
      intro _
      apply and_congr_right
      intro real
      rw [readBlock_of_written written,
        sharePrefix_taken_iff (fun n => inRange ip text n written) real]
      simp
  | none =>
      rcases readBlock_of_not_written written with ⟨host, block, cidr⟩
      have whole : keptBits 32 32 = 32 := rfl
      rw [cidr, ConditionType.Holds, block]
      rcases request with ⟨domain, _ | address | address, port, protocol⟩
      · simp [ConditionKind.matches]
      · cases host with
        | none => simp [ConditionKind.matches]
        | some ip => simp [ConditionKind.matches, contains_new, whole]
      · simp [ConditionKind.matches]

theorem matches_compiled {type : ConditionType} (trimmed : trim pattern = pattern)
    (inRange : type = .cidr → ∀ ip text prefixLen, writtenCidr pattern = some (ip, text) →
      writtenNumber text = some prefixLen → Harmless ip prefixLen) :
    (type.compiled compile pattern).matches geo request = true ↔
      type.Holds compile geo request pattern := by
  cases type with
  | cidr => exact matches_cidr (inRange rfl)
  | port => exact matches_port
  | geosite =>
      cases domain : request.domain <;>
        simp [ConditionType.compiled, ConditionKind.matches, ConditionType.Holds, domain, trimmed]
  | geoip =>
      cases ip : request.ip <;>
        simp [ConditionType.compiled, ConditionKind.matches, ConditionType.Holds, ip, trimmed]
  | exact =>
      cases domain : request.domain <;>
        simp [ConditionType.compiled, ConditionKind.matches, ConditionType.Holds, domain, trimmed,
          normalize, toAsciiLowercase_toAsciiLowercase]
  | keyword =>
      cases domain : request.domain <;>
        simp [ConditionType.compiled, ConditionKind.matches, ConditionType.Holds, domain, trimmed,
          containsText]
  | suffix =>
      cases domain : request.domain <;>
        simp [ConditionType.compiled, ConditionKind.matches, ConditionType.Holds, domain, trimmed,
          underRoot, endsWith]
  | regex =>
      rw [ConditionType.compiled, trimmed]
      cases domain : request.domain with
      | none => simp [ConditionKind.matches, ConditionType.Holds, domain]
      | some name =>
          cases compiled : compile pattern <;>
            simp [ConditionKind.matches, ConditionType.Holds, domain, compiled, containsText]
  | protocol =>
      cases protocol : request.protocol <;>
        simp [ConditionType.compiled, ConditionKind.matches, ConditionType.Holds, protocol,
          trimmed, toAsciiLowercase_toAsciiLowercase]

/-! ## Rules -/

theorem validCondition_eq (cond : ConditionJson) :
    validCondition compile cond =
      if cond.complete then some ⟨some cond.kindText, some cond.patternText⟩ else none := by
  simp only [validCondition, isSome_parseConditionKind, and_true, ConditionJson.complete,
    ConditionJson.kindText, ConditionJson.patternText, Bool.and_eq_true, bne_iff_ne]

/-- What is valid of a rule are its complete conditions, without the blanks around them. -/
theorem validConditions_eq (item : RuleJson) :
    validConditions compile item = (item.written.filter ConditionJson.complete).map fun cond =>
      ⟨some cond.kindText, some cond.patternText⟩ := by
  have cleaning (conditions : List ConditionJson) :
      conditions.filterMap (validCondition compile) =
        (conditions.filter ConditionJson.complete).map fun cond =>
          ⟨some cond.kindText, some cond.patternText⟩ := by
    rw [← List.filterMap_eq_map', List.filterMap_filter]
    exact List.filterMap_congr fun cond _ => validCondition_eq cond
  cases conditions_eq : item.conditions with
  | some conditions =>
      rw [validConditions, RuleJson.written, conditions_eq]
      exact cleaning conditions
  | none =>
      rw [validConditions, RuleJson.written, conditions_eq, Option.getD_none, ← cleaning]
      cases item.single with
      | none => rfl
      | some parts =>
          rcases parts with ⟨kind, pattern⟩
          simp only [Option.elim_some, List.filterMap_cons, List.filterMap_nil, validCondition_eq,
            isSome_parseConditionKind, and_true, ConditionJson.complete, ConditionJson.kindText,
            ConditionJson.patternText, Option.getD_some, Bool.and_eq_true, bne_iff_ne]
          split <;> rfl

theorem readConditions_cleaned (item : RuleJson) (idx : ℕ) :
    readConditions compile (cleaned compile item idx) =
      (item.written.filter ConditionJson.complete).map fun cond =>
        ((ConditionType.read cond.kindText).getD .suffix).compiled compile cond.patternText := by
  have conditions : (cleaned compile item idx).conditions =
      some (validConditions compile item) := rfl
  simp only [readConditions, conditions, validConditions_eq, List.filterMap_map]
  rw [← List.filterMap_eq_map']
  exact List.filterMap_congr fun cond _ =>
    parseConditionKind_eq compile cond.kindText cond.patternText

theorem matches_condition {cond : ConditionJson} (inRange : cond.InRange) :
    (((ConditionType.read cond.kindText).getD .suffix).compiled compile
        cond.patternText).matches geo request = true ↔
      cond.Holds compile geo request := by
  apply matches_compiled (trim_trim _)
  intro suffix_or_cidr
  apply inRange
  cases known : ConditionType.read cond.kindText with
  | none =>
      rw [known] at suffix_or_cidr
      cases suffix_or_cidr
  | some type =>
      rw [known] at suffix_or_cidr
      exact congrArg some suffix_or_cidr

/-- A rule which is compiled has the action of its source and matches what that means. -/
theorem matches_readRule {item : RuleJson} {idx place : ℕ} {rule : CompositeRule}
    (read : readRule compile (cleaned compile item idx) place = some rule)
    (inRange : ∀ cond ∈ item.written, cond.InRange) :
    rule.matches geo request = true ↔ item.Satisfied compile geo request := by
  have conditions := @readConditions_cleaned compile item idx
  unfold readRule at read
  split at read
  · cases read
  · rename_i nonempty
    cases read
    rw [conditions] at nonempty ⊢
    have each : ∀ cond ∈ item.written.filter ConditionJson.complete,
        ((((ConditionType.read cond.kindText).getD .suffix).compiled compile
            cond.patternText).matches geo request = true ↔ cond.Holds compile geo request) := by
      intro cond member
      exact matches_condition (inRange cond (List.mem_filter.mp member).1)
    rw [Bool.not_eq_true] at nonempty
    simp only [CompositeRule.matches, RuleJson.Satisfied, RuleJson.Joins, cleaned,
      Option.getD_some, nonempty, Bool.or_false]
    cases item.enabled.getD true with
    | false => simp
    | true =>
        simp only [Bool.not_true, Bool.false_eq_true, if_false, true_and]
        cases MatchLogic.fromStr (item.logic.getD "OR") with
        | or =>
            simp only [List.any_map, List.any_eq_true, Function.comp_apply]
            apply exists_congr
            intro cond
            apply and_congr_right
            exact each cond
        | and =>
            simp only [List.all_map, List.all_eq_true, Function.comp_apply]
            apply forall₂_congr
            exact each

/-- Every rule which is compiled is one of the system or comes from a rule of the user. -/
theorem source_of_mem_rules {json : Option RulesJson} {state : RouterState} {rule : CompositeRule}
    (member : rule ∈ (setCustomRules compile json state).rules) :
    (∃ guard ∈ [sysLanPrivateDirect, sysFakeIpGuard], readRule compile guard 0 = some rule) ∨
      ∃ item ∈ parsedRules json, item.isSystem = false ∧ ∃ idx place,
        readRule compile (cleaned compile item idx) place = some rule := by
  rw [setCustomRules, rules_stripAndInjectRules, Option.getD_some, List.mem_filterMap] at member
  rcases member with ⟨entry, there, read⟩
  have source := List.fst_mem_of_mem_zipIdx there
  rw [List.mem_cons, List.mem_append, List.mem_singleton] at source
  rcases source with lan | kept | fake
  · refine .inl ⟨sysLanPrivateDirect, by simp, ?_⟩
    rwa [← readRule_of_id rfl entry.2, ← lan]
  · right
    rw [cleanRules_eq, List.mem_map] at kept
    rcases kept with ⟨origin, survives, same⟩
    rcases List.mem_filter.mp survives with ⟨listed, kept⟩
    simp only [RuleJson.survives, Bool.and_eq_true, Bool.not_eq_true'] at kept
    refine ⟨origin.1, List.fst_mem_of_mem_zipIdx listed, kept.1, origin.2, entry.2, ?_⟩
    rwa [same]
  · refine .inl ⟨sysFakeIpGuard, by simp, ?_⟩
    rwa [← readRule_of_id rfl entry.2, ← fake]

end Matching

/--
Of every document, a compiled rule which is not one of the system has a source:
it matches exactly what the complete conditions of the source mean together.
-/
theorem setCustomRules_matches {compile : String → Option (String → Bool)}
    {json : Option RulesJson} {state : RouterState} {rule : CompositeRule}
    (member : rule ∈ (setCustomRules compile json state).rules) :
    (∃ guard ∈ [sysLanPrivateDirect, sysFakeIpGuard], readRule compile guard 0 = some rule) ∨
      ∃ item ∈ parsedRules json, item.isSystem = false ∧
        rule.action = .fromStr (item.action.getD "proxy") ∧
          ((∀ cond ∈ item.written, cond.InRange) → ∀ geo request,
            (rule.matches geo request = true ↔ item.Satisfied compile geo request)) := by
  rcases source_of_mem_rules member with system | ⟨item, listed, user, idx, place, read⟩
  · exact .inl system
  · refine .inr ⟨item, listed, user, ?_, fun inRange geo request => matches_readRule read inRange⟩
    unfold readRule at read
    split at read
    · cases read
    · cases read
      rfl

/-- A rule which joins a port, a condition without a type and one of an unknown type -/
def mistypedRule : RuleJson where
  id := some "work"
  name := none
  enabled := none
  logic := some "AND"
  action := some "direct"
  conditions := some [⟨some "port", some "443"⟩, ⟨some " ", some "10.0.0.0/8"⟩,
    ⟨some "hostname", some "google.com"⟩]
  type := none
  kind := none
  pattern := none

def mistypedDocument : RulesJson :=
  ⟨some [mistypedRule], none⟩

/-- What is compiled of the rule -/
def mistypedCompiled : CompositeRule :=
  ⟨"work", "自定义规则", true, .and, [.port [443] [], .domainSuffix "google.com"], .direct⟩

/-- A connection to a public address -/
def mistypedRequest : Request :=
  ⟨some "www.google.com", some (.v4 (ipv4 8 8 8 8)), some 443, some "tcp"⟩

theorem readConditions_mistyped :
    readConditions (fun _ => none) (cleaned (fun _ => none) mistypedRule 0) =
      [.port [443] [], .domainSuffix "google.com"] := by
  have complete : mistypedRule.written.filter ConditionJson.complete =
      [⟨some "port", some "443"⟩, ⟨some "hostname", some "google.com"⟩] := by
    decide +kernel
  have port : ConditionType.read (trim "port") = some .port := by decide +kernel
  have unknown : ConditionType.read (trim "hostname") = none := by decide +kernel
  have ports : parsePorts (trim "443") = ([443], []) := by decide +kernel
  have domain : toAsciiLowercase (trim (trim "google.com")) = "google.com" := by decide +kernel
  rw [readConditions_cleaned, complete]
  simp [ConditionJson.kindText, ConditionJson.patternText, port, unknown, ports, domain,
    ConditionType.compiled]

theorem mem_rules_mistyped : mistypedCompiled ∈
    (setCustomRules (fun _ => none) (some mistypedDocument) (.initial .empty)).rules := by
  have valid : validConditions (fun _ => none) mistypedRule =
      [⟨some "port", some "443"⟩, ⟨some "hostname", some "google.com"⟩] := by
    rw [validConditions_eq]
    decide +kernel
  have survives : mistypedRule.survives (fun _ => none) = true := by
    rw [RuleJson.survives, valid]
    decide
  have kept : cleanRules (fun _ => none) (some mistypedDocument) =
      [cleaned (fun _ => none) mistypedRule 0] := by
    have document : (parsedRules (some mistypedDocument)).zipIdx = [(mistypedRule, 0)] := rfl
    rw [cleanRules_eq, survivors, document, List.filter_singleton, survives]
    rfl
  have read : readRule (fun _ => none) (cleaned (fun _ => none) mistypedRule 0) 1 =
      some mistypedCompiled := by
    have action : RuleAction.fromStr "direct" = .direct := by decide +kernel
    have logic : MatchLogic.fromStr "AND" = .and := by decide +kernel
    rw [readRule, readConditions_mistyped]
    simp [cleaned, mistypedRule, mistypedCompiled, action, logic]
  rw [setCustomRules, rules_stripAndInjectRules, Option.getD_some, kept, List.mem_filterMap]
  exact ⟨(cleaned (fun _ => none) mistypedRule 0, 1), by simp, read⟩

theorem setCustomRules_matches_mistyped :
    (∃ guard ∈ [sysLanPrivateDirect, sysFakeIpGuard],
        readRule (fun _ => none) guard 0 = some mistypedCompiled) ∨
      ∃ item ∈ parsedRules (some mistypedDocument), item.isSystem = false ∧
        mistypedCompiled.action = .fromStr (item.action.getD "proxy") ∧
          ((∀ cond ∈ item.written, cond.InRange) → ∀ geo request,
            (mistypedCompiled.matches geo request = true ↔
              item.Satisfied (fun _ => none) geo request)) :=
  setCustomRules_matches mem_rules_mistyped

/-- The rule matches although two of its three conditions are not met as they are written. -/
theorem not_strictlySatisfied_mistyped :
    mistypedCompiled ∈
        (setCustomRules (fun _ => none) (some mistypedDocument) (.initial .empty)).rules ∧
      mistypedCompiled.matches .empty mistypedRequest = true ∧
      ¬mistypedRule.StrictlySatisfied (fun _ => none) .empty mistypedRequest := by
  refine ⟨mem_rules_mistyped, by decide +kernel, ?_⟩
  rintro ⟨_, joined⟩
  have logic : MatchLogic.fromStr (mistypedRule.logic.getD "OR") = .and := by decide +kernel
  rw [RuleJson.Joins, logic] at joined
  have blank := (joined ⟨some " ", some "10.0.0.0/8"⟩ (by simp [RuleJson.written, mistypedRule])).1
  revert blank
  decide +kernel

end Mirage.Routing
