import Mirage.Routing.CustomRules
import Mirage.Shell.JvmText

/-!
# The store of the rules

Rules are stored as a JSON text, and handed to the kernel as another one.  A
rule has a list of conditions; the older fields `type`, `kind` and `pattern`
make up its only condition where this list is empty.  `lowercase` is the
function of Kotlin strings, and `draw` the random identifiers.
-/

namespace Mirage.Shell

open Mirage.Foundations Mirage.Routing

/-- A random `java.util.UUID`, by its hexadecimal digits -/
structure Uuid where
  digits : Fin 32 → Fin 16

def Uuid.text (uuid : Uuid) : String :=
  let digits := List.ofFn fun index => Nat.digitChar (uuid.digits index)
  String.ofList (digits.take 8 ++ '-' :: (digits.drop 8).take 4 ++ '-' :: (digits.drop 12).take 4 ++
    '-' :: (digits.drop 16).take 4 ++ '-' :: digits.drop 20)

/-- No random identifier looks like one of the system. -/
theorem Uuid.not_system (uuid : Uuid) : "sys_".toList.isPrefixOf uuid.text.toList = false := by
  have first : ∀ digit : Fin 16, ('s' == Nat.digitChar digit) = false := by decide
  simp only [Uuid.text, List.ofFn_succ, List.take_succ_cons, List.cons_append,
    String.toList_ofList]
  rw [show "sys_".toList = 's' :: "ys_".toList from rfl, List.isPrefixOf_cons_cons, first,
    Bool.false_and]

structure RuleCondition where
  type : String
  pattern : String
  deriving DecidableEq, Repr

structure Rule where
  id : String
  name : String
  enabled : Bool
  logic : String
  conditions : List RuleCondition
  type : String
  kind : String
  pattern : String
  action : String
  deriving DecidableEq, Repr

/-- `mirage_rules`; `rulesJson` is `none` where no array is stored. -/
structure RulePrefs where
  rulesJson : Option (List RuleJson)
  defaultAction : Option String
  deriving DecidableEq, Repr

section Conditions

variable (lowercase : String → String)

namespace Rule

def conditionType (kind : String) : String :=
  match lowercase kind with
  | "geosite" => "geosite"
  | "geoip" => "geoip"
  | "exact" => "domain_exact"
  | "keyword" => "domain_keyword"
  | "regex" => "domain_regex"
  | "cidr" => "ip_cidr"
  | "port" => "port"
  | "protocol" => "protocol"
  | _ => "domain_suffix"

def effectiveConditions (rule : Rule) : List RuleCondition :=
  if rule.conditions ≠ [] then rule.conditions
  else if isBlank rule.pattern then []
  else [⟨conditionType lowercase rule.kind, rule.pattern⟩]

def displayName (rule : Rule) : String :=
  if !isBlank rule.name then rule.name
  else if !isBlank rule.pattern then rule.pattern
  else ((rule.effectiveConditions lowercase).head?.map RuleCondition.pattern).getD "未命名规则"

def conditionsJson (rule : Rule) : List ConditionJson :=
  (rule.effectiveConditions lowercase).map fun c => ⟨some c.type, some c.pattern⟩

/-- A rule as `saveRules` writes it -/
def saved (rule : Rule) : RuleJson where
  id := some rule.id
  name := some rule.name
  enabled := some rule.enabled
  logic := some rule.logic
  action := some rule.action
  conditions := some (rule.conditionsJson lowercase)
  type := some rule.type
  kind := some rule.kind
  pattern := some rule.pattern

/-- A rule as `toJson` writes it -/
def toJson (rule : Rule) : RuleJson where
  id := some rule.id
  name := some (rule.displayName lowercase)
  enabled := some rule.enabled
  logic := some rule.logic
  action := some (lowercase (jvmTrim rule.action))
  conditions := some (rule.conditionsJson lowercase)
  type := none
  kind := none
  pattern := none

/-- A rule as `getRules` reads it -/
def read (item : RuleJson) (uuid : Uuid) : Rule where
  id := item.id.getD uuid.text
  name := item.name.getD ""
  enabled := item.enabled.getD true
  logic := item.logic.getD "OR"
  conditions := (item.conditions.getD []).map fun c =>
    ⟨c.type.getD "domain_suffix", c.pattern.getD ""⟩
  type := item.type.getD "domain"
  kind := item.kind.getD "suffix"
  pattern := item.pattern.getD ""
  action := item.action.getD "direct"

end Rule

namespace RuleStore

/-- A rule of the templates: what it does not set has the default of the class. -/
def template (id name action : String) (conditions : List (String × String)) : Rule where
  id := id
  name := name
  enabled := true
  logic := "OR"
  conditions := conditions.map fun (type, pattern) => ⟨type, pattern⟩
  type := "domain"
  kind := "suffix"
  pattern := ""
  action := action

def createDefaultRules : List Rule :=
  [template "builtin_lan_captive" "局域网与连网认证直连 (LAN & Captive Portal)" "direct"
      [("geoip", "private"), ("domain_suffix", "local"), ("domain_suffix", "lan"),
        ("domain_suffix", "internal"), ("domain_keyword", "connectivitycheck"),
        ("domain_exact", "captive.apple.com")],
    template "builtin_adblock" "广告与隐私追踪拦截 (AdBlock & Analytics)" "block"
      [("geosite", "category-ads-all"), ("domain_suffix", "doubleclick.net"),
        ("domain_suffix", "googleadservices.com"), ("domain_suffix", "google-analytics.com"),
        ("domain_suffix", "pglstatp-toutiao.com"), ("domain_suffix", "gdt.qq.com"),
        ("domain_suffix", "mobads.baidu.com"), ("domain_suffix", "adukwai.com")],
    template "builtin_ai_proxy" "海外 AI 专区加速 (OpenAI / Claude / Gemini / Copilot / Grok)" "proxy"
      [("geosite", "openai"), ("geosite", "anthropic"), ("geosite", "google-gemini"),
        ("domain_suffix", "openai.com"), ("domain_suffix", "chatgpt.com"),
        ("domain_suffix", "oaistatic.com"), ("domain_suffix", "claude.ai"),
        ("domain_suffix", "anthropic.com"), ("domain_suffix", "gemini.google.com"),
        ("domain_suffix", "x.ai"), ("domain_suffix", "grok.com")],
    template "builtin_streaming_social"
      "海外流媒体与社交平台 (YouTube / Netflix / Telegram / X / TikTok / Spotify)" "proxy"
      [("geosite", "youtube"), ("geosite", "netflix"), ("geosite", "telegram"),
        ("geosite", "twitter"), ("geosite", "tiktok"), ("geosite", "spotify"),
        ("geosite", "github"), ("domain_suffix", "youtube.com"),
        ("domain_suffix", "googlevideo.com"), ("domain_suffix", "ytimg.com"),
        ("domain_suffix", "netflix.com"), ("domain_suffix", "telegram.org"),
        ("domain_suffix", "t.me"), ("domain_suffix", "twitter.com"), ("domain_suffix", "x.com"),
        ("domain_suffix", "tiktok.com"), ("domain_suffix", "github.com")],
    template "builtin_cn_geosite" "国内域名直连 (GeoSite CN)" "direct" [("geosite", "cn")],
    template "builtin_cn_geoip" "国内 IP 直连 (GeoIP CN)" "direct" [("geoip", "cn")]]

/-- The default rules are saved before they are returned, which `getRules_saveRules` covers. -/
def getRules (draw : ℕ → Uuid) (prefs : RulePrefs) : List Rule :=
  prefs.rulesJson.elim createDefaultRules fun items =>
    items.zipIdx.map fun entry => Rule.read entry.1 (draw entry.2)

def saveRules (prefs : RulePrefs) (list : List Rule) : RulePrefs :=
  { prefs with rulesJson := some (list.map (Rule.saved lowercase)) }

def addRule (draw : ℕ → Uuid) (prefs : RulePrefs) (rule : Rule) : RulePrefs :=
  saveRules lowercase prefs (getRules draw prefs ++ [rule])

def getDefaultAction (prefs : RulePrefs) : String :=
  prefs.defaultAction.getD "proxy"

def setDefaultAction (prefs : RulePrefs) (action : String) : RulePrefs :=
  { prefs with defaultAction := some action }

def toJson (draw : ℕ → Uuid) (prefs : RulePrefs) : RulesJson where
  rules := some ((getRules draw prefs).map (Rule.toJson lowercase))
  defaultAction := some (getDefaultAction prefs)

end RuleStore

end Conditions

section Stored

variable {lowercase : String → String}

namespace Rule

/-- A rule after it has been stored: its conditions are written out. -/
def normalized (lowercase : String → String) (rule : Rule) : Rule :=
  { rule with conditions := rule.effectiveConditions lowercase }

theorem read_saved (rule : Rule) (uuid : Uuid) :
    read (rule.saved lowercase) uuid = rule.normalized lowercase := by
  simp [read, saved, conditionsJson, normalized, Function.comp_def]

@[simp]
theorem effectiveConditions_normalized (rule : Rule) :
    (rule.normalized lowercase).effectiveConditions lowercase =
      rule.effectiveConditions lowercase := by
  by_cases given : rule.conditions ≠ []
  · simp [effectiveConditions, normalized, given]
  by_cases blank : isBlank rule.pattern
  · simp [effectiveConditions, normalized, given, blank]
  · simp [effectiveConditions, normalized, given, blank]

@[simp]
theorem normalized_normalized (rule : Rule) :
    (rule.normalized lowercase).normalized lowercase = rule.normalized lowercase := by
  rw [normalized, effectiveConditions_normalized]
  rfl

/-- What the kernel is told of a rule does not change when it is stored. -/
@[simp]
theorem toJson_normalized (rule : Rule) :
    (rule.normalized lowercase).toJson lowercase = rule.toJson lowercase := by
  simp only [toJson, conditionsJson, displayName, effectiveConditions_normalized]
  rfl

end Rule

namespace RuleStore

theorem getRules_saveRules (draw : ℕ → Uuid) (prefs : RulePrefs) (list : List Rule) :
    getRules draw (saveRules lowercase prefs list) = list.map (Rule.normalized lowercase) := by
  have read : (fun entry : Rule × ℕ => Rule.read (entry.1.saved lowercase) (draw entry.2)) =
      Rule.normalized lowercase ∘ Prod.fst :=
    funext fun entry => Rule.read_saved entry.1 _
  rw [getRules, saveRules, Option.elim_some, List.zipIdx_map, List.map_map]
  change list.zipIdx.map (fun entry => Rule.read (entry.1.saved lowercase) (draw entry.2)) = _
  rw [read, ← List.map_map, List.zipIdx_map_fst]

theorem getRules_addRule (draw later : ℕ → Uuid) (prefs : RulePrefs) (rule : Rule) :
    getRules later (addRule lowercase draw prefs rule) =
      (getRules draw prefs ++ [rule]).map (Rule.normalized lowercase) :=
  getRules_saveRules later prefs _

end RuleStore

end Stored

end Mirage.Shell
