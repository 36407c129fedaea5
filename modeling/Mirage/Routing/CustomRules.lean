import Mirage.Foundations.FirstMatch
import Mirage.Routing.Decision

/-!
# Rules from the interface

`set_custom_rules` receives the rules of the user as a JSON document, cleans it
and compiles it.  Of a document only the keys which are read are kept, `none`
where a key is absent.  `compile` is `Regex::new`, as the predicate which a
pattern decides.
-/

namespace Mirage.Routing

open Mirage.Foundations

structure ConditionJson where
  type : Option String
  pattern : Option String
  deriving DecidableEq, Repr

structure RuleJson where
  id : Option String
  name : Option String
  enabled : Option Bool
  logic : Option String
  action : Option String
  conditions : Option (List ConditionJson)
  type : Option String
  kind : Option String
  pattern : Option String
  deriving DecidableEq, Repr

structure RulesJson where
  rules : Option (List RuleJson)
  defaultAction : Option String
  deriving DecidableEq, Repr

@[irreducible]
def RuleAction.fromStr (s : String) : RuleAction :=
  match toAsciiLowercase (trim s) with
  | "direct" => .direct
  | "block" | "reject" => .block
  | _ => .proxy

def MatchLogic.fromStr (s : String) : MatchLogic :=
  if toAsciiUppercase (trim s) = "AND" then .and else .or

def parseCidr (pattern : String) : Option Ipv4Cidr :=
  let written := (splitOnce pattern '/').elim (trim pattern, 32) fun parts =>
    (trim parts.1, (parseUnsigned u8Max (trim parts.2)).toOption.getD 32)
  (parseIpv4 written.1).map fun ip =>
    ⟨ip &&& wrappedMask written.2, wrappedMask written.2⟩

def parsePort (text : String) : Option ℕ :=
  (parseUnsigned u16Max text).toOption

/-- A range of ports whose ends are in order -/
def parseRange (parts : String × String) : Option (ℕ × ℕ) :=
  match parsePort (trim parts.1), parsePort (trim parts.2) with
  | some start, some stop => if start ≤ stop then some (start, stop) else none
  | _, _ => none

def parsePorts (s : String) : List ℕ × List (ℕ × ℕ) :=
  let parts := (splitChar s ',').map trim
  (parts.filterMap fun part => if (splitOnce part '-').isSome then none else parsePort part,
    parts.filterMap fun part => (splitOnce part '-').bind parseRange)

section Compile

variable (compile : String → Option (String → Bool))

@[irreducible]
def parseConditionKind (kind pattern : String) : Option ConditionKind :=
  let patLower := toAsciiLowercase (trim pattern)
  match toAsciiLowercase (trim kind) with
  | "geosite" => some (.geoSite (toAsciiUppercase (trim pattern)))
  | "geoip" => some (.geoIp (toAsciiUppercase (trim pattern)))
  | "exact" | "domain_exact" => some (.domainExact patLower)
  | "keyword" | "domain_keyword" => some (.domainKeyword patLower)
  | "regex" | "domain_regex" => some (.domainRegex pattern (compile (trim pattern)))
  | "cidr" | "ip_cidr" => some (.ipCidr pattern (parseCidr pattern))
  | "port" => some (.port (parsePorts pattern).1 (parsePorts pattern).2)
  | "protocol" => some (.protocol patLower)
  | _ => some (.domainSuffix patLower)

def validCondition (cond : ConditionJson) : Option ConditionJson :=
  let ctype := trim (cond.type.getD "")
  let cpat := trim (cond.pattern.getD "")
  if ctype ≠ "" ∧ cpat ≠ "" ∧ (parseConditionKind compile ctype cpat).isSome then
    some ⟨some ctype, some cpat⟩
  else none

/-- The kind and the pattern of a rule without an array of conditions -/
def RuleJson.single (item : RuleJson) : Option (String × String) :=
  match item.kind.or item.type, item.pattern with
  | some kind, some pattern => some (kind, pattern)
  | _, _ => none

def validConditions (item : RuleJson) : List ConditionJson :=
  match item.conditions with
  | some conditions => conditions.filterMap (validCondition compile)
  | none =>
      match item.single with
      | some (kind, pattern) =>
          if trim kind ≠ "" ∧ trim pattern ≠ "" ∧
              (parseConditionKind compile kind pattern).isSome then
            [⟨some (trim kind), some (trim pattern)⟩]
          else []
      | none => []

def RuleJson.isSystem (item : RuleJson) : Bool :=
  "sys_".toList.isPrefixOf (item.id.getD "").toList

/-- What is kept of a rule of the user -/
def cleaned (item : RuleJson) (idx : ℕ) : RuleJson where
  id := some (if item.id.getD "" = "" then "user_rule_" ++ toString idx else item.id.getD "")
  name := some (item.name.getD "自定义规则")
  enabled := some (item.enabled.getD true)
  action := some (item.action.getD "proxy")
  logic := some (item.logic.getD "OR")
  conditions := some (validConditions compile item)
  type := none
  kind := none
  pattern := none

/-- A rule which claims to be one of the system is left out, and one without a condition. -/
def cleanRule (item : RuleJson) (idx : ℕ) : Option RuleJson :=
  if item.isSystem then none
  else if (validConditions compile item).isEmpty then none
  else some (cleaned compile item idx)

def sysLanPrivateDirect : RuleJson where
  id := some "sys_lan_private_direct"
  name := some "局域网与路由器私有地址直连 (系统保护)"
  enabled := some true
  action := some "direct"
  logic := some "OR"
  conditions := some
    [⟨some "geoip", some "PRIVATE"⟩, ⟨some "geosite", some "PRIVATE"⟩]
  type := none
  kind := none
  pattern := none

def sysFakeIpGuard : RuleJson where
  id := some "sys_fake_ip_guard"
  name := some "Fake-IP 虚拟网段代理保护 (系统保护)"
  enabled := some true
  action := some "proxy"
  logic := some "OR"
  conditions := some [⟨some "cidr", some "198.18.0.0/15"⟩]
  type := none
  kind := none
  pattern := none

/-- `none` is a text which is not JSON. -/
def stripAndInjectRules (raw : Option RulesJson) : RulesJson :=
  let parsed := raw.getD ⟨some [], some "proxy"⟩
  let clean := (parsed.rules.getD []).zipIdx.filterMap fun entry =>
    cleanRule compile entry.1 entry.2
  { rules := some (sysLanPrivateDirect :: clean ++ [sysFakeIpGuard])
    defaultAction := some (parsed.defaultAction.getD "proxy") }

def readConditions (item : RuleJson) : List ConditionKind :=
  match item.conditions with
  | some conditions => conditions.filterMap fun cond =>
      match cond.type, cond.pattern with
      | some ctype, some cpat => parseConditionKind compile ctype cpat
      | _, _ => none
  | none => (item.single.bind fun (kind, pattern) => parseConditionKind compile kind pattern).toList

def readRule (item : RuleJson) (idx : ℕ) : Option CompositeRule :=
  if (readConditions compile item).isEmpty then none
  else
    some
      { id := item.id.getD ("rule_" ++ toString idx)
        name := item.name.getD (item.pattern.getD "自定义规则")
        enabled := item.enabled.getD true
        logic := .fromStr (item.logic.getD "OR")
        conditions := readConditions compile item
        action := .fromStr (item.action.getD "proxy") }

def setCustomRules (json : Option RulesJson) (state : RouterState) : RouterState :=
  let v := stripAndInjectRules compile json
  { state with
    rules := (v.rules.getD []).zipIdx.filterMap fun entry => readRule compile entry.1 entry.2
    defaultAction := (v.defaultAction.map RuleAction.fromStr).getD .proxy }

end Compile

end Mirage.Routing
