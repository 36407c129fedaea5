import Mirage.Routing.Geo

/-!
# Composite rules

A user rule joins conditions on the domain, the address, the port and the
protocol of a request with `Or` or `And`.
-/

namespace Mirage.Routing

open Mirage.Foundations

inductive RuleAction where
  | direct
  | proxy
  | block
  deriving DecidableEq, Repr

inductive MatchLogic where
  | or
  | and
  deriving DecidableEq, Repr

structure Request where
  domain : Option String
  ip : Option IpAddr
  port : Option ℕ
  protocol : Option String
  deriving DecidableEq

/-- A request of which only the domain is known. -/
def Request.ofDomain (domain : String) : Request :=
  ⟨some domain, none, none, none⟩

inductive ConditionKind where
  | geoSite (tag : String)
  | geoIp (code : String)
  | domainSuffix (s : String)
  | domainExact (s : String)
  | domainKeyword (s : String)
  | domainRegex (raw : String) (re : Option (String → Bool))
  | ipCidr (raw : String) (cidr : Option Ipv4Cidr)
  | port (singles : List ℕ) (ranges : List (ℕ × ℕ))
  | protocol (proto : String)

def ConditionKind.matches (geo : GeoStore) (request : Request) : ConditionKind → Bool
  | .geoSite tag => request.domain.any fun d => geo.matchGeosite tag d
  | .geoIp code => request.ip.any fun ip => !isFakeIp ip && geo.matchGeoip code ip
  | .domainSuffix s => request.domain.any fun d => underRoot (normalize d) s
  | .domainExact s =>
      request.domain.any fun d => toAsciiLowercase (trimEndMatches d '.') == toAsciiLowercase s
  | .domainKeyword s => request.domain.any fun d => containsText (toAsciiLowercase d) s
  | .domainRegex raw re =>
      request.domain.any fun d =>
        match re with
        | some r => r d
        | none => containsText d raw
  | .ipCidr _ cidr =>
      match request.ip, cidr with
      | some (.v4 v4), some c => !isFakeIp (.v4 v4) && c.contains v4
      | _, _ => false
  | .port singles ranges =>
      request.port.any fun p =>
        singles.contains p || ranges.any fun range => range.1 ≤ p && p ≤ range.2
  | .protocol proto =>
      request.protocol.any fun p => toAsciiLowercase p == toAsciiLowercase proto

structure CompositeRule where
  id : String
  name : String
  enabled : Bool
  logic : MatchLogic
  conditions : List ConditionKind
  action : RuleAction

def CompositeRule.matches (geo : GeoStore) (request : Request) (rule : CompositeRule) : Bool :=
  if !rule.enabled || rule.conditions.isEmpty then false
  else
    match rule.logic with
    | .or => rule.conditions.any fun c => c.matches geo request
    | .and => rule.conditions.all fun c => c.matches geo request

end Mirage.Routing

/-!
# Routing decisions

`RouterState` is the shared state a decision reads: the rules, the outbound
mode, the Geo data and the cache of direct DNS answers.  Times are seconds.
-/

namespace Mirage.Routing

open Mirage.Foundations

inductive DecisionSource where
  | lan
  | globalMode
  | rule
  | cnDomain
  | dynamicLearned
  | cnIp
  | default
  deriving DecidableEq, Repr

structure CacheEntry where
  ip : Ipv4Addr
  isDirect : Bool
  insertedAt : ℕ
  deriving DecidableEq

structure RouterState where
  rules : List CompositeRule
  defaultAction : RuleAction
  outboundMode : UInt8
  geo : GeoStore
  directCache : FiniteMap String CacheEntry
  now : ℕ

def cacheTtl : ℕ := 1800

def directCacheMax : ℕ := 4096

namespace RouterState

def initial (geo : GeoStore) : RouterState where
  rules := []
  defaultAction := .proxy
  outboundMode := 0
  geo := geo
  directCache := ∅
  now := 0

/-- The entry of a domain, if it has not expired. -/
def freshEntry (state : RouterState) (domain : String) : Option CacheEntry :=
  match state.directCache.lookup (normalize domain) with
  | some entry => if state.now - entry.insertedAt < cacheTtl then some entry else none
  | none => none

def directDnsLookup (state : RouterState) (domain : String) : Option IpAddr :=
  (state.freshEntry domain).map fun entry => .v4 entry.ip

def isDynamicDirectDomain (state : RouterState) (domain : String) : Option Bool :=
  (state.freshEntry domain).map CacheEntry.isDirect

/-- Whether a rule decides a request: a direct rule does not decide for known foreign domains. -/
def decides (state : RouterState) (request : Request) (rule : CompositeRule) : Bool :=
  rule.matches state.geo request &&
    !(rule.action == .direct && request.domain.any isKnownNonCnDomain)

/-- Steps 3 to 5: the requests which no rule decides. -/
def routeUnruled (state : RouterState) (request : Request) :
    RuleAction × DecisionSource × String :=
  if request.domain.any state.geo.isCnDomain then (.direct, .cnDomain, "CN Domain (Direct)")
  else if request.domain.any fun dom => state.isDynamicDirectDomain dom == some true then
    (.direct, .dynamicLearned, "Dynamic CN Domain (Learned)")
  else if request.ip.any state.geo.isCnIp then (.direct, .cnIp, "CN IP (Direct)")
  else
    (state.defaultAction, .default,
      match state.defaultAction with
      | .direct => "Default Direct"
      | .proxy => "Default Proxy"
      | .block => "Default Block")

def localDnsIp : IpAddr :=
  .v4 (ipv4 198 19 0 53)

def routeDecisionSourced (state : RouterState) (request : Request) :
    RuleAction × DecisionSource × String :=
  if request.ip = some localDnsIp then (.block, .lan, "Block: Local DNS Virtual IP TCP")
  else if request.ip.any isPrivateIp then (.direct, .lan, "Private IP (LAN)")
  else if request.domain.any isLanOrRouterDomain then (.direct, .lan, "Router / LAN Domain")
  else if state.outboundMode = 1 then (.proxy, .globalMode, "Global Proxy Override")
  else if state.outboundMode = 2 then (.direct, .globalMode, "Global Direct Override")
  else
    match state.rules.find? (state.decides request) with
    | some rule => (rule.action, .rule, "Rule: " ++ rule.name)
    | none => state.routeUnruled request

def routeDecision (state : RouterState) (request : Request) : RuleAction :=
  (state.routeDecisionSourced request).1

def shouldDirect (state : RouterState) (domain : Option String) (ip : Option IpAddr) : Bool :=
  state.routeDecision ⟨domain, ip, none, none⟩ == .direct

def shouldBlock (state : RouterState) (domain : Option String) (ip : Option IpAddr) : Bool :=
  state.routeDecision ⟨domain, ip, none, none⟩ == .block

def shouldResolveUpstream (state : RouterState) (domain : String) : Bool :=
  let d := normalize domain
  if isKnownNonCnDomain d then false
  else if isLanOrRouterDomain d then false
  else if state.outboundMode = 1 then false
  else if state.outboundMode = 2 then true
  else if endsWith d ".cn" || endsWith d ".xn--fiqs8s" then true
  else if state.geo.isCnDomain d then true
  else if state.rules.any fun rule =>
      rule.action == .direct && rule.matches state.geo (.ofDomain d) then true
  else state.isDynamicDirectDomain d == some true

/-- `insert_direct_cache`; `evicted` is the key a full cache gives up. -/
def insertDirectCache (state : RouterState) (domain : String) (ip : Ipv4Addr) (isDirect : Bool)
    (evicted : Option String) : RouterState :=
  let live := ⟨state.directCache.entries.filter fun entry =>
    state.now - entry.2.insertedAt < cacheTtl, state.directCache.nodupKeys.sublist
      List.filter_sublist⟩
  let map : FiniteMap String CacheEntry :=
    if state.directCache.entries.length < directCacheMax then state.directCache
    else if live.entries.length < directCacheMax then live
    else evicted.elim live live.erase
  { state with directCache := map.insert (normalize domain) ⟨ip, isDirect, state.now⟩ }

/-- What the cache has after an insertion is new or was there before. -/
theorem insertDirectCache_lookup {state : RouterState} {domain key : String} {ip : Ipv4Addr}
    {isDirect : Bool} {evicted : Option String} {entry : CacheEntry}
    (found : (state.insertDirectCache domain ip isDirect evicted).directCache.lookup key =
      some entry) :
    key = normalize domain ∧ entry = ⟨ip, isDirect, state.now⟩ ∨
      state.directCache.lookup key = some entry := by
  by_cases new : key = normalize domain
  · subst new
    simp only [insertDirectCache, AList.lookup_insert, Option.some.injEq] at found
    exact .inl ⟨rfl, found.symm⟩
  · right
    simp only [insertDirectCache, AList.lookup_insert_ne new] at found
    have kept : ∀ live : FiniteMap String CacheEntry,
        (∀ pair ∈ live.entries, pair ∈ state.directCache.entries) →
          live.lookup key = some entry → state.directCache.lookup key = some entry := by
      intro live older cached
      rw [← Option.mem_def, AList.mem_lookup_iff] at cached ⊢
      exact older _ cached
    split at found
    · exact found
    · split at found
      · exact kept _ (fun pair member => (List.mem_filter.mp member).1) found
      · cases evicted with
        | none => exact kept _ (fun pair member => (List.mem_filter.mp member).1) found
        | some victim =>
            apply kept _ _ found
            intro pair member
            exact (List.mem_filter.mp ((List.kerase_sublist _ _).subset member)).1

/-- Before any rule, only private addresses and local names are routed directly. -/
theorem lan_request {state : RouterState} {request : Request} {action : RuleAction} {name : String}
    (decision : state.routeDecisionSourced request = (action, .lan, name))
    (direct : action = .direct) :
    request.ip.any isPrivateIp = true ∨ request.domain.any isLanOrRouterDomain = true := by
  subst direct
  unfold routeDecisionSourced at decision
  split at decision
  · simp at decision
  split at decision
  · rename_i isPrivate
    exact .inl isPrivate
  split at decision
  · rename_i isLan
    exact .inr isLan
  split at decision
  · simp at decision
  split at decision
  · simp at decision
  split at decision
  · simp at decision
  · unfold routeUnruled at decision
    split at decision
    · simp at decision
    split at decision
    · simp at decision
    split at decision <;> simp at decision

/-- Without rules nothing is blocked but the address of the DNS server. -/
theorem initial_not_block {geo : GeoStore} {request : Request}
    (other : request.ip ≠ some localDnsIp) : (initial geo).routeDecision request ≠ .block := by
  unfold routeDecision routeDecisionSourced
  split
  · contradiction
  split
  · simp
  split
  · simp
  split
  · simp
  split
  · simp
  split
  · rename_i rule found
    simp [initial] at found
  · unfold routeUnruled
    split
    · simp
    split
    · simp
    split <;> simp [initial]

end RouterState

end Mirage.Routing
