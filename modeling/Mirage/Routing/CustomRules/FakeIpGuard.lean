import Mirage.Routing.CustomRules.Verdict

/-!
# The guard of the fake addresses

Behind the rules of the user stands one which should send every fake address to
the proxy.  Its condition on addresses leaves fake ones out, so that the default
action decides where nothing before it does.
-/

namespace Mirage.Routing

open Mirage.Foundations

/-- A list or the learned cache speaks for the domain. -/
def RouterState.knowsDomain (state : RouterState) (domain : String) : Bool :=
  state.geo.matchGeosite "PRIVATE" domain || state.geo.isCnDomain domain ||
    state.isDynamicDirectDomain domain == some true

/-- In rule mode, a fake address which no rule of the user and no domain decides. -/
structure UnmatchedFake (compile : String → Option (String → Bool)) (json : Option RulesJson)
    (state : RouterState) (request : Request) : Prop where
  notGlobalProxy : state.outboundMode ≠ 1
  notGlobalDirect : state.outboundMode ≠ 2
  notServer : request.ip ≠ some RouterState.localDnsIp
  fake : ∃ ip, request.ip = some ip ∧ isFakeIp ip = true
  noRule : ∀ item ∈ parsedRules json, item.verdict compile state request = none
  noDomain : request.domain.any state.knowsDomain = false

theorem matchGeosite_private (geo : GeoStore) (domain : String)
    (unlisted : geo.matchGeosite "PRIVATE" domain = false) :
    isLanOrRouterDomain domain = false := by
  have tag : toAsciiUppercase (trim "PRIVATE") = "PRIVATE" := by decide +kernel
  simp only [GeoStore.matchGeosite, tag] at unlisted
  split at unlisted
  · simp only [Bool.or_eq_false_iff] at unlisted
    simpa using unlisted.2
  · simpa using unlisted

theorem RouterState.routeUnruled_of_unknown {state : RouterState} {request : Request}
    (cnDomain : request.domain.any state.geo.isCnDomain = false)
    (dynamic : (request.domain.any fun domain =>
      state.isDynamicDirectDomain domain == some true) = false)
    (cnIp : request.ip.any state.geo.isCnIp = false) :
    (state.routeUnruled request).1 = state.defaultAction := by
  rw [routeUnruled, if_neg (ne_true_of_eq_false cnDomain), if_neg (ne_true_of_eq_false dynamic),
    if_neg (ne_true_of_eq_false cnIp)]

section Guard

variable {compile : String → Option (String → Bool)} {json : Option RulesJson}
  {state : RouterState} {request : Request}

namespace UnmatchedFake

theorem domains (unmatched : UnmatchedFake compile json state request) :
    request.domain.any (state.geo.matchGeosite "PRIVATE") = false ∧
      request.domain.any state.geo.isCnDomain = false ∧
        (request.domain.any fun domain => state.isDynamicDirectDomain domain == some true) =
          false := by
  have unknown := unmatched.noDomain
  cases domain_eq : request.domain with
  | none => simp
  | some domain =>
      rw [domain_eq] at unknown
      simp only [Option.any_some, RouterState.knowsDomain, Bool.or_eq_false_iff] at unknown ⊢
      exact ⟨unknown.1.1, unknown.1.2, unknown.2⟩

theorem any_eq_false (unmatched : UnmatchedFake compile json state request) {p : IpAddr → Bool}
    (real : ∀ ip, isFakeIp ip = true → p ip = false) : request.ip.any p = false := by
  rcases unmatched.fake with ⟨ip, ip_eq, fake⟩
  rw [ip_eq]
  exact real ip fake

theorem reachesRules (unmatched : UnmatchedFake compile json state request) :
    state.ReachesRules request := by
  refine ⟨unmatched.notServer, unmatched.any_eq_false fun _ => not_isPrivateIp_of_fake, ?_,
    unmatched.notGlobalProxy, unmatched.notGlobalDirect⟩
  have unlisted := unmatched.domains.1
  cases domain_eq : request.domain with
  | none => rfl
  | some domain =>
      rw [domain_eq, Option.any_some] at unlisted
      rw [Option.any_some]
      exact matchGeosite_private state.geo domain unlisted

theorem lanUnmatched (unmatched : UnmatchedFake compile json state request) :
    readVerdict compile state request sysLanPrivateDirect = none := by
  have conditions : readConditions compile sysLanPrivateDirect =
      [.geoIp "PRIVATE", .geoSite "PRIVATE"] := by
    have geoip : toAsciiLowercase (trim "geoip") = "geoip" := by decide +kernel
    have geosite : toAsciiLowercase (trim "geosite") = "geosite" := by decide +kernel
    have tag : toAsciiUppercase (trim "PRIVATE") = "PRIVATE" := by decide +kernel
    simp [readConditions, sysLanPrivateDirect, parseConditionKind, geoip, geosite, tag]
  rw [readVerdict, readRule, conditions]
  apply RouterState.verdict_eq_none
  intro condition member
  simp only [List.mem_cons, List.not_mem_nil, or_false] at member
  rcases member with rfl | rfl
  · apply unmatched.any_eq_false
    intro ip fake
    simp [fake]
  · exact unmatched.domains.1

/-- The default action is all that is left. -/
theorem routeDecision_eq (unmatched : UnmatchedFake compile json state request) :
    (setCustomRules compile json state).routeDecision request = parsedDefaultAction json := by
  rw [routeDecision_setCustomRules unmatched.reachesRules, unmatched.lanUnmatched,
    Option.getD_none, outcome_of_none unmatched.noRule]
  apply RouterState.routeUnruled_of_unknown
  · exact unmatched.domains.2.1
  · exact unmatched.domains.2.2
  · exact unmatched.any_eq_false fun _ => isCnIp_fake

/-- The guard decides as it should exactly where the default action does so by itself. -/
theorem routeDecision_proxy_iff (unmatched : UnmatchedFake compile json state request) :
    (setCustomRules compile json state).routeDecision request = .proxy ↔
      parsedDefaultAction json = .proxy := by
  rw [unmatched.routeDecision_eq]

end UnmatchedFake

end Guard

/-- A document with a rule about one port, and what it does by default. -/
def portDocument (defaultAction : String) : RulesJson where
  rules := some
    [⟨some "web", none, none, none, some "proxy", some [⟨some "port", some "80"⟩], none, none,
      none⟩]
  defaultAction := some defaultAction

/-- A fake address without a name -/
def fakeRequest : Request :=
  ⟨none, some (.v4 (ipv4 198 18 0 5)), some 443, some "tcp"⟩

theorem unmatchedFake_fakeRequest (defaultAction : String) :
    UnmatchedFake (fun _ => none) (some (portDocument defaultAction)) (.initial .empty)
      fakeRequest := by
  refine ⟨by decide, by decide, by decide, ⟨_, rfl, by decide⟩, ?_, rfl⟩
  intro item member
  rw [List.mem_singleton.mp (show item ∈ [_] from member)]
  decide +kernel

theorem routeDecision_proxy_iff_fakeRequest :
    (setCustomRules (fun _ => none) (some (portDocument "proxy")) (.initial .empty)).routeDecision
        fakeRequest = .proxy ↔
      parsedDefaultAction (some (portDocument "proxy")) = .proxy :=
  (unmatchedFake_fakeRequest "proxy").routeDecision_proxy_iff

/-- With a direct default action the fake address is routed directly, behind the guard. -/
theorem not_routeDecision_proxy_fakeRequest :
    UnmatchedFake (fun _ => none) (some (portDocument "direct")) (.initial .empty) fakeRequest ∧
      (setCustomRules (fun _ => none) (some (portDocument "direct"))
        (.initial .empty)).routeDecision fakeRequest = .direct :=
  ⟨unmatchedFake_fakeRequest "direct", by decide +kernel⟩

end Mirage.Routing
