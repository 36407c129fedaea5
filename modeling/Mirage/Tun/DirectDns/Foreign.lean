import Mirage.Routing.Domains
import Mirage.Routing.Gate
import Mirage.Routing.Partial
import Mirage.Tun.DirectDns

/-!
# Known foreign names

A known foreign name is routed directly in rule mode only if the cache has
learned it as direct.  The gates keep such names from the resolver, except for
the one of the TCP responder, which has none; so nothing is learned as long as
the answers to its queries for foreign names are not Chinese addresses.
-/

namespace Mirage.Routing

open Mirage.Foundations

namespace RouterState

variable {state : RouterState}

/-- No foreign name has been learned as direct. -/
def ForeignUnlearned (state : RouterState) : Prop :=
  ∀ key entry, state.directCache.lookup key = some entry → entry.isDirect = true →
    isKnownNonCnDomain key = false

/-- In rule mode no foreign name without a real address is routed directly. -/
def ForeignIndirect (state : RouterState) : Prop :=
  ∀ domain ip port protocol, isKnownNonCnDomain domain = true →
    (∀ address, ip = some address → isFakeIp address = true) →
      state.outboundMode ≠ 1 → state.outboundMode ≠ 2 → state.defaultAction ≠ .direct →
        state.routeDecision ⟨some domain, ip, port, protocol⟩ ≠ .direct

theorem ForeignUnlearned.not_dynamic (clean : state.ForeignUnlearned) {domain : String}
    (foreign : isKnownNonCnDomain domain = true) :
    state.isDynamicDirectDomain domain ≠ some true := by
  intro learned
  simp only [isDynamicDirectDomain, freshEntry] at learned
  split at learned
  · rename_i entry cached
    split at learned
    · simp only [Option.map_some, Option.some.injEq] at learned
      have notForeign := clean _ entry cached learned
      rw [isKnownNonCnDomain_normalize, foreign] at notForeign
      exact Bool.noConfusion notForeign
    · simp at learned
  · simp at learned

theorem routeDecision_dnsServer {request : Request} (server : request.ip = some localDnsIp) :
    state.routeDecision request = .block := by
  unfold routeDecision routeDecisionSourced
  rw [if_pos server]

/-- No step after the rules routes an unlearned foreign name directly. -/
theorem ForeignUnlearned.routeUnruled (clean : state.ForeignUnlearned) {request : Request}
    {domain : String} (domain_eq : request.domain = some domain)
    (foreign : isKnownNonCnDomain domain = true)
    (notCnIp : request.ip.any state.geo.isCnIp = false) :
    (state.routeUnruled request).1 = state.defaultAction := by
  have notCn : state.geo.isCnDomain domain = false := by
    simp [GeoStore.isCnDomain, foreign]
  have notLearned : (state.isDynamicDirectDomain domain == some true) = false := by
    simpa using clean.not_dynamic foreign
  simp only [RouterState.routeUnruled, domain_eq, Option.any_some, notCn, notLearned, notCnIp,
    Bool.false_eq_true, if_false]

/-- Only a learned name is routed directly although it is foreign. -/
theorem ForeignUnlearned.foreignIndirect (clean : state.ForeignUnlearned) :
    state.ForeignIndirect := by
  intro domain ip port protocol foreign fake notProxy notDirect default_action
  have not_any : ∀ p : IpAddr → Bool, (∀ address, isFakeIp address = true → p address = false) →
      ip.any p = false := by
    intro p real
    cases ip with
    | none => rfl
    | some address => simp [real address (fake address rfl)]
  have notLan : (some domain).any isLanOrRouterDomain = false := by
    simp [not_lan_of_foreign foreign]
  rcases em (ip = some localDnsIp) with server | notServer
  · rw [routeDecision_dnsServer server]
    simp
  have reaches : state.ReachesRules ⟨some domain, ip, port, protocol⟩ :=
    ⟨notServer, not_any isPrivateIp fun _ => not_isPrivateIp_of_fake, notLan, notProxy, notDirect⟩
  rw [routeDecision, routeDecisionSourced_ruled reaches, ruledDecision]
  split
  · rename_i rule found
    intro direct
    have notForeign := not_foreign_of_decides rfl direct (List.find?_some found)
    rw [foreign] at notForeign
    exact Bool.noConfusion notForeign
  · rw [clean.routeUnruled rfl foreign (not_any _ fun _ => isCnIp_fake)]
    exact default_action

/-- An answer which does not flag a foreign name keeps the cache clean. -/
theorem ForeignUnlearned.insertDirectCache (clean : state.ForeignUnlearned) {domain : String}
    {ip : Ipv4Addr} {isDirect : Bool} {evicted : Option String}
    (harmless : isKnownNonCnDomain domain = true → isDirect = false) :
    (state.insertDirectCache domain ip isDirect evicted).ForeignUnlearned := by
  intro key entry found flagged
  rcases insertDirectCache_lookup found with ⟨rfl, rfl⟩ | old
  · rw [isKnownNonCnDomain_normalize, Bool.eq_false_iff]
    intro foreign
    rw [harmless foreign] at flagged
    exact Bool.noConfusion flagged
  · exact clean key entry old flagged

end RouterState

end Mirage.Routing

namespace Mirage.Tun

open Mirage.Foundations Mirage.Routing

namespace DirectDns

variable {dns : DirectDns}

/-- Nothing foreign is learned, and only the TCP responder asks for foreign names. -/
structure Guarded (dns : DirectDns) : Prop where
  unlearned : dns.router.ForeignUnlearned
  origin : ∀ call ∈ dns.calls, isKnownNonCnDomain call.domain = true → call.origin = .tcpDns

/-- The TCP responder's query for a foreign name is not answered with a Chinese address. -/
def Harmless (dns : DirectDns) : DirectDnsEvent → Prop
  | .answer index ip _ => ∀ call, dns.calls[index]? = some call → call.origin = .tcpDns →
      isKnownNonCnDomain call.domain = true →
        dns.router.geo.isTrustworthyCnAnswer (.v4 ip) = false
  | _ => True

/-- A change of the rules, the mode, the Geo data or the clock. -/
theorem Guarded.of_same {next : DirectDns} (guarded : dns.Guarded)
    (cache_eq : next.router.directCache = dns.router.directCache)
    (calls_eq : next.calls = dns.calls) : next.Guarded := by
  refine ⟨?_, ?_⟩
  · intro key entry found
    rw [cache_eq] at found
    exact guarded.unlearned key entry found
  · rw [calls_eq]
    exact guarded.origin

theorem Guarded.clearDirectCache (guarded : dns.Guarded) : dns.clearDirectCache.Guarded := by
  refine ⟨?_, guarded.origin⟩
  intro key entry found
  simp [DirectDns.clearDirectCache] at found

theorem Guarded.resolveUpstream (guarded : dns.Guarded) {origin : CallOrigin} {domain : String}
    (asked : isKnownNonCnDomain domain = true → origin = .tcpDns) :
    (dns.resolveUpstream origin domain).Guarded := by
  refine ⟨guarded.unlearned, ?_⟩
  intro call member foreign
  rcases List.mem_append.mp member with old | new
  · exact guarded.origin call old foreign
  · rw [List.mem_singleton] at new
    subst new
    rw [isKnownNonCnDomain_normalize] at foreign
    exact asked foreign

theorem Guarded.setCall (guarded : dns.Guarded) {index : ℕ} {call : ResolveCall}
    (found : dns.calls[index]? = some call) (phase : CallPhase) :
    (dns.setCall index call phase).Guarded := by
  refine ⟨guarded.unlearned, ?_⟩
  intro other member foreign
  rcases List.mem_or_eq_of_mem_set member with old | rfl
  · exact guarded.origin other old foreign
  · exact guarded.origin call (List.mem_of_getElem? found) foreign

theorem Guarded.udpDns (guarded : dns.Guarded) (domain : String) (qtype : ℕ) :
    (dns.udpDns domain qtype).Guarded := by
  unfold DirectDns.udpDns
  split
  · exact guarded
  · split
    · rename_i asks
      apply guarded.resolveUpstream
      intro foreign
      rw [(RouterState.shouldResolveUpstream_gated asks.2).2] at foreign
      exact Bool.noConfusion foreign
    · exact guarded

theorem Guarded.tcpDns (guarded : dns.Guarded) (domain : String) (qtype : ℕ) :
    (dns.tcpDns domain qtype).Guarded := by
  unfold DirectDns.tcpDns
  split
  · exact guarded.resolveUpstream fun _ => rfl
  · exact guarded

theorem Guarded.route (guarded : dns.Guarded) (request : Request) :
    (dns.route request).Guarded := by
  unfold DirectDns.route
  split
  · split
    · exact guarded.of_same rfl rfl
    · exact guarded
  · exact guarded

theorem Guarded.resolveFlow (guarded : dns.Guarded) (index : ℕ) :
    (dns.resolveFlow index).Guarded := by
  unfold DirectDns.resolveFlow
  split
  · rename_i dom source _
    have resolving : Guarded { dns with flows := dns.flows.eraseIdx index } :=
      guarded.of_same rfl rfl
    dsimp only
    split
    · rename_i upstream
      apply resolving.resolveUpstream
      intro foreign
      rw [(resolveDirectTarget_gated upstream).2.1] at foreign
      exact Bool.noConfusion foreign
    · exact resolving
  · exact guarded

theorem Guarded.dropGuard (guarded : dns.Guarded) (domain : String) (channel : ℕ) :
    (dns.dropGuard domain channel).Guarded := by
  unfold DirectDns.dropGuard
  split
  · exact guarded.of_same rfl rfl
  · exact guarded

/-- A step of a call, whose answer is harmless if the call has one. -/
theorem Guarded.stepCall (guarded : dns.Guarded) {index : ℕ} {call : ResolveCall}
    (found : dns.calls[index]? = some call) {event : DirectDnsEvent}
    (harmless : ∀ ip evicted, event = .answer index ip evicted →
      isKnownNonCnDomain call.domain = true →
        dns.router.geo.isTrustworthyCnAnswer (.v4 ip) = false)
    (at_index : ∀ other ip evicted, event = .answer other ip evicted → other = index) :
    (dns.stepCall index call event).Guarded := by
  cases event with
  | lookup other =>
      simp only [DirectDns.stepCall, DirectDns.lookup]
      split
      · split
        · exact guarded.setCall found _
        · exact guarded.setCall found _
      · exact guarded
  | register other =>
      simp only [DirectDns.stepCall, DirectDns.register]
      split
      · split
        · exact guarded.setCall found _
        · exact (guarded.setCall found _).of_same rfl rfl
      · exact guarded
  | answer other ip evicted =>
      obtain rfl := at_index other ip evicted rfl
      simp only [DirectDns.stepCall]
      split
      · rename_i channel _
        refine ⟨?_, (guarded.setCall found (.answered channel)).origin⟩
        exact guarded.unlearned.insertDirectCache (harmless ip evicted rfl)
      · exact guarded
  | fail other =>
      simp only [DirectDns.stepCall]
      split
      · exact guarded.setCall found _
      · exact guarded
  | finish other =>
      simp only [DirectDns.stepCall, DirectDns.finish]
      split
      · exact (guarded.setCall found _).dropGuard _ _
      · exact (guarded.setCall found _).dropGuard _ _
      · exact guarded.setCall found _
  | _ => exact guarded

theorem Guarded.stepAt (guarded : dns.Guarded) {index : ℕ} {event : DirectDnsEvent}
    (harmless : ∀ ip evicted call, event = .answer index ip evicted →
      dns.calls[index]? = some call → isKnownNonCnDomain call.domain = true →
        dns.router.geo.isTrustworthyCnAnswer (.v4 ip) = false)
    (at_index : ∀ other ip evicted, event = .answer other ip evicted → other = index) :
    (dns.stepAt index event).Guarded := by
  unfold DirectDns.stepAt
  split
  · rename_i call found
    apply guarded.stepCall found _ at_index
    intro ip evicted event_eq
    exact harmless ip evicted call event_eq found
  · exact guarded

/-- Every step keeps foreign names unlearned, if the answer it brings is harmless. -/
theorem Guarded.step (guarded : dns.Guarded) {event : DirectDnsEvent}
    (harmless : dns.Harmless event) : (dns.step event).Guarded := by
  cases event with
  | setOutboundMode mode | setCustomRules rules defaultAction | loadGeo geo | tick seconds =>
      exact guarded.of_same rfl rfl
  | clearDirectCache => exact guarded.clearDirectCache
  | udpDns domain qtype => exact guarded.udpDns domain qtype
  | tcpDns domain qtype => exact guarded.tcpDns domain qtype
  | route request => exact guarded.route request
  | resolveFlow index => exact guarded.resolveFlow index
  | answer index ip evicted =>
      apply guarded.stepAt
      · intro other_ip other_evicted call event_eq found foreign
        cases event_eq
        have origin := guarded.origin call (List.mem_of_getElem? found) foreign
        exact harmless call found origin foreign
      · intro other other_ip other_evicted event_eq
        cases event_eq
        rfl
  | lookup index | register index | fail index | finish index =>
      apply guarded.stepAt
      · intro ip evicted call event_eq
        exact DirectDnsEvent.noConfusion event_eq
      · intro other ip evicted event_eq
        exact DirectDnsEvent.noConfusion event_eq

/--
In every run in which the queries of the TCP responder for known foreign names
are not answered with Chinese addresses, no foreign name without a real address
is routed directly in rule mode, unless by default.
-/
theorem foreign_indirect (geo : GeoStore) {events : List DirectDnsEvent}
    (harmless : Along step Harmless (start geo) events) :
    (run step (start geo) events).router.ForeignIndirect := by
  have initially : (start geo).Guarded := by
    refine ⟨?_, ?_⟩
    · intro key entry found
      simp [start, RouterState.initial] at found
    · intro call member
      simp [start] at member
  have guarded := run_invariant_along (fun met inv => Guarded.step inv met) harmless initially
  exact guarded.unlearned.foreignIndirect

/-- The first block of the built-in table. -/
def firstBlock : GeoStore :=
  { GeoStore.empty with cnIpv4 := [(ipv4 1 0 1 0, 24)] }

/-- In global direct mode a foreign name is asked for over TCP; then the rules are used again. -/
def askedInDirectMode (ip : Ipv4Addr) : List DirectDnsEvent :=
  [.setOutboundMode 2, .tcpDns "google.com" 1, .lookup 0, .register 0, .answer 0 ip none,
    .finish 0, .setOutboundMode 0]

theorem askedInDirectMode_harmless :
    Along step Harmless (start firstBlock) (askedInDirectMode (ipv4 8 8 8 8)) := by
  refine ⟨trivial, trivial, trivial, trivial, ?_, trivial, trivial, trivial⟩
  intro call _ _ _
  decide +kernel

theorem foreign_indirect_foreignAnswer :
    (run step (start firstBlock) (askedInDirectMode (ipv4 8 8 8 8))).router.ForeignIndirect :=
  foreign_indirect firstBlock askedInDirectMode_harmless

/-- The answer is an address of the block, and the name is routed directly by the rules. -/
theorem not_foreign_indirect_chineseAnswer :
    ¬(run step (start firstBlock) (askedInDirectMode (ipv4 1 0 1 1))).router.ForeignIndirect := by
  intro indirect
  apply indirect "google.com" none none none
  · decide +kernel
  · simp
  · decide +kernel
  · decide +kernel
  · decide +kernel
  · decide +kernel

end DirectDns

end Mirage.Tun
