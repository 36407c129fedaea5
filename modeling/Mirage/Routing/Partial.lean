import Mirage.Routing.Decision

/-!
# Requests of which less is known

The same name is routed when it is asked for, when a first datagram is checked
and when its flow starts, each time with another part of the request.  A fake
address tells routing nothing, so two requests are for the same target when they
agree on the name and on the address unless it is fake.  They are then routed
the same way until a rule reads the port or the protocol.
-/

namespace Mirage.Routing

open Mirage.Foundations

/-- The first matches of two predicates agree if each of them satisfies the other predicate. -/
theorem find?_eq_of_agree {Element : Type} {p q : Element → Bool} {elements : List Element}
    (forward : ∀ element, elements.find? p = some element → q element = true)
    (backward : ∀ element, elements.find? q = some element → p element = true) :
    elements.find? p = elements.find? q := by
  induction elements with
  | nil => rfl
  | cons first rest ih =>
      simp only [List.find?_cons] at forward backward ⊢
      cases holds_p : p first with
      | true =>
          simp only [holds_p] at forward ⊢
          rw [forward first rfl]
      | false =>
          cases holds_q : q first with
          | true =>
              simp only [holds_q] at backward
              have holds := backward first rfl
              rw [holds_p] at holds
              exact absurd holds Bool.false_ne_true
          | false =>
              simp only [holds_p, holds_q] at forward backward
              exact ih forward backward

/-- The condition reads the port or the protocol. -/
def ConditionKind.readsTransport : ConditionKind → Bool
  | .port _ _ | .protocol _ => true
  | _ => false

def CompositeRule.readsTransport (rule : CompositeRule) : Bool :=
  rule.conditions.any ConditionKind.readsTransport

/-- The address, if it is not fake. -/
def realAddress (ip : Option IpAddr) : Option IpAddr :=
  ip.filter fun ip => !isFakeIp ip

theorem not_isPrivateIp_of_fake {ip : IpAddr} (fake : isFakeIp ip = true) :
    isPrivateIp ip = false := by
  cases ip with
  | v4 address => simp [isPrivateIp, fake]
  | v6 address => simp [isFakeIp] at fake

/-- A predicate which no fake address satisfies reads the real address only. -/
theorem any_realAddress {p : IpAddr → Bool} (real : ∀ ip, isFakeIp ip = true → p ip = false)
    (ip : Option IpAddr) : ip.any p = (realAddress ip).any p := by
  cases ip with
  | none => rfl
  | some ip =>
      cases fake : isFakeIp ip with
      | true => simp [realAddress, fake, real ip fake]
      | false => simp [realAddress, fake]

/-- Routing can tell the requests apart by their port and their protocol at most. -/
structure Request.SameTarget (first second : Request) : Prop where
  domain : first.domain = second.domain
  address : realAddress first.ip = realAddress second.ip
  dnsServer : first.ip = some RouterState.localDnsIp ↔ second.ip = some RouterState.localDnsIp

namespace Request.SameTarget

variable {first second : Request}

theorem refl (request : Request) : request.SameTarget request :=
  ⟨rfl, rfl, Iff.rfl⟩

theorem symm (same : first.SameTarget second) : second.SameTarget first :=
  ⟨same.domain.symm, same.address.symm, same.dnsServer.symm⟩

theorem any_eq (same : first.SameTarget second) {p : IpAddr → Bool}
    (real : ∀ ip, isFakeIp ip = true → p ip = false) : first.ip.any p = second.ip.any p := by
  rw [any_realAddress real first.ip, any_realAddress real second.ip, same.address]

/-- A request of which the port and the protocol are not known. -/
theorem bare (domain : Option String) (ip : Option IpAddr) (port : Option ℕ)
    (protocol : Option String) :
    SameTarget ⟨domain, ip, none, none⟩ ⟨domain, ip, port, protocol⟩ :=
  ⟨rfl, rfl, Iff.rfl⟩

end Request.SameTarget

/-- The requests agree on what a condition or a rule reads of the port and the protocol. -/
def Request.TransportAlike (first second : Request) (reads : Bool) : Prop :=
  reads = false ∨ first.port = second.port ∧ first.protocol = second.protocol

variable {geo : GeoStore} {first second : Request}

theorem isCnIp_fake {ip : IpAddr} (fake : isFakeIp ip = true) : geo.isCnIp ip = false := by
  simp [GeoStore.isCnIp, fake]

theorem matches_ipCidr {raw : String} {cidr : Option Ipv4Cidr} {request : Request} :
    (ConditionKind.ipCidr raw cidr).matches geo request =
      request.ip.any fun ip =>
        match ip, cidr with
        | .v4 v4, some c => !isFakeIp (.v4 v4) && c.contains v4
        | _, _ => false := by
  cases cidr <;> rcases request with ⟨domain, _ | (v4 | v6), port, protocol⟩ <;> rfl

theorem ConditionKind.matches_congr {condition : ConditionKind} (same : first.SameTarget second)
    (alike : first.TransportAlike second condition.readsTransport) :
    condition.matches geo first = condition.matches geo second := by
  cases condition with
  | geoIp code =>
      apply same.any_eq
      intro ip fake
      simp [fake]
  | ipCidr raw cidr =>
      rw [matches_ipCidr, matches_ipCidr]
      apply same.any_eq
      intro ip fake
      cases cidr with
      | none => cases ip <;> rfl
      | some c =>
          cases ip with
          | v4 v4 => simp [fake]
          | v6 v6 => rfl
  | port singles ranges =>
      rcases alike with free | ⟨port_eq, _⟩
      · simp [readsTransport] at free
      · simp only [ConditionKind.matches, port_eq]
  | protocol proto =>
      rcases alike with free | ⟨_, protocol_eq⟩
      · simp [readsTransport] at free
      · simp only [ConditionKind.matches, protocol_eq]
  | _ => simp only [ConditionKind.matches, same.domain]

/-- What matches without port and protocol matches with them. -/
theorem ConditionKind.matches_of_bare {condition : ConditionKind}
    (same : first.SameTarget second) (no_port : first.port = none)
    (no_protocol : first.protocol = none) (matched : condition.matches geo first = true) :
    condition.matches geo second = true := by
  cases reads : condition.readsTransport with
  | false => rwa [← matches_congr same (.inl reads)]
  | true =>
      cases condition <;> simp [readsTransport] at reads
      · simp [ConditionKind.matches, no_port] at matched
      · simp [ConditionKind.matches, no_protocol] at matched

/-- A rule matches by what its conditions say. -/
theorem CompositeRule.matches_congr_conditions {rule : CompositeRule}
    (conditions : ∀ condition ∈ rule.conditions,
      condition.matches geo first = condition.matches geo second) :
    rule.matches geo first = rule.matches geo second := by
  unfold CompositeRule.matches
  split
  · rfl
  · split
    · rw [Bool.eq_iff_iff, List.any_eq_true, List.any_eq_true]
      apply exists_congr
      intro condition
      apply and_congr_right
      intro member
      rw [conditions condition member]
    · rw [Bool.eq_iff_iff, List.all_eq_true, List.all_eq_true]
      apply forall₂_congr
      intro condition member
      rw [conditions condition member]

theorem CompositeRule.matches_congr {rule : CompositeRule} (same : first.SameTarget second)
    (alike : first.TransportAlike second rule.readsTransport) :
    rule.matches geo first = rule.matches geo second := by
  apply CompositeRule.matches_congr_conditions
  intro condition member
  apply ConditionKind.matches_congr same
  apply alike.imp_left
  intro free
  simpa using List.any_eq_false.mp free condition member

theorem CompositeRule.matches_of_bare {rule : CompositeRule} (same : first.SameTarget second)
    (no_port : first.port = none) (no_protocol : first.protocol = none)
    (matched : rule.matches geo first = true) : rule.matches geo second = true := by
  unfold CompositeRule.matches at matched ⊢
  split
  · rename_i off
    rw [if_pos off] at matched
    exact matched
  · rename_i on
    rw [if_neg on] at matched
    split <;> rename_i logic
    · rw [logic] at matched
      rw [List.any_eq_true] at matched ⊢
      rcases matched with ⟨condition, member, holds⟩
      exact ⟨condition, member, condition.matches_of_bare same no_port no_protocol holds⟩
    · rw [logic] at matched
      rw [List.all_eq_true] at matched ⊢
      intro condition member
      exact condition.matches_of_bare same no_port no_protocol (matched condition member)

namespace RouterState

variable {state : RouterState}

theorem decides_congr {rule : CompositeRule} (same : first.SameTarget second)
    (alike : first.TransportAlike second rule.readsTransport) :
    state.decides first rule = state.decides second rule := by
  simp only [decides, CompositeRule.matches_congr same alike, same.domain]

theorem decides_of_bare {rule : CompositeRule} (same : first.SameTarget second)
    (no_port : first.port = none) (no_protocol : first.protocol = none)
    (holds : state.decides first rule = true) : state.decides second rule = true := by
  simp only [decides, Bool.and_eq_true] at holds ⊢
  refine ⟨rule.matches_of_bare same no_port no_protocol holds.1, ?_⟩
  rw [← same.domain]
  exact holds.2

/-- Nothing before the rules decides the request. -/
def ReachesRules (state : RouterState) (request : Request) : Prop :=
  request.ip ≠ some localDnsIp ∧ request.ip.any isPrivateIp = false ∧
    request.domain.any isLanOrRouterDomain = false ∧ state.outboundMode ≠ 1 ∧
      state.outboundMode ≠ 2

/-- What the rules, or the steps after them, say about a request. -/
def ruledDecision (state : RouterState) (request : Request) :
    RuleAction × DecisionSource × String :=
  match state.rules.find? (state.decides request) with
  | some rule => (rule.action, .rule, "Rule: " ++ rule.name)
  | none => state.routeUnruled request

theorem ReachesRules.congr (same : first.SameTarget second) :
    state.ReachesRules first ↔ state.ReachesRules second := by
  have isPrivate := same.any_eq fun _ => not_isPrivateIp_of_fake
  simp only [ReachesRules, ne_eq, same.dnsServer, isPrivate, same.domain]

theorem routeDecisionSourced_ruled {request : Request} (reaches : state.ReachesRules request) :
    state.routeDecisionSourced request = state.ruledDecision request := by
  rcases reaches with ⟨notServer, notPrivate, notLan, notProxy, notDirect⟩
  cases found : state.rules.find? (state.decides request) <;>
    simp only [routeDecisionSourced, if_neg notServer, notPrivate, notLan, if_neg notProxy,
      if_neg notDirect, ruledDecision, found, Bool.false_eq_true, if_false]

/-- A request which does not reach the rules is routed by its target and the mode alone. -/
theorem routeDecisionSourced_early {other : RouterState}
    (mode_eq : state.outboundMode = other.outboundMode) (same : first.SameTarget second)
    (early : ¬state.ReachesRules first) :
    state.routeDecisionSourced first = other.routeDecisionSourced second := by
  have isPrivate := same.any_eq fun _ => not_isPrivateIp_of_fake
  unfold routeDecisionSourced
  simp only [same.dnsServer, isPrivate, same.domain, mode_eq]
  split
  · rfl
  split
  · rfl
  split
  · rfl
  split
  · rfl
  split
  · rfl
  · rename_i notServer notPrivate notLan notProxy notDirect
    rw [← mode_eq] at notProxy notDirect
    refine absurd ((ReachesRules.congr same).mpr ⟨notServer, ?_, ?_, notProxy, notDirect⟩) early
    · simpa using notPrivate
    · simpa using notLan

theorem routeUnruled_congr (same : first.SameTarget second) :
    state.routeUnruled first = state.routeUnruled second := by
  have isCn : first.ip.any state.geo.isCnIp = second.ip.any state.geo.isCnIp :=
    same.any_eq fun _ => isCnIp_fake
  simp only [routeUnruled, same.domain, isCn]

/-- Two requests for one target are routed alike if the rules which decide them decide both. -/
theorem routeDecisionSourced_congr (same : first.SameTarget second)
    (forward : ∀ rule, state.rules.find? (state.decides first) = some rule →
      state.decides second rule = true)
    (backward : ∀ rule, state.rules.find? (state.decides second) = some rule →
      state.decides first rule = true) :
    state.routeDecisionSourced first = state.routeDecisionSourced second := by
  by_cases reaches : state.ReachesRules first
  · rw [routeDecisionSourced_ruled reaches,
      routeDecisionSourced_ruled ((ReachesRules.congr same).mp reaches), ruledDecision,
      ruledDecision, find?_eq_of_agree forward backward, routeUnruled_congr same]
  · exact routeDecisionSourced_early rfl same reaches

end RouterState

end Mirage.Routing
