import Mirage.Routing.Partial
import Mirage.Tun.Stack

/-!
# The DNS responder

The responder has a handler for each transport.  The UDP handler routes a query
as a datagram to port 53 and answers every name which is not blocked with its
fake address; the TCP handler routes the name alone, never blocks, and answers
with the real address if the name is direct and the resolver has one.
-/

namespace Mirage.Tun

open Mirage.Foundations Mirage.Routing

/-- What a query is answered with. -/
inductive DnsAnswer where
  /-- The address `0.0.0.0`. -/
  | blocked
  | upstream (ip : Ipv4Addr)
  | fake (ip : Ipv4Addr)
  | empty
  deriving DecidableEq

/-- A query as `handle_dns_query` routes it. -/
def dnsRequest (domain : String) : Request :=
  ⟨some domain, none, some 53, some "udp"⟩

/-- A flow as the relays route it, if nothing is sniffed. -/
def flowRequest (engine : Engine) (ip : IpAddr) (port : ℕ) (protocol : String) : Request :=
  ⟨engine.fakeIpReverse ip, some ip, some port, some protocol⟩

namespace TunStack

variable {lower : String → String} {stack : TunStack} {domain : String} {qtype : ℕ}
  {answer : Option Ipv4Addr}

def fakeAnswer (lower : String → String) (stack : TunStack) (domain : String) : DnsAnswer :=
  .fake ((stack.engines stack.engineId).fakeIpAllocate lower domain).1

/-- The answer of `handle_dns_query`. -/
def udpDnsAnswer (lower : String → String) (stack : TunStack) (domain : String) (qtype : ℕ) :
    DnsAnswer :=
  if stack.router.routeDecision (dnsRequest domain) = .block then
    if qtype = 1 then .blocked else .empty
  else if qtype = 1 then stack.fakeAnswer lower domain
  else .empty

/-- The answer of `relay_tcp_dns`, when the resolver has `answer` for it. -/
def tcpDnsAnswer (lower : String → String) (stack : TunStack) (domain : String) (qtype : ℕ)
    (answer : Option Ipv4Addr) : DnsAnswer :=
  if qtype = 1 then
    if stack.router.shouldDirect (some domain) none then
      match answer with
      | some ip => .upstream ip
      | none => stack.fakeAnswer lower domain
    else stack.fakeAnswer lower domain
  else .empty

/-- The whole treatment of a query over TCP. -/
def tcpDnsHandled (lower : String → String) (stack : TunStack) (domain : String) (qtype : ℕ)
    (answer : Option Ipv4Addr) : TunStack :=
  (stack.relayTcpDns lower domain qtype).tcpDnsResolved lower stack.pendingDns.length answer

/-- A fake address is allocated and given away; any other answer leaves the stack as it was. -/
structure Leaves (lower : String → String) (stack next : TunStack) (domain : String)
    (given : DnsAnswer) : Prop where
  fake : ∀ ip, given = .fake ip →
    next.answers = (stack.answerFake lower domain).answers ∧
      next.engines = (stack.answerFake lower domain).engines
  other : (∀ ip, given ≠ .fake ip) →
    next.answers = stack.answers ∧ next.engines = stack.engines

theorem fakeAnswer_eq (lower : String → String) (stack : TunStack) (domain : String) :
    ∃ ip, stack.fakeAnswer lower domain = .fake ip :=
  ⟨_, rfl⟩

/-- A query which is answered with a fake address, and the stack after it. -/
theorem leaves_fakeAnswer {next : TunStack}
    (answers_eq : next.answers = (stack.answerFake lower domain).answers)
    (engines_eq : next.engines = (stack.answerFake lower domain).engines) :
    stack.Leaves lower next domain (stack.fakeAnswer lower domain) := by
  rcases fakeAnswer_eq lower stack domain with ⟨ip, given⟩
  refine ⟨fun _ _ => ⟨answers_eq, engines_eq⟩, ?_⟩
  intro notFake
  exact absurd given (notFake ip)

theorem leaves_same {given : DnsAnswer} (notFake : ∀ ip, given ≠ .fake ip) :
    stack.Leaves lower stack domain given :=
  ⟨fun ip given_eq => absurd given_eq (notFake ip), fun _ => ⟨rfl, rfl⟩⟩

/-- Over UDP, a query leaves the stack as its answer says. -/
theorem handleDnsQuery_leaves :
    stack.Leaves lower (stack.handleDnsQuery lower domain qtype) domain
      (stack.udpDnsAnswer lower domain qtype) := by
  unfold handleDnsQuery udpDnsAnswer dnsRequest
  split
  · apply leaves_same
    split <;> simp
  · split
    · apply leaves_fakeAnswer
      · dsimp only
        split <;> rfl
      · dsimp only
        split <;> rfl
    · apply leaves_same
      simp

theorem tcpDnsHandled_leaves :
    stack.Leaves lower (stack.tcpDnsHandled lower domain qtype answer) domain
      (stack.tcpDnsAnswer lower domain qtype answer) := by
  have nothingPending : stack.pendingDns[stack.pendingDns.length]? = none := by simp
  unfold tcpDnsHandled relayTcpDns tcpDnsAnswer
  split
  · split
    · simp only [tcpDnsResolved, List.getElem?_concat_length]
      cases answer with
      | some ip => exact ⟨by simp, fun _ => ⟨rfl, rfl⟩⟩
      | none => exact leaves_fakeAnswer rfl rfl
    · have kept : (stack.answerFake lower domain).pendingDns = stack.pendingDns := rfl
      simp only [tcpDnsResolved, kept, nothingPending]
      exact leaves_fakeAnswer rfl rfl
  · simp only [tcpDnsResolved, nothingPending]
    apply leaves_same
    simp

/-- Handlers which answer alike leave the same mapper. -/
theorem Leaves.engines_eq {first second : TunStack} {given : DnsAnswer}
    (left : stack.Leaves lower first domain given)
    (right : stack.Leaves lower second domain given) : first.engines = second.engines := by
  rcases em (∃ ip, given = .fake ip) with ⟨ip, given_eq⟩ | notFake
  · exact (left.fake ip given_eq).2.trans (right.fake ip given_eq).2.symm
  · rw [not_exists] at notFake
    exact (left.other notFake).2.trans (right.other notFake).2.symm

/-- The two handlers treat a query alike. -/
def TransportsAgree (lower : String → String) (stack : TunStack) (domain : String) (qtype : ℕ)
    (answer : Option Ipv4Addr) : Prop :=
  stack.udpDnsAnswer lower domain qtype = stack.tcpDnsAnswer lower domain qtype answer ∧
    (stack.handleDnsQuery lower domain qtype).engines =
      (stack.tcpDnsHandled lower domain qtype answer).engines

/--
The handlers agree on a query exactly if it asks for no address, or its name is
not blocked and is not given a real address over TCP.
-/
theorem transports_agree_iff (lower : String → String) (stack : TunStack) (domain : String)
    (qtype : ℕ) (answer : Option Ipv4Addr) :
    stack.TransportsAgree lower domain qtype answer ↔
      qtype ≠ 1 ∨ stack.router.routeDecision (dnsRequest domain) ≠ .block ∧
        (stack.router.shouldDirect (some domain) none = true → answer = none) := by
  have same_answer : stack.TransportsAgree lower domain qtype answer ↔
      stack.udpDnsAnswer lower domain qtype = stack.tcpDnsAnswer lower domain qtype answer := by
    constructor
    · rintro ⟨answers, _⟩
      exact answers
    · intro answers
      refine ⟨answers, ?_⟩
      apply Leaves.engines_eq handleDnsQuery_leaves
      rw [answers]
      exact tcpDnsHandled_leaves
  rw [same_answer]
  unfold udpDnsAnswer tcpDnsAnswer
  rcases fakeAnswer_eq lower stack domain with ⟨ip, given⟩
  rw [given]
  by_cases isA : qtype = 1
  · by_cases direct : stack.router.shouldDirect (some domain) none = true
    · by_cases blocked : stack.router.routeDecision (dnsRequest domain) = .block
      · cases answer <;> simp [isA, direct, blocked]
      · cases answer <;> simp [isA, direct, blocked]
    · by_cases blocked : stack.router.routeDecision (dnsRequest domain) = .block
      · simp [isA, direct, blocked]
      · simp [isA, direct, blocked]
  · simp [isA]

/-- The stack of a user who blocks a name. -/
def blockingStack : TunStack :=
  start .new
    { RouterState.initial .empty with
      rules := [⟨"ads", "ads", true, .or, [.domainSuffix "example.org"], .block⟩] } true

/-- The name is blocked over UDP and has a fake address over TCP. -/
theorem not_transportsAgree_blocked :
    ¬blockingStack.TransportsAgree id "example.org" 1 none := by
  rintro ⟨answers, _⟩
  have blocked : blockingStack.udpDnsAnswer id "example.org" 1 = .blocked := by decide +kernel
  have given : blockingStack.tcpDnsAnswer id "example.org" 1 none =
      .fake (ipv4 198 18 0 2) := by
    decide +kernel
  rw [blocked, given] at answers
  exact DnsAnswer.noConfusion answers

end TunStack

section Blocking

variable {engine : Engine} {domain : String} {ip : IpAddr}

/-- A flow to the fake address of a name is for the same target as a query for the name. -/
theorem dnsRequest_sameTarget (fake : engine.isFakeIp ip = true)
    (named : engine.fakeIpReverse ip = some domain) (port : ℕ) (protocol : String) :
    (dnsRequest domain).SameTarget (flowRequest engine ip port protocol) := by
  refine ⟨named.symm, ?_, ?_⟩
  · simp [dnsRequest, flowRequest, realAddress, Option.filter, Engine.isFakeIp_routing fake]
  · simp only [dnsRequest, flowRequest, reduceCtorEq, Option.some.injEq, false_iff]
    rintro rfl
    rw [Engine.not_isFakeIp_localDnsIp] at fake
    exact absurd fake Bool.false_ne_true

/-- A rule which decides the query or the flow does not read the port or the protocol. -/
def TransportFree (state : RouterState) (query flow : Request) : Prop :=
  ∀ rule, state.rules.find? (state.decides query) = some rule ∨
    state.rules.find? (state.decides flow) = some rule → rule.readsTransport = false

theorem routeDecisionSourced_of_alike {state : RouterState} {query flow : Request}
    (same : query.SameTarget flow)
    (alike : ∀ rule, state.rules.find? (state.decides query) = some rule ∨
      state.rules.find? (state.decides flow) = some rule →
        query.TransportAlike flow rule.readsTransport) :
    state.routeDecisionSourced query = state.routeDecisionSourced flow := by
  apply RouterState.routeDecisionSourced_congr same
  · intro rule found
    rw [← RouterState.decides_congr same (alike rule (.inl found))]
    exact List.find?_some found
  · intro rule found
    rw [RouterState.decides_congr same (alike rule (.inr found))]
    exact List.find?_some found

/-- The state after some time, in which only the cache has changed. -/
def later (state : RouterState) (cache : FiniteMap String CacheEntry) (now : ℕ) : RouterState :=
  { state with directCache := cache, now }

theorem later_self (state : RouterState) : later state state.directCache state.now = state :=
  rfl

/-- What is blocked stays blocked, unless only by default and the name is learned as direct. -/
theorem later_block {state : RouterState} {request : Request}
    {cache : FiniteMap String CacheEntry} {now : ℕ}
    (blocked : state.routeDecision request = .block)
    (unlearned : (state.routeDecisionSourced request).2.1 = .default →
      ∀ dom, request.domain = some dom →
        (later state cache now).isDynamicDirectDomain dom ≠ some true) :
    (later state cache now).routeDecision request = .block := by
  by_cases reaches : state.ReachesRules request
  · have reaches_later : (later state cache now).ReachesRules request := reaches
    simp only [RouterState.routeDecision, RouterState.routeDecisionSourced_ruled reaches,
      RouterState.routeDecisionSourced_ruled reaches_later] at blocked unlearned ⊢
    cases found : state.rules.find? (state.decides request) with
    | some rule =>
        have found_later : (later state cache now).rules.find?
            ((later state cache now).decides request) = some rule := found
        simpa only [RouterState.ruledDecision, found, found_later] using blocked
    | none =>
        have found_later : (later state cache now).rules.find?
            ((later state cache now).decides request) = none := found
        simp only [RouterState.ruledDecision, found, found_later] at blocked unlearned ⊢
        unfold RouterState.routeUnruled at blocked unlearned ⊢
        split at blocked
        · simp at blocked
        rename_i notCn
        split at blocked
        · simp at blocked
        rename_i notLearned
        split at blocked
        · simp at blocked
        rename_i notCnIp
        simp only [if_neg notCn, if_neg notLearned, if_neg notCnIp, forall_const] at unlearned
        have notLearned_later : ¬(request.domain.any fun dom =>
            (later state cache now).isDynamicDirectDomain dom == some true) = true := by
          cases domain_eq : request.domain with
          | none => simp
          | some dom => simpa [domain_eq] using unlearned dom domain_eq
        have notCn_later : ¬(request.domain.any (later state cache now).geo.isCnDomain) = true :=
          notCn
        have notCnIp_later : ¬(request.ip.any (later state cache now).geo.isCnIp) = true := notCnIp
        rw [if_neg notCn_later, if_neg notLearned_later, if_neg notCnIp_later]
        exact blocked
  · have equal : state.routeDecisionSourced request =
        (later state cache now).routeDecisionSourced request :=
      RouterState.routeDecisionSourced_early rfl (.refl request) reaches
    rwa [RouterState.routeDecision, ← equal]

/-- An engine which has a fake address for the blocked name. -/
def adsEngine : Engine :=
  (Engine.new.fakeIpAllocate id "example.org").2

theorem blockingStack_rules : ∀ rule ∈ TunStack.blockingStack.router.rules,
    rule.readsTransport = false := by
  intro rule member
  rw [List.mem_singleton.mp member]
  rfl

theorem blockingStack_blocks :
    TunStack.blockingStack.router.routeDecisionSourced (dnsRequest "example.org") =
      (.block, .rule, "Rule: ads") := by
  decide +kernel

/-- The rules of a user who blocks queries for a name, but not the name. -/
def queryRules : RouterState :=
  { RouterState.initial .empty with
    rules := [⟨"dns", "dns", true, .and, [.domainSuffix "example.org", .port [53] []], .block⟩,
      ⟨"web", "web", true, .or, [.domainSuffix "example.org"], .proxy⟩] }

end Blocking

end Mirage.Tun
