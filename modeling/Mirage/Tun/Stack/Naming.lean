import Mirage.Routing.Gate
import Mirage.Tun.Stack.Flows

/-!
# Which names reach a public resolver

The UDP responder and the relays ask `should_resolve_upstream`, or trust a
direct rule of the user, before they call `resolve_upstream`.  The TCP
responder asks `should_direct` instead, so only its queries can send a name
which should not leave.
-/

namespace Mirage.Tun

open Mirage.Foundations Mirage.Routing

namespace TunStack

variable {lower : String → String} {sniffTcp : List UInt8 → Option String} {stack : TunStack}

def TcpCalls (allowed : UpstreamCall → Prop) (conn : TcpConn) : Prop :=
  ∀ call ∈ conn.flow.calls, allowed call

def UdpCalls (allowed : UpstreamCall → Prop) (conn : UdpConn) : Prop :=
  ∀ call ∈ conn.flow.calls, allowed call

/-- All calls of `resolve_upstream`, by any path, have a property. -/
def AllCalls (allowed : UpstreamCall → Prop) (stack : TunStack) : Prop :=
  (∀ call ∈ stack.dnsCalls, allowed call) ∧ stack.AllFlows (TcpCalls allowed) (UdpCalls allowed)

/-- The call which the TCP responder makes for a query. -/
def queryCalls (stack : TunStack) : StackEvent → List UpstreamCall
  | .tcpDns domain qtype =>
      if qtype = 1 ∧ stack.router.shouldDirect (some domain) none = true then
        [⟨domain, routedByRule stack.router domain, stack.router⟩]
      else []
  | _ => []

section Responders

variable {allowed : UpstreamCall → Prop}
  (implied : ∀ call : UpstreamCall, call.Gated → allowed call)

include implied

theorem handleDnsQuery_calls (stack : TunStack) (domain : String) (qtype : ℕ) :
    (∀ call ∈ (stack.handleDnsQuery lower domain qtype).dnsCalls, allowed call) ↔
      ∀ call ∈ stack.dnsCalls, allowed call := by
  simp only [handleDnsQuery]
  split
  · rfl
  · split
    · split
      · rename_i opens
        have gated := RouterState.shouldResolveUpstream_gated opens
        rw [List.forall_mem_append, List.forall_mem_singleton]
        apply and_iff_left
        exact implied _ ⟨gated.1, gated.2, .inr opens⟩
      · rfl
    · rfl

/-- Of the responders' calls, only those for TCP queries can be against the gate. -/
theorem dnsCalls_step (stack : TunStack) (event : StackEvent) :
    (∀ call ∈ (stack.step lower sniffTcp event).dnsCalls, allowed call) ↔
      (∀ call ∈ stack.dnsCalls, allowed call) ∧ ∀ call ∈ stack.queryCalls event, allowed call := by
  cases event with
  | udpDns domain qtype =>
      simp only [queryCalls, List.not_mem_nil, false_implies, implies_true, and_true]
      exact stack.handleDnsQuery_calls implied domain qtype
  | tcpDns domain qtype =>
      simp only [step, relayTcpDns, queryCalls]
      by_cases isA : qtype = 1
      · by_cases direct : stack.router.shouldDirect (some domain) none = true
        · simp [isA, direct, or_imp, forall_and]
        · simp [isA, direct, answerFake]
      · simp [isA]
  | tcpDnsResolved index answer =>
      simp only [step, tcpDnsResolved, queryCalls, List.not_mem_nil, false_implies, implies_true,
        and_true]
      split
      · split <;> rfl
      · rfl
  | connectAnswered index port | sendAnswered index port =>
      simp only [step, accept, feed, queryCalls, List.not_mem_nil, false_implies, implies_true,
        and_true]
      split
      · split <;> rfl
      · rfl
  | connect dst port | send dst port =>
      simp only [step, accept, feed, queryCalls, List.not_mem_nil, false_implies, implies_true,
        and_true]
      split <;> rfl
  | tcp index event | udp index event =>
      simp only [step, queryCalls, List.not_mem_nil, false_implies, implies_true, and_true]
      split <;> rfl
  | swapEngine new | setRouter router | setBlockQuic blockQuic =>
      simp [step, swapEngine, queryCalls]

/-- Only a TCP query can make a call against the gate. -/
theorem allCalls_step (stack : TunStack) (event : StackEvent) :
    (stack.step lower sniffTcp event).AllCalls allowed ↔
      stack.AllCalls allowed ∧ ∀ call ∈ stack.queryCalls event, allowed call := by
  have logged : ∀ {calls next : List UpstreamCall},
      (∃ fresh, next = calls ++ fresh ∧ ∀ call ∈ fresh, call.Gated) →
      ((∀ call ∈ next, allowed call) ↔ (∀ call ∈ calls, allowed call) ∧ True) := by
    rintro calls next ⟨fresh, rfl, gated⟩
    rw [List.forall_mem_append]
    exact and_congr_right fun _ => iff_true_intro fun call made => implied call (gated call made)
  have flows : (stack.step lower sniffTcp event).AllFlows (TcpCalls allowed) (UdpCalls allowed) ↔
      stack.AllFlows (TcpCalls allowed) (UdpCalls allowed) ∧
        stack.FlowGuard (fun _ _ => True) (fun _ _ => True) (fun _ => True) event := by
    apply allFlows_step
    · intro answer dst port
      simp [TcpCalls, TcpFlow.accepted]
    · intro answer dst port
      simp [UdpCalls, UdpFlow.feed]
    · intro conn _ event
      exact logged (conn.flow.step_logged event).calls
    · intro conn _ event
      exact logged (conn.flow.step_logged event).calls
  simp only [flowGuard_true, and_true] at flows
  simp only [AllCalls, dnsCalls_step implied, flows]
  exact and_right_comm

end Responders

/-- The name in a TCP query passes the gate, if it is routed directly. -/
def QueryPasses (stack : TunStack) : StackEvent → Prop
  | .tcpDns domain qtype =>
      qtype = 1 → ∀ source name,
        stack.router.routeDecisionSourced (.ofDomain domain) = (.direct, source, name) →
          stack.router.PassesGate domain source
  | _ => True

/-- The call for a query is gated exactly when its name passes. -/
theorem queryCalls_gated (stack : TunStack) (event : StackEvent) :
    (∀ call ∈ stack.queryCalls event, call.Gated) ↔ stack.QueryPasses event := by
  cases event with
  | tcpDns domain qtype =>
      simp only [queryCalls, QueryPasses]
      by_cases isA : qtype = 1
      · rcases decision : stack.router.routeDecisionSourced (.ofDomain domain)
          with ⟨action, source, name⟩
        by_cases direct : action = .direct
        · subst direct
          have passes := RouterState.gated_iff_passesGate decision
          have routed : stack.router.shouldDirect (some domain) none = true := by
            simp only [RouterState.shouldDirect, RouterState.routeDecision]
            change ((stack.router.routeDecisionSourced (.ofDomain domain)).1 == _) = true
            rw [decision]
            rfl
          have byRule : routedByRule stack.router domain = (source == .rule) := by
            simp only [routedByRule, decision]
          simp only [isA, routed, byRule, and_self, if_true, List.forall_mem_singleton,
            UpstreamCall.Gated, Prod.mk.injEq, true_and, forall_const, and_imp]
          rw [passes]
          constructor
          · rintro allowed _ _ rfl rfl
            exact allowed
          · intro allowed
            exact allowed source name rfl rfl
        · have notRouted : stack.router.shouldDirect (some domain) none = false := by
            simp only [RouterState.shouldDirect, RouterState.routeDecision]
            change ((stack.router.routeDecisionSourced (.ofDomain domain)).1 == _) = false
            rw [decision]
            simpa using direct
          simp [isA, notRouted, direct]
      · simp [isA]
  | _ => simp [queryCalls, QueryPasses]

/--
In every run, every name which is sent to a public resolver is neither local
nor known to be foreign, and passes the gate or was routed by a rule, exactly
when every TCP query of the run passes.
-/
theorem dns_leak_free_iff (lower : String → String) (sniffTcp : List UInt8 → Option String)
    (engine : Engine) (router : RouterState) (blockQuic : Bool) (events : List StackEvent) :
    (run (step lower sniffTcp) (start engine router blockQuic) events).AllCalls
        UpstreamCall.Gated ↔
      Along (step lower sniffTcp) QueryPasses (start engine router blockQuic) events := by
  have one_step : ∀ {stack : TunStack} (event : StackEvent), True →
      ((stack.step lower sniffTcp event).AllCalls UpstreamCall.Gated ↔
        stack.AllCalls UpstreamCall.Gated ∧ stack.QueryPasses event) := by
    intro stack event _
    rw [allCalls_step (fun call gated => gated), queryCalls_gated]
  have initially : (start engine router blockQuic).AllCalls UpstreamCall.Gated := by
    refine ⟨?_, ?_, ?_⟩ <;> simp [start]
  rw [run_iff_along events (fun _ _ => trivial) one_step trivial]
  exact and_iff_right initially

theorem dns_leak_tcp_query :
    ¬(run (step id fun _ => none) (start .new (.initial .empty) true)
      [.tcpDns "nas.lan" 1]).AllCalls UpstreamCall.Gated := by
  rintro ⟨dns, _⟩
  have gated := dns ⟨"nas.lan", false, .initial .empty⟩ (List.mem_singleton.mpr rfl)
  have isLan : isLanOrRouterDomain "nas.lan" = true := by decide
  rw [gated.1] at isLan
  exact Bool.false_ne_true isLan

end TunStack

end Mirage.Tun
