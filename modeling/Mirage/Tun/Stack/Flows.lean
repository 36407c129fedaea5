import Mirage.Tun.Logs
import Mirage.Tun.Stack

/-!
# Properties of all flows

A property of every flow of the stack changes with the flow that steps, or with
the flow that starts.  `allFlows_step` turns what one step of a flow needs into
what one step of the stack needs, so that the theorems about runs of the stack
are proved from single flows.
-/

namespace Mirage.Tun

open Mirage.Foundations Mirage.Routing

namespace TunStack

variable {lower : String → String} {sniffTcp : List UInt8 → Option String} {stack : TunStack}

/-- Every flow of the stack has its property. -/
structure AllFlows (tcpGood : TcpConn → Prop) (udpGood : UdpConn → Prop) (stack : TunStack) :
    Prop where
  tcp : ∀ conn ∈ stack.tcp, tcpGood conn
  udp : ∀ conn ∈ stack.udp, udpGood conn

/-- The flow which an event concerns meets its condition. -/
def FlowGuard (tcpGuard : TcpConn → TcpEvent → Prop) (udpGuard : UdpConn → UdpEvent → Prop)
    (feedGuard : Option Answer → Prop) (stack : TunStack) : StackEvent → Prop
  | .tcp index event => ∀ conn, stack.tcp[index]? = some conn → tcpGuard conn event
  | .udp index event => ∀ conn, stack.udp[index]? = some conn → udpGuard conn event
  | .sendAnswered index port =>
      ∀ answer, stack.answers[index]? = some answer → port ≠ 53 → feedGuard (some answer)
  | .send _ port => port ≠ 53 → feedGuard none
  | _ => True

@[simp]
theorem flowGuard_true (stack : TunStack) (event : StackEvent) :
    stack.FlowGuard (fun _ _ => True) (fun _ _ => True) (fun _ => True) event := by
  cases event <;> simp [FlowGuard]

section Frames

variable {tcpGood : TcpConn → Prop} {udpGood : UdpConn → Prop}

theorem AllFlows.same {next : TunStack} (tcp_eq : next.tcp = stack.tcp)
    (udp_eq : next.udp = stack.udp) :
    next.AllFlows tcpGood udpGood ↔ stack.AllFlows tcpGood udpGood := by
  constructor
  · rintro ⟨tcp, udp⟩
    exact ⟨by rwa [tcp_eq] at tcp, by rwa [udp_eq] at udp⟩
  · rintro ⟨tcp, udp⟩
    exact ⟨by rwa [tcp_eq], by rwa [udp_eq]⟩

theorem handleDnsQuery_frame (lower : String → String) (stack : TunStack) (domain : String)
    (qtype : ℕ) :
    (stack.handleDnsQuery lower domain qtype).tcp = stack.tcp ∧
      (stack.handleDnsQuery lower domain qtype).udp = stack.udp := by
  simp only [handleDnsQuery]
  split
  · exact ⟨rfl, rfl⟩
  · split
    · split <;> exact ⟨rfl, rfl⟩
    · exact ⟨rfl, rfl⟩

theorem relayTcpDns_frame (lower : String → String) (stack : TunStack) (domain : String)
    (qtype : ℕ) :
    (stack.relayTcpDns lower domain qtype).tcp = stack.tcp ∧
      (stack.relayTcpDns lower domain qtype).udp = stack.udp := by
  simp only [relayTcpDns]
  split
  · split <;> exact ⟨rfl, rfl⟩
  · exact ⟨rfl, rfl⟩

theorem tcpDnsResolved_frame (lower : String → String) (stack : TunStack) (index : ℕ)
    (answer : Option Ipv4Addr) :
    (stack.tcpDnsResolved lower index answer).tcp = stack.tcp ∧
      (stack.tcpDnsResolved lower index answer).udp = stack.udp := by
  simp only [tcpDnsResolved]
  split
  · split <;> exact ⟨rfl, rfl⟩
  · exact ⟨rfl, rfl⟩

/-- A flow which starts has the property. -/
theorem AllFlows.accept (fresh_tcp : ∀ answer dst port, tcpGood ⟨answer, .accepted dst port⟩)
    (answer : Option Answer) (dst : IpAddr) (port : ℕ) :
    (stack.accept answer dst port).AllFlows tcpGood udpGood ↔
      stack.AllFlows tcpGood udpGood := by
  simp only [TunStack.accept]
  split
  · rfl
  · constructor
    · rintro ⟨tcp, udp⟩
      exact ⟨fun conn old => tcp conn (List.mem_append_left _ old), udp⟩
    · rintro ⟨tcp, udp⟩
      refine ⟨?_, udp⟩
      rw [List.forall_mem_append, List.forall_mem_singleton]
      exact ⟨tcp, fresh_tcp answer dst port⟩

theorem AllFlows.feed {feedGuard : Option Answer → Prop}
    (fresh_udp : ∀ answer dst port,
      udpGood ⟨answer, .feed stack.udpShared stack.blockQuic dst port⟩ ↔ feedGuard answer)
    (answer : Option Answer) (dst : IpAddr) (port : ℕ) :
    (stack.feed answer dst port).AllFlows tcpGood udpGood ↔
      stack.AllFlows tcpGood udpGood ∧ (port ≠ 53 → feedGuard answer) := by
  simp only [TunStack.feed]
  split
  · rename_i responder
    simp [responder]
  · rename_i relayed
    simp only [ne_eq, relayed, not_false_eq_true, forall_const]
    constructor
    · rintro ⟨tcp, udp⟩
      rw [List.forall_mem_append, List.forall_mem_singleton] at udp
      exact ⟨⟨tcp, udp.1⟩, (fresh_udp answer dst port).mp udp.2⟩
    · rintro ⟨⟨tcp, udp⟩, allowed⟩
      refine ⟨tcp, ?_⟩
      rw [List.forall_mem_append, List.forall_mem_singleton]
      exact ⟨udp, (fresh_udp answer dst port).mpr allowed⟩

end Frames

/-- One step of the stack, for a property of its flows. -/
theorem allFlows_step {tcpGood : TcpConn → Prop} {udpGood : UdpConn → Prop}
    {tcpGuard : TcpConn → TcpEvent → Prop} {udpGuard : UdpConn → UdpEvent → Prop}
    {feedGuard : Option Answer → Prop} (stack : TunStack) (event : StackEvent)
    (fresh_tcp : ∀ answer dst port, tcpGood ⟨answer, .accepted dst port⟩)
    (fresh_udp : ∀ answer dst port,
      udpGood ⟨answer, .feed stack.udpShared stack.blockQuic dst port⟩ ↔ feedGuard answer)
    (tcp_step : ∀ conn ∈ stack.tcp, ∀ event,
      tcpGood ⟨conn.answer, conn.flow.step sniffTcp stack.shared event⟩ ↔
        tcpGood conn ∧ tcpGuard conn event)
    (udp_step : ∀ conn ∈ stack.udp, ∀ event,
      udpGood ⟨conn.answer, conn.flow.step stack.udpShared event⟩ ↔
        udpGood conn ∧ udpGuard conn event) :
    (stack.step lower sniffTcp event).AllFlows tcpGood udpGood ↔
      stack.AllFlows tcpGood udpGood ∧ stack.FlowGuard tcpGuard udpGuard feedGuard event := by
  cases event with
  | swapEngine new | setRouter router | setBlockQuic blockQuic =>
      simp only [FlowGuard, and_true]
      exact AllFlows.same rfl rfl
  | udpDns domain qtype =>
      have frame := handleDnsQuery_frame lower stack domain qtype
      simp only [FlowGuard, and_true]
      exact AllFlows.same frame.1 frame.2
  | tcpDns domain qtype =>
      have frame := relayTcpDns_frame lower stack domain qtype
      simp only [FlowGuard, and_true]
      exact AllFlows.same frame.1 frame.2
  | tcpDnsResolved index answer =>
      have frame := tcpDnsResolved_frame lower stack index answer
      simp only [FlowGuard, and_true]
      exact AllFlows.same frame.1 frame.2
  | connectAnswered index port =>
      simp only [FlowGuard, and_true, step]
      split
      · exact AllFlows.accept fresh_tcp _ _ _
      · rfl
  | connect dst port =>
      simp only [FlowGuard, and_true]
      exact AllFlows.accept fresh_tcp none dst port
  | sendAnswered index port =>
      simp only [FlowGuard, step]
      cases found : stack.answers[index]? with
      | some answer =>
          simp only [Option.some.injEq, forall_eq']
          exact AllFlows.feed fresh_udp (some answer) _ port
      | none => simp
  | send dst port => exact AllFlows.feed fresh_udp none dst port
  | tcp index event =>
      simp only [FlowGuard, step]
      cases found : stack.tcp[index]? with
      | some conn =>
          have one := forall_mem_set_iff found (tcp_step conn (List.mem_of_getElem? found) event)
          simp only [Option.some.injEq, forall_eq']
          constructor
          · rintro ⟨tcp, udp⟩
            exact ⟨⟨(one.mp tcp).1, udp⟩, (one.mp tcp).2⟩
          · rintro ⟨⟨tcp, udp⟩, allowed⟩
            exact ⟨one.mpr ⟨tcp, allowed⟩, udp⟩
      | none => simp
  | udp index event =>
      simp only [FlowGuard, step]
      cases found : stack.udp[index]? with
      | some conn =>
          have one := forall_mem_set_iff found (udp_step conn (List.mem_of_getElem? found) event)
          simp only [Option.some.injEq, forall_eq']
          constructor
          · rintro ⟨tcp, udp⟩
            exact ⟨⟨tcp, (one.mp udp).1⟩, (one.mp udp).2⟩
          · rintro ⟨⟨tcp, udp⟩, allowed⟩
            exact ⟨tcp, one.mpr ⟨udp, allowed⟩⟩
      | none => simp

/-- The same for a property which a step of a flow only has to keep. -/
theorem allFlows_preserved {tcpGood : TcpConn → Prop} {udpGood : UdpConn → Prop}
    {tcpGuard : TcpConn → TcpEvent → Prop} {udpGuard : UdpConn → UdpEvent → Prop}
    {feedGuard : Option Answer → Prop} (all : stack.AllFlows tcpGood udpGood)
    {event : StackEvent} (guarded : stack.FlowGuard tcpGuard udpGuard feedGuard event)
    (fresh_tcp : ∀ answer dst port, tcpGood ⟨answer, .accepted dst port⟩)
    (fresh_udp : ∀ answer dst port, feedGuard answer →
      udpGood ⟨answer, .feed stack.udpShared stack.blockQuic dst port⟩)
    (tcp_step : ∀ conn event, tcpGood conn → tcpGuard conn event →
      tcpGood ⟨conn.answer, conn.flow.step sniffTcp stack.shared event⟩)
    (udp_step : ∀ conn event, udpGood conn → udpGuard conn event →
      udpGood ⟨conn.answer, conn.flow.step stack.udpShared event⟩) :
    (stack.step lower sniffTcp event).AllFlows tcpGood udpGood := by
  have feeds : ∀ answer dst port, (port ≠ 53 → feedGuard answer) →
      (stack.feed answer dst port).AllFlows tcpGood udpGood := by
    intro answer dst port allowed
    simp only [feed]
    split
    · exact all
    · rename_i relayed
      refine ⟨all.tcp, ?_⟩
      rw [List.forall_mem_append, List.forall_mem_singleton]
      exact ⟨all.udp, fresh_udp answer dst port (allowed relayed)⟩
  cases event with
  | swapEngine new | setRouter router | setBlockQuic blockQuic =>
      exact ⟨all.tcp, all.udp⟩
  | udpDns domain qtype =>
      have frame := handleDnsQuery_frame lower stack domain qtype
      exact (AllFlows.same frame.1 frame.2).mpr all
  | tcpDns domain qtype =>
      have frame := relayTcpDns_frame lower stack domain qtype
      exact (AllFlows.same frame.1 frame.2).mpr all
  | tcpDnsResolved index answer =>
      have frame := tcpDnsResolved_frame lower stack index answer
      exact (AllFlows.same frame.1 frame.2).mpr all
  | connectAnswered index port =>
      simp only [step]
      split
      · exact (AllFlows.accept fresh_tcp _ _ _).mpr all
      · exact all
  | connect dst port => exact (AllFlows.accept fresh_tcp none dst port).mpr all
  | sendAnswered index port =>
      simp only [step]
      split
      · rename_i answer found
        exact feeds _ _ _ (guarded answer found)
      · exact all
  | send dst port => exact feeds none dst port guarded
  | tcp index event =>
      simp only [step]
      split
      · rename_i conn found
        refine ⟨?_, all.udp⟩
        intro other member
        rcases List.mem_or_eq_of_mem_set member with old | rfl
        · exact all.tcp other old
        · exact tcp_step conn event (all.tcp conn (List.mem_of_getElem? found))
            (guarded conn found)
      · exact all
  | udp index event =>
      simp only [step]
      split
      · rename_i conn found
        refine ⟨all.tcp, ?_⟩
        intro other member
        rcases List.mem_or_eq_of_mem_set member with old | rfl
        · exact all.udp other old
        · exact udp_step conn event (all.udp conn (List.mem_of_getElem? found))
            (guarded conn found)
      · exact all

end TunStack

end Mirage.Tun
