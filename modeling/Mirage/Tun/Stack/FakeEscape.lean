import Mirage.Routing.Partial
import Mirage.Tun.Stack.Flows

/-!
# Fake addresses outside

A fake address means nothing to the server or the network.  A direct relay which
has one without a name ends, but `connect_tunnel` and the UDP relay announce the
address itself when there is no name.  So fake addresses stay inside in the runs
in which every flow to one has a name by the time it is proxied, and no name is
the text of a fake address.

Next to the events of the stack there is `reset_dns_and_fake_ip`, by which the
application clears the mapper of the current engine while flows are running.
-/

namespace Mirage.Tun

open Mirage.Foundations Mirage.Dns Mirage.Routing Mirage.Proxy

def Engine.clear (engine : Engine) : Engine where
  fakeIp := engine.fakeIp.clear
  network_eq := engine.network_eq
  mask_eq := engine.mask_eq

/-- The address is in the block of fake addresses, which is that of every engine. -/
def inFakeRange (ip : IpAddr) : Bool :=
  Engine.new.isFakeIp ip

/-- The name is the text of a fake address. -/
def isFakeText (host : String) : Bool :=
  (parseIpv4 host).any fun ip => inFakeRange (.v4 ip)

/-- The server is given a fake address to connect to. -/
def isFakeTarget : Address → Bool
  | .domain host _ => isFakeText host
  | .socket ip _ => inFakeRange ip

def Via.isFake : Via → Bool
  | .direct ip _ => inFakeRange ip
  | .tunnel target => isFakeTarget target

theorem inFakeRange_iff (engine : Engine) (ip : IpAddr) :
    inFakeRange ip = engine.isFakeIp ip :=
  Engine.isFakeIp_eq Engine.new engine ip

/-- A fake address is not dialed in place of another. -/
theorem not_inFakeRange_of_mayDial {router : RouterState} {target : IpAddr}
    (dials : mayDial router target true = true) : inFakeRange target = false := by
  rcases Bool.eq_false_or_eq_true (inFakeRange target) with fake | real
  · have isPublic := Engine.not_isPrivateIp fake
    have foreign : router.geo.isCnIp target = false := isCnIp_fake (Engine.isFakeIp_routing fake)
    simp [mayDial, isPublic, foreign] at dials
  · exact real

namespace TcpFlow

variable {sniffTcp : List UInt8 → Option String} {shared : Shared} {flow : TcpFlow}

/-- There is nothing but a fake address to announce for the flow. -/
def nameless (flow : TcpFlow) : Bool :=
  match flow.directDomain with
  | some dom => isFakeText dom
  | none => inFakeRange flow.dst

/--
A flow without a name is not routed to the proxy and does not fall back to it: a
direct connection to its own address does not fail, unless the failure closes
the flow, and a fake address is not resolved for a name which is no name.
-/
def Named (shared : Shared) (flow : TcpFlow) (event : TcpEvent) : Prop :=
  match flow.phase, event with
  | .routing, .proceed =>
      flow.nameless = true →
        shared.router.routeDecision
          ⟨flow.directDomain, some flow.dst, some flow.dstPort, some "tcp"⟩ ≠ .proxy
  | .directEntry _, .proceed =>
      inFakeRange flow.dst = true → ∀ dom, flow.directDomain = some dom → isFakeText dom = false
  | .dialing _ closeOnFailure, .connectFailed => flow.nameless = true → closeOnFailure = true
  | .dialing _ closeOnFailure, .timeout _ => flow.nameless = true → closeOnFailure = true
  | _, _ => True

/-- Nothing is asked of a flow which has a name, or is not yet looked at. -/
theorem Named.of_name {event : TcpEvent}
    (named : flow.nameless = false ∨ flow.phase = .opened) : flow.Named shared event := by
  rcases named with named | phase_eq
  · simp only [Named, named]
    split
    · simp
    · intro _ dom domain_eq
      simpa only [nameless, domain_eq] using named
    · simp
    · simp
    · trivial
  · simp only [Named, phase_eq]

/-- What is known of the flow in a phase: where it dials, and that it has a name to announce. -/
def Covers (flow : TcpFlow) : TcpPhase → Prop
  | .dialing target _ => inFakeRange target = false
  | .lanLookup | .upstreamLookup | .tunnelEntry _ | .tunnelTag _ | .acquiring _ _
  | .headerWrite _ _ | .preRead | .initialWrite _ => flow.nameless = false
  | .opened | .sniffing | .routing | .directEntry _ | .directInitial | .relayRead
  | .relayWrite _ | .ended => True

structure Covered (flow : TcpFlow) : Prop where
  upstreams : ∀ upstream ∈ flow.upstreams, upstream.via.isFake = false
  phase : flow.Covers flow.phase

theorem accepted_covered (dst : IpAddr) (dstPort : ℕ) : (accepted dst dstPort).Covered := by
  refine ⟨?_, trivial⟩
  simp [accepted]

theorem isFakeTarget_target (flow : TcpFlow) : isFakeTarget flow.target = flow.nameless := by
  simp only [target, nameless]
  cases flow.directDomain <;> rfl

/-- A step to a phase of which nothing more has to be known. -/
theorem Covered.enter (covered : flow.Covered) {next : TcpFlow}
    (same : next.upstreams = flow.upstreams) (covers : next.Covers next.phase) : next.Covered := by
  refine ⟨?_, covers⟩
  rw [same]
  exact covered.upstreams

theorem Covered.toProxy (covered : flow.Covered) (named : flow.nameless = false) :
    flow.toProxy.Covered :=
  covered.enter rfl named

theorem Covered.dial (covered : flow.Covered) {target : IpAddr} {isFake : Bool}
    (real : mayDial shared.router target isFake = true → inFakeRange target = false)
    (named : mayDial shared.router target isFake = false → flow.nameless = false) :
    (flow.dial shared target isFake).Covered := by
  simp only [TcpFlow.dial]
  split
  · rename_i dials
    exact covered.enter rfl (real dials)
  · rename_i refused
    exact covered.toProxy (named (Bool.eq_false_of_not_eq_true refused))

/-- The search for the real address is over, and the flow has a name to fall back to. -/
theorem Covered.resolved (covered : flow.Covered) (named : flow.nameless = false)
    (target : DirectTarget) : (flow.resolved shared target).Covered := by
  cases target with
  | ip target | routerIp target => exact covered.dial not_inFakeRange_of_mayDial fun _ => named
  | fallbackProxy => exact covered.toProxy named
  | drop => exact covered.enter rfl trivial

theorem Covered.enterDirect (covered : flow.Covered) {source : DecisionSource}
    (phase_eq : flow.phase = .directEntry source) (met : flow.Named shared .proceed) :
    (flow.enterDirect shared source).Covered := by
  have read : (flow.readEngine shared).Covered := ⟨covered.upstreams, covered.phase⟩
  simp only [TcpFlow.enterDirect]
  split
  · rename_i fake
    split
    · rename_i dom domain_eq
      change flow.directDomain = some dom at domain_eq
      have named : (flow.readEngine shared).nameless = false := by
        simp only [Named, phase_eq, inFakeRange_iff shared.engine] at met
        simp only [nameless, TcpFlow.readEngine, domain_eq]
        exact met fake dom domain_eq
      split
      · exact read.resolved named _
      · exact read.enter rfl named
      · exact read.enter rfl named
    · exact read.enter rfl trivial
  · rename_i real
    apply read.dial
    · intro _
      rw [inFakeRange_iff shared.engine]
      exact Bool.eq_false_of_not_eq_true real
    · intro refused
      simp [mayDial] at refused

theorem Covered.route (covered : flow.Covered) (phase_eq : flow.phase = .routing)
    (met : flow.Named shared .proceed) : (flow.route shared).Covered := by
  simp only [Named, phase_eq, RouterState.routeDecision] at met
  simp only [TcpFlow.route]
  rcases decision : shared.router.routeDecisionSourced
    ⟨flow.directDomain, some flow.dst, some flow.dstPort, some "tcp"⟩ with ⟨action, source, name⟩
  rw [decision] at met
  cases action with
  | direct | block => exact covered.enter rfl trivial
  | proxy =>
      have named : flow.nameless = false :=
        Bool.eq_false_of_not_eq_true fun missing => met missing rfl
      exact covered.enter rfl named

theorem Covered.dialFailed (covered : flow.Covered) {closeOnFailure : Bool}
    (closes : flow.nameless = true → closeOnFailure = true) :
    (flow.dialFailed closeOnFailure).Covered := by
  simp only [TcpFlow.dialFailed]
  split
  · exact covered.enter rfl trivial
  · rename_i falls
    apply covered.toProxy
    exact Bool.eq_false_of_not_eq_true fun missing => falls (closes missing)

theorem Covered.sendInitial (covered : flow.Covered) (named : flow.nameless = false) :
    flow.sendInitial.Covered := by
  refine covered.enter rfl ?_
  simp only [TcpFlow.sendInitial]
  split
  · trivial
  · exact named

theorem Covered.nextAttempt (covered : flow.Covered) (named : flow.nameless = false)
    (retry : Bool) (attempt : ℕ) : (flow.nextAttempt retry attempt).Covered := by
  refine covered.enter rfl ?_
  simp only [TcpFlow.nextAttempt]
  split
  · exact named
  · trivial

theorem Covered.handOver (covered : flow.Covered) (bytes : List UInt8) :
    (flow.handOver bytes).Covered := by
  have upstreams := covered.upstreams
  simp only [TcpFlow.handOver]
  split
  · exact covered
  · rename_i upstream older upstreams_eq
    rw [upstreams_eq, List.forall_mem_cons] at upstreams
    refine ⟨?_, covered.phase⟩
    rw [List.forall_mem_cons]
    exact upstreams

theorem Covered.afterWrite (covered : flow.Covered) : flow.afterWrite.Covered := by
  have phase := covered.phase
  simp only [TcpFlow.afterWrite]
  split <;> rename_i phase_eq
  · rw [phase_eq] at phase
    simp only [TcpFlow.tunnelReady]
    split
    · exact covered.enter rfl phase
    · split
      · exact covered.enter rfl phase
      · exact covered.sendInitial phase
  · exact covered.enter rfl trivial
  · exact covered.enter rfl trivial
  · exact covered.enter rfl trivial
  · exact covered

theorem Covered.afterFailure (covered : flow.Covered) : flow.afterFailure.Covered := by
  have phase := covered.phase
  simp only [TcpFlow.afterFailure]
  split <;> rename_i phase_eq
  · rw [phase_eq] at phase
    exact covered.nextAttempt phase _ _
  · rw [phase_eq] at phase
    exact covered.enter rfl phase
  · exact covered.enter rfl trivial
  · exact covered.enter rfl trivial
  · exact covered.enter rfl trivial
  · exact covered

theorem Covered.proceed (covered : flow.Covered) (met : flow.Named shared .proceed) :
    (flow.proceed sniffTcp shared).Covered := by
  have phase := covered.phase
  simp only [TcpFlow.proceed]
  split <;> rename_i phase_eq
  · refine covered.enter rfl ?_
    simp only [reverse]
    split <;> trivial
  · split
    · simp only [sniffed]
      split <;> exact covered.enter rfl trivial
    · exact covered
  · exact covered.route phase_eq met
  · exact covered.enterDirect phase_eq met
  · rw [phase_eq] at phase
    exact covered.enter rfl phase
  · rw [phase_eq] at phase
    exact covered.enter rfl phase
  · rw [phase_eq] at phase
    split
    · rename_i bytes next _
      have read : Covered
          { flow with stream := next, initialPayload := flow.initialPayload ++ bytes } :=
        ⟨covered.upstreams, covered.phase⟩
      exact read.sendInitial phase
    · exact covered
  · split
    · exact covered.enter rfl trivial
    · exact covered.enter rfl trivial
    · exact covered
  · exact covered

/-- A flow which is proxied with a name only announces nothing else. -/
theorem Covered.step (covered : flow.Covered) {event : TcpEvent} (met : flow.Named shared event) :
    (flow.step sniffTcp shared event).Covered := by
  have phase := covered.phase
  cases event with
  | arrive bytes =>
      simp only [TcpFlow.step]
      split
      · exact covered
      · exact covered.enter rfl covered.phase
  | finish | remove => exact covered.enter rfl covered.phase
  | proceed => exact covered.proceed met
  | timeout active =>
      simp only [TcpFlow.step, TcpFlow.timeout]
      split <;> rename_i phase_eq
      · exact covered.enter rfl trivial
      · simp only [Named, phase_eq] at met
        exact covered.dialFailed met
      · rw [phase_eq] at phase
        exact covered.sendInitial phase
      · split
        · exact covered
        · exact covered.enter rfl trivial
      · exact covered
  | lanAnswer answer | upstreamAnswer answer =>
      simp only [TcpFlow.step]
      split <;> rename_i phase_eq
      · rw [phase_eq] at phase
        exact covered.resolved phase _
      · exact covered
  | connected =>
      simp only [TcpFlow.step]
      split <;> rename_i phase_eq
      · rw [phase_eq] at phase
        refine ⟨?_, ?_⟩
        · simp only [dialed]
          rw [List.forall_mem_cons]
          exact ⟨phase, covered.upstreams⟩
        · simp only [dialed]
          split <;> trivial
      · exact covered
  | connectFailed =>
      simp only [TcpFlow.step]
      split <;> rename_i phase_eq
      · simp only [Named, phase_eq] at met
        exact covered.dialFailed met
      · exact covered
  | tunnel available =>
      simp only [TcpFlow.step]
      split <;> rename_i phase_eq
      · rw [phase_eq] at phase
        split
        · refine ⟨?_, phase⟩
          rw [List.forall_mem_cons]
          refine ⟨?_, covered.upstreams⟩
          exact flow.isFakeTarget_target.trans phase
        · exact covered.nextAttempt phase _ _
      · exact covered
  | written => exact (covered.handOver _).afterWrite
  | writeFailed count => exact (covered.handOver _).afterFailure
  | stop count =>
      have written := covered.handOver (flow.outgoing.take count)
      exact written.enter rfl trivial

end TcpFlow

namespace UdpFlow

variable {shared : Shared} {flow : UdpFlow}

/-- When the target of the tunnel is looked up, the mapper has a name for a fake address. -/
def Named (shared : Shared) (flow : UdpFlow) (event : UdpEvent) : Prop :=
  match flow.phase, event with
  | .tunnelEntry, .proceed =>
      match shared.engine.fakeIpReverse flow.dst with
      | some domain => isFakeText domain = false
      | none => inFakeRange flow.dst = false
  | _, _ => True

/-- The frames and datagrams of the flow do not go to a fake address. -/
def SendsReal (flow : UdpFlow) : Prop :=
  match flow.phase with
  | .direct target => inFakeRange target = false
  | .tunnel target => isFakeTarget target = false
  | _ => True

theorem sendsReal_feed (shared : Shared) (blockQuic : Bool) (dst : IpAddr) (dstPort : ℕ) :
    (feed shared blockQuic dst dstPort).SendsReal := by
  simp only [SendsReal, feed]
  split <;> rename_i phase_eq
  · split at phase_eq <;> cases phase_eq
  · split at phase_eq <;> cases phase_eq
  · trivial

theorem sendsReal_sendTo {target : IpAddr} {isFake : Bool}
    (real : mayDial shared.router target isFake = true → inFakeRange target = false) :
    (flow.sendTo shared target isFake).SendsReal := by
  simp only [sendTo]
  split
  · rename_i dials
    exact real dials
  · trivial

theorem sendsReal_resolved (target : DirectTarget) : (flow.resolved shared target).SendsReal := by
  cases target with
  | ip target | routerIp target => exact sendsReal_sendTo not_inFakeRange_of_mayDial
  | fallbackProxy | drop => trivial

theorem sendsReal_enterDirect (source : DecisionSource) :
    (flow.enterDirect shared source).SendsReal := by
  simp only [enterDirect]
  split
  · split
    · split
      · exact sendsReal_resolved _
      · trivial
      · trivial
    · trivial
  · rename_i real
    apply sendsReal_sendTo
    intro _
    rw [inFakeRange_iff shared.engine]
    exact Bool.eq_false_of_not_eq_true real

theorem sendsReal_start : (flow.start shared).SendsReal := by
  simp only [start]
  split
  · trivial
  · exact sendsReal_enterDirect _
  · trivial

theorem SendsReal.step (sends : flow.SendsReal) {event : UdpEvent}
    (met : flow.Named shared event) : (flow.step shared event).SendsReal := by
  cases event with
  | proceed =>
      simp only [UdpFlow.step]
      split <;> rename_i phase_eq
      · exact sendsReal_start
      · simp only [Named, phase_eq] at met
        simp only [SendsReal, tunnelTarget]
        cases found : shared.engine.fakeIpReverse flow.dst with
        | some domain =>
            simp only [found] at met ⊢
            exact met
        | none =>
            simp only [found] at met ⊢
            exact met
      · exact sends
  | lanAnswer answer | upstreamAnswer answer =>
      simp only [UdpFlow.step]
      split
      · exact sendsReal_resolved _
      · exact sends
  | stop => trivial

end UdpFlow

namespace TunStack

variable (lower : String → String) (sniffTcp : List UInt8 → Option String)

/-- `reset_dns_and_fake_ip`, on the engine which the handle points to. -/
def resetDnsAndFakeIp (stack : TunStack) : TunStack :=
  { stack with
    engines := Function.update stack.engines stack.engineId (stack.engines stack.engineId).clear
    router := { stack.router with directCache := ∅ } }

end TunStack

/-- An event of the stack, or a reset by the application. -/
inductive ResetEvent where
  | stack (event : StackEvent)
  | resetDnsAndFakeIp

namespace TunStack

variable (lower : String → String) (sniffTcp : List UInt8 → Option String)

def stepReset (stack : TunStack) : ResetEvent → TunStack
  | .stack event => stack.step lower sniffTcp event
  | .resetDnsAndFakeIp => stack.resetDnsAndFakeIp

variable {lower sniffTcp} {stack : TunStack}

/-- No tunnel was given a fake address, and no connection or datagram goes to one. -/
structure NoEscape (stack : TunStack) : Prop where
  tcp : ∀ conn ∈ stack.tcp, ∀ upstream ∈ conn.flow.upstreams, upstream.via.isFake = false
  udp : ∀ conn ∈ stack.udp, conn.flow.SendsReal

/-- The flow which steps is not proxied without a name. -/
def Named (stack : TunStack) : ResetEvent → Prop
  | .stack event =>
      stack.FlowGuard (fun conn event => conn.flow.Named stack.shared event)
        (fun conn event => conn.flow.Named stack.udpShared event) (fun _ => True) event
  | .resetDnsAndFakeIp => True

theorem named_tcp {index : ℕ} {event : TcpEvent}
    (named : ∀ conn ∈ stack.tcp, conn.flow.nameless = false ∨ conn.flow.phase = .opened) :
    stack.Named (.stack (.tcp index event)) := by
  intro conn found
  exact .of_name (named conn (List.mem_of_getElem? found))

/--
In every run in which no flow is proxied without a name, whatever was swapped,
reset and evicted, no fake address is announced to the server or connected to.
-/
theorem noEscape_of_named (lower : String → String) (sniffTcp : List UInt8 → Option String)
    (engine : Engine) (router : RouterState) (blockQuic : Bool) {events : List ResetEvent}
    (guarded : Along (stepReset lower sniffTcp) Named (start engine router blockQuic) events) :
    Throughout (stepReset lower sniffTcp) NoEscape (start engine router blockQuic) events := by
  have enough : ∀ {stack : TunStack},
      stack.AllFlows (fun conn => conn.flow.Covered) (fun conn => conn.flow.SendsReal) →
        stack.NoEscape := by
    intro stack flows
    exact ⟨fun conn member => (flows.tcp conn member).upstreams, flows.udp⟩
  have kept : ∀ {stack : TunStack} {event : ResetEvent},
      stack.AllFlows (fun conn => conn.flow.Covered) (fun conn => conn.flow.SendsReal) →
        stack.Named event → (stack.stepReset lower sniffTcp event).AllFlows
          (fun conn => conn.flow.Covered) (fun conn => conn.flow.SendsReal) := by
    intro stack event flows named
    cases event with
    | stack event =>
        simp only [Named] at named
        apply allFlows_preserved flows named
        · intro answer dst port
          exact TcpFlow.accepted_covered dst port
        · intro answer dst port _
          exact UdpFlow.sendsReal_feed _ _ dst port
        · intro conn event covered met
          exact covered.step met
        · intro conn event sends met
          exact sends.step met
    | resetDnsAndFakeIp => exact ⟨flows.tcp, flows.udp⟩
  apply throughout_of_along _ enough kept guarded
  refine ⟨?_, ?_⟩ <;> simp [start]

def openStack : TunStack :=
  start .new (.initial .empty) true

/-- A client asks for the address of a site. -/
def siteAnswered : List ResetEvent :=
  [.stack (.udpDns "google.com" 1)]

/-- The client connects to the address, waits for the server, and is proxied. -/
def siteConnected : List ResetEvent :=
  [.stack (.connectAnswered 0 22), .stack (.tcp 0 .proceed), .stack (.tcp 0 .proceed),
    .stack (.tcp 0 .proceed), .stack (.tcp 0 .proceed), .stack (.tcp 0 (.tunnel true)),
    .stack (.tcp 0 .written)]

/-- The tables of domains are gone through once, so that the runs are short. -/
theorem run_siteAnswered :
    run (stepReset id fun _ => none) openStack siteAnswered =
      openStack.answerFake id "google.com" := by
  have routed : openStack.router.routeDecision
      ⟨some "google.com", none, some 53, some "udp"⟩ ≠ .block :=
    RouterState.initial_not_block (by simp)
  have unresolved : openStack.router.shouldResolveUpstream "google.com" = false := by
    decide +kernel
  simp [siteAnswered, stepReset, TunStack.step, handleDnsQuery, routed, unresolved]

theorem siteConnected_named :
    Along (stepReset id fun _ => none) Named openStack (siteAnswered ++ siteConnected) := by
  apply Along.append.mpr
  constructor
  · exact ⟨trivial, trivial⟩
  · rw [run_siteAnswered]
    refine ⟨trivial, ?_, ?_, ?_, ?_, ?_, ?_, trivial⟩
    all_goals
      apply named_tcp
      decide +kernel

theorem noEscape_of_named_site :
    Throughout (stepReset id fun _ => none) NoEscape openStack (siteAnswered ++ siteConnected) :=
  noEscape_of_named id (fun _ => none) .new (.initial .empty) true siteConnected_named

/-- The same after a reset, when the client's first bytes are awaited in vain. -/
def siteForgotten : List ResetEvent :=
  [.resetDnsAndFakeIp, .stack (.connectAnswered 0 22), .stack (.tcp 0 .proceed),
    .stack (.tcp 0 (.timeout false)), .stack (.tcp 0 .proceed), .stack (.tcp 0 .proceed),
    .stack (.tcp 0 .proceed), .stack (.tcp 0 (.tunnel true)), .stack (.tcp 0 .written)]

/-- The server is given the fake address of a site which the mapper has forgotten. -/
theorem not_noEscape_forgotten :
    ¬Throughout (stepReset id fun _ => none) NoEscape openStack
      (siteAnswered ++ siteForgotten) := by
  intro safe
  have escaped : ∃ conn ∈ (run (stepReset id fun _ => none) openStack
      (siteAnswered ++ siteForgotten)).tcp,
      ∃ upstream ∈ conn.flow.upstreams, upstream.via.isFake = true := by
    rw [run_append, run_siteAnswered]
    decide +kernel
  rcases escaped with ⟨conn, member, upstream, made, fake⟩
  rw [safe.run.tcp conn member upstream made] at fake
  exact Bool.false_ne_true fake

end TunStack

end Mirage.Tun
