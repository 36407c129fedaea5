import Mirage.Tun.Stack.Naming

/-!
# Local targets

A flow to a private address or a local name is routed directly before any rule.
It stays out of the tunnel as long as the cache has no foreign address for the
name and the connection to the target comes about; `Kept` is the invariant of
such a flow.
-/

namespace Mirage.Tun

open Mirage.Foundations Mirage.Routing

/-- The address which the cache has for a name, if any, is local or Chinese. -/
def CachedLocally (router : RouterState) (dom : String) : Prop :=
  ∀ realIp, router.directDnsLookup dom = some realIp →
    isPrivateIp realIp = true ∨ router.geo.isCnIp realIp = true

theorem isPrivateIp_of_defaultRouterIp {domain : String} {ip : IpAddr}
    (gateway : defaultRouterIpForDomain domain = some ip) : isPrivateIp ip = true := by
  simp only [defaultRouterIpForDomain] at gateway
  split at gateway
  · cases gateway
    decide
  split at gateway
  · cases gateway
    decide
  split at gateway
  · cases gateway
    decide
  split at gateway
  · cases gateway
    decide
  split at gateway
  · cases gateway
    decide
  · simp at gateway

/-- An address of the local network is dialed, fake name or not. -/
theorem mayDial_of_private {router : RouterState} {target : IpAddr} {isFake : Bool}
    (isPrivate : isPrivateIp target = true) : mayDial router target isFake = true := by
  simp [mayDial, isPrivate]

/-- What is tried for a local name, before its relay waits, leads to a local address. -/
theorem resolveDirectTarget_local {router : RouterState} {dom : String}
    (isLan : isLanOrRouterDomain dom = true) (cached : CachedLocally router dom)
    (source : DecisionSource) :
    resolveDirectTarget router dom source = .lanLookup ∨
      ∃ target ip, resolveDirectTarget router dom source = .done target ∧
        (target = .ip ip ∨ target = .routerIp ip) ∧ mayDial router ip true = true := by
  cases found : router.directDnsLookup dom with
  | some realIp =>
      right
      refine ⟨_, realIp, by simp only [resolveDirectTarget, found], .inl rfl, ?_⟩
      rcases cached realIp found with isPrivate | isCn
      · exact mayDial_of_private isPrivate
      · simp [mayDial, isCn]
  | none =>
      cases gateway : defaultRouterIpForDomain dom with
      | some routerIp =>
          right
          refine ⟨_, routerIp, by simp only [resolveDirectTarget, found, isLan, gateway, if_true],
            .inr rfl, mayDial_of_private (isPrivateIp_of_defaultRouterIp gateway)⟩
      | none =>
          left
          simp only [resolveDirectTarget, found, isLan, gateway, if_true]

namespace TcpFlow

variable {sniffTcp : List UInt8 → Option String} {shared : Shared} {flow : TcpFlow}

/-- The flow was routed directly before any rule. -/
def Local (flow : TcpFlow) : Prop :=
  flow.decision = some (.direct, .lan)

/--
No step of a local flow gives it up: the cache has no foreign address when its
name is resolved, and the connection to the target does not fail, unless the
target is one for which a failure closes the flow.
-/
def Reaches (shared : Shared) (flow : TcpFlow) (event : TcpEvent) : Prop :=
  match flow.phase, event with
  | .directEntry .lan, .proceed =>
      shared.engine.isFakeIp flow.dst = true →
        ∀ dom, flow.directDomain = some dom → CachedLocally shared.router dom
  | .dialing _ closeOnFailure, .connectFailed => flow.Local → closeOnFailure = true
  | .dialing _ closeOnFailure, .timeout _ => flow.Local → closeOnFailure = true
  | _, _ => True

/-- A poll of a flow which is not about to resolve, or has a real address. -/
theorem Reaches.of_proceed
    (harmless : flow.phase ≠ .directEntry .lan ∨ shared.engine.isFakeIp flow.dst = false) :
    flow.Reaches shared .proceed := by
  simp only [Reaches]
  split
  · rename_i phase_eq _
    intro fake
    rcases harmless with other | real
    · exact absurd phase_eq other
    · simp [real] at fake
  · trivial
  · trivial
  · trivial

theorem Reaches.of_connected : flow.Reaches shared .connected := by
  simp only [Reaches]
  split <;> trivial

/-- What is known of the decision in a phase. -/
def Routed (flow : TcpFlow) : TcpPhase → Prop
  | .opened | .sniffing | .routing => flow.decision = none ∧ flow.proxied = false
  | .directEntry source => flow.decision = some (.direct, source)
  | .upstreamLookup => ¬flow.Local
  | _ => True

structure Kept (flow : TcpFlow) : Prop where
  routed : flow.Routed flow.phase
  local_target : flow.Local →
    isPrivateIp flow.dst = true ∨ flow.directDomain.any isLanOrRouterDomain = true
  not_proxied : flow.Local → flow.proxied = false

theorem accepted_kept (dst : IpAddr) (dstPort : ℕ) : (accepted dst dstPort).Kept := by
  refine ⟨⟨rfl, rfl⟩, ?_, ?_⟩
  · intro isLocal
    simp [Local, accepted] at isLocal
  · intro _
    rfl

/-- What the invariant reads is the same. -/
def SameRoute (first second : TcpFlow) : Prop :=
  first.decision = second.decision ∧ first.proxied = second.proxied ∧ first.dst = second.dst ∧
    first.directDomain = second.directDomain

theorem Kept.of_same {next : TcpFlow} (kept : flow.Kept) (same : next.SameRoute flow)
    (routed : next.Routed next.phase) : next.Kept := by
  rcases same with ⟨decision_eq, proxied_eq, dst_eq, domain_eq⟩
  refine ⟨routed, ?_, ?_⟩
  · simp only [Local, decision_eq, dst_eq, domain_eq]
    exact kept.local_target
  · simp only [Local, decision_eq, proxied_eq]
    exact kept.not_proxied

theorem handOver_same (flow : TcpFlow) (bytes : List UInt8) :
    (flow.handOver bytes).SameRoute flow := by
  simp only [handOver]
  split <;> exact ⟨rfl, rfl, rfl, rfl⟩

theorem Kept.toProxy (kept : flow.Kept) (notLocal : ¬flow.Local) : flow.toProxy.Kept :=
  ⟨trivial, kept.local_target, fun isLocal => absurd isLocal notLocal⟩

theorem Kept.dial (kept : flow.Kept) {target : IpAddr} {isFake : Bool}
    (dials : flow.Local → mayDial shared.router target isFake = true) :
    (flow.dial shared target isFake).Kept := by
  simp only [TcpFlow.dial]
  split
  · exact kept.of_same ⟨rfl, rfl, rfl, rfl⟩ trivial
  · rename_i refused
    exact kept.toProxy fun isLocal => refused (dials isLocal)

theorem Kept.lanAnswered (kept : flow.Kept) (answer : Option IpAddr) :
    (flow.resolved shared (lanAnswered answer)).Kept := by
  have dropped : Kept { flow with phase := .ended } :=
    kept.of_same ⟨rfl, rfl, rfl, rfl⟩ trivial
  cases answer with
  | none => exact dropped
  | some ip =>
      simp only [Tun.lanAnswered]
      split
      · rename_i isPrivate
        exact kept.dial fun _ => mayDial_of_private isPrivate
      · exact dropped

/-- A flow which is not local may go anywhere. -/
theorem Kept.resolved (kept : flow.Kept) (notLocal : ¬flow.Local) (target : DirectTarget) :
    (flow.resolved shared target).Kept := by
  cases target with
  | ip target | routerIp target => exact kept.dial fun isLocal => absurd isLocal notLocal
  | fallbackProxy => exact kept.toProxy notLocal
  | drop => exact kept.of_same ⟨rfl, rfl, rfl, rfl⟩ trivial

theorem Kept.dialFailed (kept : flow.Kept) {closeOnFailure : Bool}
    (closes : flow.Local → closeOnFailure = true) : (flow.dialFailed closeOnFailure).Kept := by
  simp only [TcpFlow.dialFailed]
  split
  · exact kept.of_same ⟨rfl, rfl, rfl, rfl⟩ trivial
  · rename_i falls
    exact kept.toProxy fun isLocal => falls (closes isLocal)

theorem Kept.route (kept : flow.Kept) (phase_eq : flow.phase = .routing) :
    (flow.route shared).Kept := by
  have undecided := kept.routed
  rw [phase_eq] at undecided
  rcases undecided with ⟨_, not_proxied⟩
  simp only [TcpFlow.route]
  rcases decision : shared.router.routeDecisionSourced
    ⟨flow.directDomain, some flow.dst, some flow.dstPort, some "tcp"⟩ with ⟨action, source, name⟩
  have local_target : action = .direct → source = .lan →
      isPrivateIp flow.dst = true ∨ flow.directDomain.any isLanOrRouterDomain = true := by
    rintro direct rfl
    simpa using RouterState.lan_request decision direct
  cases action with
  | direct =>
      refine ⟨rfl, ?_, fun _ => not_proxied⟩
      intro isLocal
      simp only [Local, Option.some.injEq, Prod.mk.injEq, true_and] at isLocal
      exact local_target rfl isLocal
  | proxy =>
      refine ⟨trivial, ?_, ?_⟩ <;>
        · intro isLocal
          simp [Local, TcpFlow.toProxy] at isLocal
  | block =>
      refine ⟨trivial, ?_, ?_⟩ <;>
        · intro isLocal
          simp [Local] at isLocal

theorem Kept.enterDirect (kept : flow.Kept) {source : DecisionSource}
    (phase_eq : flow.phase = .directEntry source) (reaches : flow.Reaches shared .proceed) :
    (flow.enterDirect shared source).Kept := by
  have decided := kept.routed
  rw [phase_eq] at decided
  change flow.decision = some (.direct, source) at decided
  have read : (flow.readEngine shared).Kept := ⟨kept.routed, kept.local_target, kept.not_proxied⟩
  simp only [TcpFlow.enterDirect]
  split
  · rename_i fake
    change shared.engine.isFakeIp flow.dst = true at fake
    split
    · rename_i dom domain_eq
      change flow.directDomain = some dom at domain_eq
      by_cases isLocal : flow.Local
      · -- The name is local, since the address is fake and so not private.
        have isLan : isLanOrRouterDomain dom = true := by
          have target := kept.local_target isLocal
          simpa [Engine.not_isPrivateIp fake, domain_eq] using target
        have source_eq : source = .lan := by
          simpa [Local, decided] using isLocal
        subst source_eq
        have cached : CachedLocally shared.router dom := by
          simp only [Reaches, phase_eq] at reaches
          exact reaches fake dom domain_eq
        rcases resolveDirectTarget_local isLan cached .lan with
          waits | ⟨target, ip, done, leads, dials⟩
        · simp only [waits]
          exact read.of_same ⟨rfl, rfl, rfl, rfl⟩ trivial
        · simp only [done]
          rcases leads with rfl | rfl
          · exact read.dial fun _ => dials
          · exact read.dial fun _ => dials
      · have notLocal : ¬(flow.readEngine shared).Local := isLocal
        split
        · exact read.resolved notLocal _
        · exact read.of_same ⟨rfl, rfl, rfl, rfl⟩ trivial
        · exact read.of_same ⟨rfl, rfl, rfl, rfl⟩ notLocal
    · exact read.of_same ⟨rfl, rfl, rfl, rfl⟩ trivial
  · exact read.dial fun _ => by simp [mayDial]

theorem Kept.reverse (kept : flow.Kept) (phase_eq : flow.phase = .opened) :
    (flow.reverse shared).Kept := by
  have undecided := kept.routed
  rw [phase_eq] at undecided
  have notLocal : flow.decision ≠ some (.direct, .lan) := by simp [undecided.1]
  refine ⟨?_, fun isLocal => absurd isLocal notLocal, fun _ => undecided.2⟩
  simp only [TcpFlow.reverse]
  split
  · exact undecided
  · exact undecided

theorem Kept.sniffed (kept : flow.Kept) (phase_eq : flow.phase = .sniffing)
    (bytes : List UInt8) (next : TunTcpStream) :
    ({ flow with stream := next }.sniffed sniffTcp bytes).Kept := by
  have undecided := kept.routed
  rw [phase_eq] at undecided
  have notLocal : flow.decision ≠ some (.direct, .lan) := by simp [undecided.1]
  simp only [TcpFlow.sniffed]
  split
  · exact ⟨undecided, fun isLocal => absurd isLocal notLocal, fun _ => undecided.2⟩
  · exact ⟨undecided, fun isLocal => absurd isLocal notLocal, fun _ => undecided.2⟩

/-- The parts of a step which come after the decision and leave it alone. -/
theorem sendInitial_same (flow : TcpFlow) :
    flow.sendInitial.SameRoute flow ∧ flow.sendInitial.Routed flow.sendInitial.phase := by
  refine ⟨⟨rfl, rfl, rfl, rfl⟩, ?_⟩
  simp only [sendInitial]
  split <;> trivial

theorem tunnelReady_same (flow : TcpFlow) (retry : Bool) :
    (flow.tunnelReady retry).SameRoute flow ∧
      (flow.tunnelReady retry).Routed (flow.tunnelReady retry).phase := by
  simp only [tunnelReady]
  split
  · exact ⟨⟨rfl, rfl, rfl, rfl⟩, trivial⟩
  · split
    · exact ⟨⟨rfl, rfl, rfl, rfl⟩, trivial⟩
    · exact sendInitial_same flow

theorem nextAttempt_same (flow : TcpFlow) (retry : Bool) (attempt : ℕ) :
    (flow.nextAttempt retry attempt).SameRoute flow ∧
      (flow.nextAttempt retry attempt).Routed (flow.nextAttempt retry attempt).phase := by
  refine ⟨⟨rfl, rfl, rfl, rfl⟩, ?_⟩
  simp only [nextAttempt]
  split <;> trivial

theorem Kept.afterWrite (kept : flow.Kept) : flow.afterWrite.Kept := by
  simp only [TcpFlow.afterWrite]
  split
  · rename_i retry attempt _
    have ready := flow.tunnelReady_same retry
    exact kept.of_same ready.1 ready.2
  · exact kept.of_same ⟨rfl, rfl, rfl, rfl⟩ trivial
  · exact kept.of_same ⟨rfl, rfl, rfl, rfl⟩ trivial
  · exact kept.of_same ⟨rfl, rfl, rfl, rfl⟩ trivial
  · exact kept

theorem Kept.afterFailure (kept : flow.Kept) : flow.afterFailure.Kept := by
  simp only [TcpFlow.afterFailure]
  split
  · rename_i retry attempt _
    have next := flow.nextAttempt_same retry attempt
    exact kept.of_same next.1 next.2
  · exact kept.of_same ⟨rfl, rfl, rfl, rfl⟩ trivial
  · exact kept.of_same ⟨rfl, rfl, rfl, rfl⟩ trivial
  · exact kept.of_same ⟨rfl, rfl, rfl, rfl⟩ trivial
  · exact kept.of_same ⟨rfl, rfl, rfl, rfl⟩ trivial
  · exact kept

theorem Kept.handOver (kept : flow.Kept) (bytes : List UInt8) : (flow.handOver bytes).Kept := by
  have routed := kept.routed
  simp only [TcpFlow.handOver]
  split
  · exact kept
  · exact ⟨routed, kept.local_target, kept.not_proxied⟩

theorem Kept.proceed (kept : flow.Kept) (reaches : flow.Reaches shared .proceed) :
    (flow.proceed sniffTcp shared).Kept := by
  simp only [TcpFlow.proceed]
  split <;> rename_i phase_eq
  · exact kept.reverse phase_eq
  · split
    · exact kept.sniffed phase_eq _ _
    · exact kept
  · exact kept.route phase_eq
  · exact kept.enterDirect phase_eq reaches
  · exact kept.of_same ⟨rfl, rfl, rfl, rfl⟩ trivial
  · exact kept.of_same ⟨rfl, rfl, rfl, rfl⟩ trivial
  · split
    · rename_i bytes next reads
      have sent := sendInitial_same
        { flow with stream := next, initialPayload := flow.initialPayload ++ bytes }
      exact kept.of_same sent.1 sent.2
    · exact kept
  · split
    · exact kept.of_same ⟨rfl, rfl, rfl, rfl⟩ trivial
    · exact kept.of_same ⟨rfl, rfl, rfl, rfl⟩ trivial
    · exact kept
  · exact kept

/-- A step which does not give a local flow up keeps it out of the tunnel. -/
theorem Kept.step (kept : flow.Kept) {event : TcpEvent} (reaches : flow.Reaches shared event) :
    (flow.step sniffTcp shared event).Kept := by
  cases event with
  | arrive bytes =>
      simp only [TcpFlow.step]
      split
      · exact kept
      · exact ⟨kept.routed, kept.local_target, kept.not_proxied⟩
  | finish | remove => exact ⟨kept.routed, kept.local_target, kept.not_proxied⟩
  | proceed => exact kept.proceed reaches
  | timeout active =>
      have routed := kept.routed
      simp only [TcpFlow.step, TcpFlow.timeout]
      split <;> rename_i phase_eq
      · rw [phase_eq] at routed
        exact kept.of_same ⟨rfl, rfl, rfl, rfl⟩ routed
      · simp only [Reaches, phase_eq] at reaches
        exact kept.dialFailed reaches
      · exact kept.of_same (sendInitial_same flow).1 (sendInitial_same flow).2
      · split
        · exact kept
        · exact kept.of_same ⟨rfl, rfl, rfl, rfl⟩ trivial
      · exact kept
  | lanAnswer answer =>
      simp only [TcpFlow.step]
      split
      · exact kept.lanAnswered answer
      · exact kept
  | upstreamAnswer answer =>
      have routed := kept.routed
      simp only [TcpFlow.step]
      split <;> rename_i phase_eq
      · rw [phase_eq] at routed
        exact kept.resolved routed _
      · exact kept
  | connected =>
      simp only [TcpFlow.step]
      split
      · refine kept.of_same ⟨rfl, rfl, rfl, rfl⟩ ?_
        simp only [dialed]
        split <;> trivial
      · exact kept
  | connectFailed =>
      simp only [TcpFlow.step]
      split <;> rename_i phase_eq
      · simp only [Reaches, phase_eq] at reaches
        exact kept.dialFailed reaches
      · exact kept
  | tunnel available =>
      simp only [TcpFlow.step]
      split
      · rename_i retry attempt _
        split
        · exact kept.of_same ⟨rfl, rfl, rfl, rfl⟩ trivial
        · have next := flow.nextAttempt_same retry attempt
          exact kept.of_same next.1 next.2
      · exact kept
  | written => exact (kept.handOver _).afterWrite
  | writeFailed count => exact (kept.handOver _).afterFailure
  | stop count => exact kept.of_same (handOver_same flow _) trivial

end TcpFlow

namespace UdpFlow

variable {shared : Shared} {flow : UdpFlow}

def Local (flow : UdpFlow) : Prop :=
  flow.decision = some (.direct, .lan)

/-- When a flow to a local name is routed, the cache has no foreign address for it. -/
def Reaches (shared : Shared) (flow : UdpFlow) (event : UdpEvent) : Prop :=
  match flow.phase, event with
  | .started, .proceed =>
      shared.engine.isFakeIp flow.dst = true → ∀ dom,
        shared.engine.fakeIpReverse flow.dst = some dom → isLanOrRouterDomain dom = true →
          CachedLocally shared.router dom
  | _, _ => True

structure Kept (flow : UdpFlow) : Prop where
  waiting : flow.phase = .upstreamLookup → ¬flow.Local
  undecided : flow.phase = .started → flow.proxied = false
  not_proxied : flow.Local → flow.proxied = false

theorem feed_kept (shared : Shared) (blockQuic : Bool) (dst : IpAddr) (dstPort : ℕ) :
    (feed shared blockQuic dst dstPort).Kept := by
  refine ⟨?_, fun _ => rfl, fun _ => rfl⟩
  intro _ isLocal
  simp [Local, feed] at isLocal

/-- A change to a phase in which nothing is pending. -/
theorem Kept.settle (kept : flow.Kept) {phase : UdpPhase} (waiting : phase ≠ .upstreamLookup)
    (started : phase ≠ .started) : Kept { flow with phase } :=
  ⟨fun phase_eq => absurd phase_eq waiting, fun phase_eq => absurd phase_eq started,
    kept.not_proxied⟩

theorem Kept.toProxy (notLocal : ¬flow.Local) : flow.toProxy.Kept := by
  refine ⟨?_, ?_, fun isLocal => absurd isLocal notLocal⟩ <;>
    · intro phase_eq
      simp [UdpFlow.toProxy] at phase_eq

theorem Kept.sendTo (kept : flow.Kept) {target : IpAddr} {isFake : Bool}
    (dials : flow.Local → mayDial shared.router target isFake = true) :
    (flow.sendTo shared target isFake).Kept := by
  simp only [UdpFlow.sendTo]
  split
  · exact kept.settle (by simp) (by simp)
  · rename_i refused
    exact .toProxy fun isLocal => refused (dials isLocal)

theorem Kept.lanAnswered (kept : flow.Kept) (answer : Option IpAddr) :
    (flow.resolved shared (lanAnswered answer)).Kept := by
  have dropped : Kept { flow with phase := .ended } := kept.settle (by simp) (by simp)
  cases answer with
  | none => exact dropped
  | some ip =>
      simp only [Tun.lanAnswered]
      split
      · rename_i isPrivate
        exact kept.sendTo fun _ => mayDial_of_private isPrivate
      · exact dropped

theorem Kept.resolved (kept : flow.Kept) (notLocal : ¬flow.Local) (target : DirectTarget) :
    (flow.resolved shared target).Kept := by
  cases target with
  | ip target | routerIp target => exact kept.sendTo fun isLocal => absurd isLocal notLocal
  | fallbackProxy => exact .toProxy notLocal
  | drop => exact kept.settle (by simp) (by simp)

theorem Kept.enterDirect (kept : flow.Kept) {source : DecisionSource}
    (local_target : flow.Local →
      isPrivateIp flow.dst = true ∨ flow.reverseDomain.any isLanOrRouterDomain = true)
    (cached : ∀ dom, flow.reverseDomain = some dom → isLanOrRouterDomain dom = true →
      shared.engine.isFakeIp flow.dst = true → CachedLocally shared.router dom) :
    (flow.enterDirect shared source).Kept := by
  simp only [UdpFlow.enterDirect]
  split
  · rename_i fake
    split
    · rename_i dom domain_eq
      by_cases isLocal : flow.Local
      · -- The name is local, since the address is fake and so not private.
        have isLan : isLanOrRouterDomain dom = true := by
          have target := local_target isLocal
          simpa [Engine.not_isPrivateIp fake, domain_eq] using target
        rcases resolveDirectTarget_local isLan (cached dom domain_eq isLan fake) source with
          waits | ⟨target, ip, done, leads, dials⟩
        · simp only [waits]
          exact kept.settle (by simp) (by simp)
        · simp only [done]
          rcases leads with rfl | rfl
          · exact kept.sendTo fun _ => dials
          · exact kept.sendTo fun _ => dials
      · split
        · exact kept.resolved isLocal _
        · exact kept.settle (by simp) (by simp)
        · refine ⟨fun _ => isLocal, ?_, kept.not_proxied⟩
          intro phase_eq
          simp at phase_eq
    · exact kept.settle (by simp) (by simp)
  · exact kept.sendTo fun _ => by simp [mayDial]

theorem Kept.start (kept : flow.Kept) (phase_eq : flow.phase = .started)
    (reaches : flow.Reaches shared .proceed) : (flow.start shared).Kept := by
  simp only [UdpFlow.start]
  rcases decision : shared.router.routeDecisionSourced
    ⟨shared.engine.fakeIpReverse flow.dst, some flow.dst, some flow.dstPort, some "udp"⟩
    with ⟨action, source, name⟩
  have not_proxied : flow.proxied = false := kept.undecided phase_eq
  cases action with
  | direct =>
      dsimp only
      apply Kept.enterDirect
      · refine ⟨?_, fun _ => not_proxied, fun _ => not_proxied⟩
        intro waiting
        simp [readEngine, phase_eq] at waiting
      · intro isLocal
        simp only [Local, Option.some.injEq, Prod.mk.injEq, true_and] at isLocal
        subst isLocal
        simpa [readEngine] using RouterState.lan_request decision rfl
      · intro dom domain_eq isLan fake
        simp only [Reaches, phase_eq] at reaches
        exact reaches fake dom domain_eq isLan
  | proxy =>
      refine .toProxy ?_
      simp [Local]
  | block =>
      refine ⟨?_, ?_, fun _ => not_proxied⟩ <;>
        · intro phase_eq
          simp at phase_eq

theorem Kept.step (kept : flow.Kept) {event : UdpEvent} (reaches : flow.Reaches shared event) :
    (flow.step shared event).Kept := by
  cases event with
  | proceed =>
      simp only [UdpFlow.step]
      split <;> rename_i phase_eq
      · exact kept.start phase_eq reaches
      · refine ⟨?_, ?_, kept.not_proxied⟩ <;>
          · intro settled
            simp [tunnelTarget] at settled
      · exact kept
  | lanAnswer answer =>
      simp only [UdpFlow.step]
      split
      · exact kept.lanAnswered answer
      · exact kept
  | upstreamAnswer answer =>
      simp only [UdpFlow.step]
      split <;> rename_i phase_eq
      · exact kept.resolved (kept.waiting phase_eq) _
      · exact kept
  | stop => exact kept.settle (by simp) (by simp)

end UdpFlow

namespace TunStack

variable {lower : String → String} {sniffTcp : List UInt8 → Option String} {stack : TunStack}

/-- No local flow has gone to the tunnel, and no local name to a public resolver. -/
structure Contained (stack : TunStack) : Prop where
  names : stack.AllCalls fun call => isLanOrRouterDomain call.domain = false
  tcp : ∀ conn ∈ stack.tcp, conn.flow.Local → conn.flow.proxied = false
  udp : ∀ conn ∈ stack.udp, conn.flow.Local → conn.flow.proxied = false

/-- The TCP responder is not asked for the address of a local name. -/
def NotLocalQuery : StackEvent → Prop
  | .tcpDns domain qtype => qtype = 1 → isLanOrRouterDomain domain = false
  | _ => True

/-- An event which neither gives a local flow up nor asks the TCP responder for a local name. -/
def Contains (stack : TunStack) (event : StackEvent) : Prop :=
  stack.FlowGuard (fun conn event => conn.flow.Reaches stack.shared event)
      (fun conn event => conn.flow.Reaches stack.udpShared event) (fun _ => True) event ∧
    NotLocalQuery event

/-- The call for a query which is not for a local name. -/
theorem queryCalls_not_local {event : StackEvent} (notLocal : NotLocalQuery event) :
    ∀ call ∈ stack.queryCalls event, isLanOrRouterDomain call.domain = false := by
  intro call made
  cases event with
  | tcpDns domain qtype =>
      simp only [queryCalls] at made
      split at made
      · rename_i isA
        rw [List.mem_singleton.mp made]
        exact notLocal isA.1
      · simp at made
  | _ => simp [queryCalls] at made

/--
In every run in which local flows are not given up and the TCP responder is not
asked for local names, no flow which was routed directly before any rule goes to
the tunnel, and no local name goes to a public resolver.
-/
theorem local_targets_contained (lower : String → String)
    (sniffTcp : List UInt8 → Option String) (engine : Engine) (router : RouterState)
    (blockQuic : Bool) {events : List StackEvent}
    (guarded : Along (step lower sniffTcp) Contains (start engine router blockQuic) events) :
    (run (step lower sniffTcp) (start engine router blockQuic) events).Contained := by
  have kept : ∀ {stack : TunStack} {event : StackEvent}, stack.Contains event →
      (stack.AllCalls (fun call => isLanOrRouterDomain call.domain = false) ∧
        stack.AllFlows (fun conn => conn.flow.Kept) fun conn => conn.flow.Kept) →
      ((stack.step lower sniffTcp event).AllCalls
          (fun call => isLanOrRouterDomain call.domain = false) ∧
        (stack.step lower sniffTcp event).AllFlows (fun conn => conn.flow.Kept)
          fun conn => conn.flow.Kept) := by
    rintro stack event ⟨flows_guarded, notLocal⟩ ⟨names, flows⟩
    refine ⟨?_, ?_⟩
    · rw [allCalls_step fun call gated => gated.1]
      exact ⟨names, queryCalls_not_local notLocal⟩
    · apply allFlows_preserved flows flows_guarded
      · intro answer dst port
        exact TcpFlow.accepted_kept dst port
      · intro answer dst port _
        exact UdpFlow.feed_kept _ _ dst port
      · intro conn event conn_kept reaches
        exact conn_kept.step reaches
      · intro conn event conn_kept reaches
        exact conn_kept.step reaches
  have initially : (start engine router blockQuic).AllCalls
        (fun call => isLanOrRouterDomain call.domain = false) ∧
      (start engine router blockQuic).AllFlows (fun conn => conn.flow.Kept)
        fun conn => conn.flow.Kept := by
    refine ⟨⟨?_, ?_, ?_⟩, ?_, ?_⟩ <;> simp [start]
  rcases run_invariant_along kept guarded initially with ⟨names, flows⟩
  exact ⟨names, fun conn member => (flows.tcp conn member).not_proxied,
    fun conn member => (flows.udp conn member).not_proxied⟩

/-- A printer on the local network. -/
def printer : IpAddr :=
  .v4 (ipv4 192 168 1 10)

def localStack : TunStack :=
  start .new (.initial .empty) true

/-- A flow to the printer comes about. -/
def printerReached : List StackEvent :=
  [.connect printer 631, .tcp 0 .proceed, .tcp 0 .proceed, .tcp 0 .proceed, .tcp 0 .connected]

theorem printerReached_contains :
    Along (step id fun _ => none) Contains localStack printerReached := by
  refine ⟨⟨trivial, trivial⟩, ⟨?_, trivial⟩, ⟨?_, trivial⟩, ⟨?_, trivial⟩, ⟨?_, trivial⟩, trivial⟩
  all_goals
    intro conn found
    rw [← Option.some.inj found]
  · exact .of_proceed (.inl (by decide +kernel))
  · exact .of_proceed (.inl (by decide +kernel))
  · exact .of_proceed (.inr (by decide +kernel))
  · exact .of_connected

theorem local_targets_contained_printer :
    (run (step id fun _ => none) localStack printerReached).Contained :=
  local_targets_contained id (fun _ => none) .new (.initial .empty) true printerReached_contains

/-- The printer refuses the connection. -/
def printerRefuses : List StackEvent :=
  [.connect printer 631, .tcp 0 .proceed, .tcp 0 .proceed, .tcp 0 .proceed, .tcp 0 .connectFailed]

/-- The flow to the printer goes to the tunnel when the connection is refused. -/
theorem local_target_tunnelled :
    ¬(run (step id fun _ => none) localStack printerRefuses).Contained := by
  intro contained
  have tunnelled : ∃ conn ∈ (run (step id fun _ => none) localStack printerRefuses).tcp,
      conn.flow.decision = some (.direct, .lan) ∧ conn.flow.proxied = true := by
    decide +kernel
  rcases tunnelled with ⟨conn, member, isLocal, proxied⟩
  rw [contained.tcp conn member isLocal] at proxied
  exact Bool.false_ne_true proxied

end TunStack

end Mirage.Tun
