import Mirage.Tun.TcpRelay

/-!
# Private answers

A public resolver may answer with a private address.  The answer is cached as
not direct, but the relay of a direct flow reads only its address, and the check
before the connection lets private addresses through.  So a flow to a name which
is not local stays out of the local network exactly as long as neither the cache
nor the resolver has a private address for the name.
-/

namespace Mirage.Tun

open Mirage.Foundations Mirage.Routing

/-- What is found without waiting is cached, or is the gateway of a local name. -/
theorem resolveDirectTarget_done {router : RouterState} {dom : String} {source : DecisionSource}
    {target : DirectTarget} (done : resolveDirectTarget router dom source = .done target) :
    (∃ realIp, target = .ip realIp ∧ router.directDnsLookup dom = some realIp) ∨
      (∃ routerIp, target = .routerIp routerIp ∧ isLanOrRouterDomain dom = true) ∨
        target = .fallbackProxy := by
  simp only [resolveDirectTarget] at done
  split at done
  · rename_i realIp cached
    simp only [Resolution.done.injEq] at done
    exact .inl ⟨realIp, done.symm, cached⟩
  · split at done
    · rename_i isLan
      split at done
      · rename_i routerIp _
        simp only [Resolution.done.injEq] at done
        exact .inr (.inl ⟨routerIp, done.symm, isLan⟩)
      · simp at done
    · split at done
      · simp only [Resolution.done.injEq] at done
        exact .inr (.inr done.symm)
      · split at done
        · simp at done
        · simp only [Resolution.done.injEq] at done
          exact .inr (.inr done.symm)

/-- Only local names are left to the system's resolver. -/
theorem resolveDirectTarget_lanLookup {router : RouterState} {dom : String}
    {source : DecisionSource} (waits : resolveDirectTarget router dom source = .lanLookup) :
    isLanOrRouterDomain dom = true := by
  simp only [resolveDirectTarget] at waits
  split at waits
  · simp at waits
  · split at waits
    · rename_i isLan
      exact isLan
    · split at waits
      · simp at waits
      · split at waits <;> simp at waits

namespace TcpFlow

variable {sniffTcp : List UInt8 → Option String} {shared : Shared} {flow : TcpFlow}

/-- An address found for a name which is not local is not private. -/
def PublicTarget (flow : TcpFlow) (target : IpAddr) : Prop :=
  ∀ dom, flow.directDomain = some dom → isLanOrRouterDomain dom = false → target ≠ flow.dst →
    isPrivateIp target = false

/-- The flow does not connect to a private address which it has from a public resolver. -/
def NotRebound (flow : TcpFlow) : Prop :=
  ∀ target closeOnFailure, flow.phase = .dialing target closeOnFailure → flow.PublicTarget target

/-- What the cache or the resolver has for a name which is not local is not private. -/
def PublicAnswer (flow : TcpFlow) (event : Shared × TcpEvent) : Prop :=
  ∀ dom, flow.directDomain = some dom → isLanOrRouterDomain dom = false →
    match flow.phase, event.2 with
    | .directEntry _, .proceed =>
        event.1.engine.isFakeIp flow.dst = true → ∀ realIp,
          event.1.router.directDnsLookup dom = some realIp → isPrivateIp realIp = false
    | .upstreamLookup, .upstreamAnswer (some realV4) => isPrivateIp (.v4 realV4) = false
    | _, _ => True

/-- What is known of the name and the address of a flow in a phase. -/
def Bound (flow : TcpFlow) : TcpPhase → Prop
  | .dialing target _ => flow.PublicTarget target
  | .lanLookup => flow.directDomain.any isLanOrRouterDomain = true
  | .upstreamLookup => isPrivateIp flow.dst = false
  | _ => True

theorem bound_dial {target : IpAddr} {isFake : Bool} (safe : flow.PublicTarget target) :
    (flow.dial shared target isFake).Bound (flow.dial shared target isFake).phase := by
  simp only [dial]
  split
  · exact safe
  · trivial

theorem bound_resolved {target : DirectTarget}
    (safe : ∀ ip, target = .ip ip ∨ target = .routerIp ip → flow.PublicTarget ip) :
    (flow.resolved shared target).Bound (flow.resolved shared target).phase := by
  cases target with
  | ip ip => exact bound_dial (safe ip (.inl rfl))
  | routerIp ip => exact bound_dial (safe ip (.inr rfl))
  | fallbackProxy | drop => trivial

theorem publicTarget_of_lan {target : IpAddr}
    (isLan : flow.directDomain.any isLanOrRouterDomain = true) : flow.PublicTarget target := by
  intro dom domain_eq notLan
  simp [domain_eq, notLan] at isLan

/-- A private address which the flow has found is dialed. -/
theorem dial_private (shared : Shared) (flow : TcpFlow) {target : IpAddr} (isFake : Bool)
    (isPrivate : isPrivateIp target = true) :
    ∃ closeOnFailure, (flow.dial shared target isFake).phase = .dialing target closeOnFailure := by
  refine ⟨flow.directDomain.isNone && shared.router.geo.isCnIp target ||
    flow.directDomain.any isCnDomainStrict, ?_⟩
  simp only [dial, mayDial, isPrivate, Bool.true_or, if_true]

/-- A flow which dials an address it has found for its name, and is not rebound by it. -/
theorem public_of_not_rebound (shared : Shared) (flow : TcpFlow) {next : TcpFlow} {dom : String}
    {target : IpAddr} (isFake : Bool)
    (next_eq : next = flow.dial shared target isFake) (domain_eq : flow.directDomain = some dom)
    (notLan : isLanOrRouterDomain dom = false) (dst_public : isPrivateIp flow.dst = false)
    (safe : next.NotRebound) : isPrivateIp target = false := by
  rcases Bool.eq_false_or_eq_true (isPrivateIp target) with isPrivate | isPublic
  · rcases dial_private shared flow isFake isPrivate with ⟨closeOnFailure, dials⟩
    have same : (flow.dial shared target isFake).directDomain = flow.directDomain ∧
        (flow.dial shared target isFake).dst = flow.dst := by
      simp only [dial]
      split <;> exact ⟨rfl, rfl⟩
    subst next_eq
    apply safe target closeOnFailure dials dom (by rw [same.1, domain_eq]) notLan
    rw [same.2]
    rintro rfl
    rw [isPrivate] at dst_public
    exact Bool.noConfusion dst_public
  · exact isPublic

theorem bound_enterDirect (flow : TcpFlow) (source : DecisionSource)
    (answered : ∀ dom realIp, flow.directDomain = some dom → isLanOrRouterDomain dom = false →
      shared.engine.isFakeIp flow.dst = true → shared.router.directDnsLookup dom = some realIp →
      isPrivateIp realIp = false) :
    (flow.enterDirect shared source).Bound (flow.enterDirect shared source).phase := by
  simp only [enterDirect]
  split
  · rename_i fake
    split
    · rename_i dom domain_eq
      change flow.directDomain = some dom at domain_eq
      split
      · rename_i target done
        apply bound_resolved
        intro ip leads
        rcases resolveDirectTarget_done done with
          ⟨realIp, rfl, cached⟩ | ⟨routerIp, rfl, isLan⟩ | rfl
        · intro other other_eq notLan _
          have same : other = dom := Option.some.inj (other_eq.symm.trans domain_eq)
          simp only [DirectTarget.ip.injEq, reduceCtorEq, or_false] at leads
          rw [← leads]
          rw [same] at notLan
          exact answered dom realIp domain_eq notLan fake cached
        · apply publicTarget_of_lan
          change flow.directDomain.any isLanOrRouterDomain = true
          simp [domain_eq, isLan]
        · simp at leads
      · rename_i waits
        change flow.directDomain.any isLanOrRouterDomain = true
        simp [domain_eq, resolveDirectTarget_lanLookup waits]
      · exact Engine.not_isPrivateIp fake
    · trivial
  · apply bound_dial
    intro dom _ _ other
    exact absurd rfl other

theorem bound_proceed (bound : flow.Bound flow.phase)
    (guarded : flow.PublicAnswer (shared, .proceed)) :
    (flow.proceed sniffTcp shared).Bound (flow.proceed sniffTcp shared).phase := by
  simp only [proceed]
  split <;> rename_i phase_eq
  · simp only [reverse]
    split <;> trivial
  · split
    · simp only [sniffed]
      split <;> trivial
    · exact bound
  · simp only [route]
    split <;> trivial
  · apply bound_enterDirect
    intro dom realIp domain_eq notLan fake cached
    have answered := guarded dom domain_eq notLan
    simp only [phase_eq] at answered
    exact answered fake realIp cached
  · trivial
  · trivial
  · split
    · simp only [sendInitial]
      split <;> trivial
    · exact bound
  · split
    · trivial
    · trivial
    · exact bound
  · exact bound

theorem bound_handOver (flow : TcpFlow) (bytes : List UInt8) (phase : TcpPhase) :
    (flow.handOver bytes).Bound phase ↔ flow.Bound phase := by
  simp only [handOver]
  split
  · rfl
  · cases phase <;> rfl

theorem bound_tunnelReady (flow : TcpFlow) (retry : Bool) :
    (flow.tunnelReady retry).Bound (flow.tunnelReady retry).phase := by
  simp only [tunnelReady]
  split
  · trivial
  · split
    · trivial
    · simp only [sendInitial]
      split <;> trivial

theorem bound_nextAttempt (flow : TcpFlow) (retry : Bool) (attempt : ℕ) :
    (flow.nextAttempt retry attempt).Bound (flow.nextAttempt retry attempt).phase := by
  simp only [nextAttempt]
  split <;> trivial

theorem bound_dialFailed (flow : TcpFlow) (closeOnFailure : Bool) :
    (flow.dialFailed closeOnFailure).Bound (flow.dialFailed closeOnFailure).phase := by
  simp only [dialFailed]
  split <;> trivial

theorem bound_afterWrite (bound : flow.Bound flow.phase) :
    flow.afterWrite.Bound flow.afterWrite.phase := by
  simp only [afterWrite]
  split
  · exact bound_tunnelReady flow _
  · trivial
  · trivial
  · trivial
  · exact bound

theorem bound_afterFailure (bound : flow.Bound flow.phase) :
    flow.afterFailure.Bound flow.afterFailure.phase := by
  simp only [afterFailure]
  split
  · exact bound_nextAttempt flow _ _
  · trivial
  · trivial
  · trivial
  · trivial
  · exact bound

/-- A step which uses no private answer keeps the flow out of the local network. -/
theorem bound_step {event : TcpEvent} (bound : flow.Bound flow.phase)
    (guarded : flow.PublicAnswer (shared, event)) :
    (flow.step sniffTcp shared event).Bound (flow.step sniffTcp shared event).phase := by
  have handed : ∀ bytes, (flow.handOver bytes).Bound (flow.handOver bytes).phase := by
    intro bytes
    rw [handOver_phase, bound_handOver]
    exact bound
  cases event with
  | arrive bytes =>
      simp only [step]
      split
      · exact bound
      · exact bound
  | finish | remove => exact bound
  | proceed => exact bound_proceed bound guarded
  | timeout active =>
      simp only [step, timeout]
      split
      · trivial
      · exact bound_dialFailed flow _
      · simp only [sendInitial]
        split <;> trivial
      · split
        · exact bound
        · trivial
      · exact bound
  | lanAnswer answer =>
      simp only [step]
      split <;> rename_i phase_eq
      · rw [phase_eq] at bound
        apply bound_resolved
        intro ip _
        exact publicTarget_of_lan bound
      · exact bound
  | upstreamAnswer answer =>
      simp only [step]
      split <;> rename_i phase_eq
      · apply bound_resolved
        intro ip leads dom domain_eq notLan _
        have answered := guarded dom domain_eq notLan
        cases answer with
        | none => simp [upstreamAnswered] at leads
        | some realV4 =>
            simp only [upstreamAnswered, DirectTarget.ip.injEq, reduceCtorEq, or_false] at leads
            simp only [phase_eq] at answered
            rwa [← leads]
      · exact bound
  | connected =>
      simp only [step]
      split
      · simp only [dialed]
        split <;> trivial
      · exact bound
  | connectFailed =>
      simp only [step]
      split
      · exact bound_dialFailed flow _
      · exact bound
  | tunnel available =>
      simp only [step]
      split
      · split
        · trivial
        · exact bound_nextAttempt flow _ _
      · exact bound
  | written => exact bound_afterWrite (handed _)
  | writeFailed count => exact bound_afterFailure (handed _)
  | stop count => trivial

/-- A step which does not take the flow into the local network used no private answer. -/
theorem publicAnswer_of_not_rebound {event : TcpEvent} (bound : flow.Bound flow.phase)
    (safe : (flow.step sniffTcp shared event).NotRebound) :
    flow.PublicAnswer (shared, event) := by
  intro dom domain_eq notLan
  dsimp only
  split
  · rename_i source phase_eq
    intro fake realIp cached
    refine public_of_not_rebound shared (flow.readEngine shared) true ?_ domain_eq notLan
      (Engine.not_isPrivateIp fake) safe
    have resolves : resolveDirectTarget shared.router dom source = .done (.ip realIp) := by
      simp only [resolveDirectTarget, cached]
    have fake_read : shared.engine.isFakeIp (flow.readEngine shared).dst = true := fake
    have domain_read : (flow.readEngine shared).directDomain = some dom := domain_eq
    simp only [step, proceed, phase_eq, enterDirect, fake_read, domain_read, resolves, if_true,
      resolved]
  · rename_i realV4 phase_eq
    rw [phase_eq] at bound
    refine public_of_not_rebound shared flow true ?_ domain_eq notLan bound safe
    simp only [step, phase_eq, upstreamAnswered, resolved]
  · trivial

/--
A direct flow to a name which is not local never connects to a private address
from DNS, exactly if the cache has no private address for the name when the flow
looks it up, and the resolver does not answer the flow with one.
-/
theorem not_rebound_iff (sniffTcp : List UInt8 → Option String) (dst : IpAddr) (dstPort : ℕ)
    (events : List (Shared × TcpEvent)) :
    Throughout (fun flow event => step sniffTcp event.1 flow event.2) NotRebound
        (accepted dst dstPort) events ↔
      Along (fun flow event => step sniffTcp event.1 flow event.2) PublicAnswer
        (accepted dst dstPort) events := by
  have permitted : Along (fun flow event => step sniffTcp event.1 flow event.2) (fun _ _ => True)
      (accepted dst dstPort) events :=
    Along.of_forall fun _ _ => trivial
  refine throughout_iff_along (fun flow => flow.Bound flow.phase) ?_ ?_ ?_ permitted ?_
  · intro flow bound target closeOnFailure phase_eq
    rw [phase_eq] at bound
    exact bound
  · rintro flow ⟨shared, event⟩ _ bound guarded
    exact bound_step bound guarded
  · rintro flow ⟨shared, event⟩ _ bound safe
    exact publicAnswer_of_not_rebound bound safe
  · trivial

/-- A name under `.cn` has a fake address, no rule is set and nothing is cached. -/
def shopShared : Shared :=
  ⟨0, (Engine.new.fakeIpAllocate id "shop.cn").2, .initial .empty⟩

/-- The relay of a connection to the name asks the resolver, which answers with the gateway. -/
def shopRebound : List (Shared × TcpEvent) :=
  [.proceed, .proceed, .proceed, .upstreamAnswer (some (ipv4 192 168 1 1))].map (shopShared, ·)

/-- The flow connects to the gateway. -/
theorem rebound_privateAnswer :
    ¬Throughout (fun flow event => step (fun _ => none) event.1 flow event.2) NotRebound
      (accepted (.v4 (ipv4 198 18 0 2)) 80) shopRebound := by
  intro throughout
  have dials : ∃ flow, run (fun flow event => step (fun _ => none) event.1 flow event.2)
      (accepted (.v4 (ipv4 198 18 0 2)) 80) shopRebound = flow ∧
        flow.phase = .dialing (.v4 (ipv4 192 168 1 1)) true ∧
        flow.directDomain = some "shop.cn" ∧ flow.dst = .v4 (ipv4 198 18 0 2) := by
    refine ⟨_, rfl, ?_⟩
    decide +kernel
  rcases dials with ⟨flow, run_eq, phase_eq, domain_eq, dst_eq⟩
  have safe : flow.NotRebound := run_eq ▸ throughout.run
  have isPublic := safe _ _ phase_eq "shop.cn" domain_eq (by decide +kernel)
    (by rw [dst_eq]; decide)
  exact absurd isPublic (by decide)

end TcpFlow

end Mirage.Tun
