import Mirage.Foundations.Run
import Mirage.Proxy.Address
import Mirage.Tun.Engine

/-!
# The relay of a UDP flow

`feed` checks a datagram in the pump task, and starts the relay of a new flow.
The relay looks its domain up again, routes it, and sends it directly or
through the tunnel.  Both use the engine the `UdpEngine` was built with.
-/

namespace Mirage.Tun

open Mirage.Foundations Mirage.Routing Mirage.Proxy

/-- What `feed` does with a datagram. -/
inductive FeedVerdict where
  | blocked
  | quicRejected
  | accepted
  deriving DecidableEq, Repr

def feedVerdict (router : RouterState) (blockQuic : Bool) (fakeDomain : Option String)
    (dst : IpAddr) (dstPort : ℕ) : FeedVerdict :=
  if router.shouldBlock fakeDomain (some dst) then .blocked
  else if dstPort = 443 ∧ blockQuic ∧ ¬router.shouldDirect fakeDomain (some dst) then .quicRejected
  else .accepted

inductive UdpPhase where
  | started
  | lanLookup
  | upstreamLookup
  | direct (target : IpAddr)
  /-- The flow goes through the tunnel, whose target is not yet looked up. -/
  | tunnelEntry
  | tunnel (target : Address)
  | ended
  deriving DecidableEq

structure UdpFlow where
  dst : IpAddr
  dstPort : ℕ
  reverseDomain : Option String
  decision : Option (RuleAction × DecisionSource)
  /-- The flow went on to the tunnel. -/
  proxied : Bool
  phase : UdpPhase
  /-- The engines which were read. -/
  engineReads : List ℕ
  calls : List UpstreamCall

inductive UdpEvent where
  | proceed
  | lanAnswer (answer : Option IpAddr)
  | upstreamAnswer (answer : Option Ipv4Addr)
  | stop
  deriving DecidableEq

namespace UdpFlow

variable (shared : Shared)

/-- The flow of a first datagram after `feed`; a rejected datagram starts no relay. -/
def feed (blockQuic : Bool) (dst : IpAddr) (dstPort : ℕ) : UdpFlow where
  dst := dst
  dstPort := dstPort
  reverseDomain := none
  decision := none
  proxied := false
  phase :=
    match feedVerdict shared.router blockQuic (shared.engine.fakeIpReverse dst) dst dstPort with
    | .accepted => .started
    | _ => .ended
  engineReads := [shared.engineId]
  calls := []

def readEngine (flow : UdpFlow) : UdpFlow :=
  { flow with engineReads := flow.engineReads ++ [shared.engineId] }

/-- `udp_flow_direct` returns the receiver, or the flow is proxied from the start. -/
def toProxy (flow : UdpFlow) : UdpFlow :=
  { flow with proxied := true, phase := .tunnelEntry }

/-- `udp_flow_direct` has an address to send to. -/
def sendTo (flow : UdpFlow) (target : IpAddr) (isFake : Bool) : UdpFlow :=
  if mayDial shared.router target isFake then { flow with phase := .direct target }
  else flow.toProxy

def resolved (flow : UdpFlow) : DirectTarget → UdpFlow
  | .ip target | .routerIp target => flow.sendTo shared target true
  | .fallbackProxy => flow.toProxy
  | .drop => { flow with phase := .ended }

/-- The start of `udp_flow_direct`. -/
def enterDirect (flow : UdpFlow) (source : DecisionSource) : UdpFlow :=
  if shared.engine.isFakeIp flow.dst then
    match flow.reverseDomain with
    | some dom =>
        match resolveDirectTarget shared.router dom source with
        | .done target => flow.resolved shared target
        | .lanLookup => { flow with phase := .lanLookup }
        | .upstream =>
            { flow with
              calls := flow.calls ++ [⟨dom, source == .rule, shared.router⟩]
              phase := .upstreamLookup }
    | none => { flow with phase := .ended }
  else flow.sendTo shared flow.dst false

def start (flow : UdpFlow) : UdpFlow :=
  let reverseDomain := shared.engine.fakeIpReverse flow.dst
  let (action, source, _) :=
    shared.router.routeDecisionSourced
      ⟨reverseDomain, some flow.dst, some flow.dstPort, some "udp"⟩
  let flow := { flow.readEngine shared with reverseDomain, decision := some (action, source) }
  match action with
  | .block => { flow with phase := .ended }
  | .direct => flow.enterDirect shared source
  | .proxy => flow.toProxy

/-- The tunnel's target: the domain, looked up once more, or the address. -/
def tunnelTarget (flow : UdpFlow) : UdpFlow :=
  let target :=
    match shared.engine.fakeIpReverse flow.dst with
    | some domain => .domain domain flow.dstPort
    | none => .socket flow.dst flow.dstPort
  { flow.readEngine shared with phase := .tunnel target }

def step (flow : UdpFlow) : UdpEvent → UdpFlow
  | .proceed =>
      match flow.phase with
      | .started => flow.start shared
      | .tunnelEntry => flow.tunnelTarget shared
      | _ => flow
  | .lanAnswer answer =>
      match flow.phase with
      | .lanLookup => flow.resolved shared (lanAnswered answer)
      | _ => flow
  | .upstreamAnswer answer =>
      match flow.phase with
      | .upstreamLookup => flow.resolved shared (upstreamAnswered answer)
      | _ => flow
  | .stop => { flow with phase := .ended }

end UdpFlow

end Mirage.Tun
