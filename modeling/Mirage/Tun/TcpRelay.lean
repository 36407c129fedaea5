import Mirage.Foundations.Run
import Mirage.Proxy.Address
import Mirage.Tun.Engine

/-!
# The relay of a TCP connection

One connection from its acceptance to the end of its upload: `relay_tcp`
sniffs the first bytes and routes, `relay_direct` resolves and dials, and
`relay_proxy` with `connect_tunnel` takes over when the connection is proxied
or a direct attempt falls back.  `proceed` is a poll of the task; the other
events are the answers it waits for.  Each of its reads of the engine is a step
of its own.

The bytes of an upstream connection are logged in `handed`, for a tunnel as the
plaintext given to `send_data`.  A failed write may have delivered any part of
its data.  `sniff_tcp` is the parameter `sniffTcp`; the download half and the
counters of the monitor are left out.
-/

namespace Mirage.Tun

open Mirage.Foundations Mirage.Routing Mirage.Proxy

/-- The receiving half of a `TunTcpStream`. -/
structure TunTcpStream where
  /-- What has arrived and is not yet read. -/
  received : List UInt8
  /-- The client has closed or reset. -/
  finished : Bool
  /-- The socket is gone from the set. -/
  removed : Bool
  deriving DecidableEq

/-- `poll_read`: `none` while there is nothing to report, no bytes at the end. -/
def TunTcpStream.pollRead (stream : TunTcpStream) (room : ℕ) :
    Option (List UInt8) × TunTcpStream :=
  if stream.removed then (some [], stream)
  else if stream.received ≠ [] then
    (some (stream.received.take room), { stream with received := stream.received.drop room })
  else if stream.finished then (some [], stream)
  else (none, stream)

/-- Where an upstream connection leads. -/
inductive Via where
  | direct (ip : IpAddr) (port : ℕ)
  | tunnel (target : Address)
  deriving DecidableEq

/-- What an upstream connection carries before the client's bytes. -/
def Via.preamble : Via → List UInt8
  | .direct _ _ => []
  | .tunnel target => target.targetHeader

structure Upstream where
  via : Via
  /-- The bytes which were handed to the connection. -/
  handed : List UInt8
  deriving DecidableEq

inductive TcpPhase where
  | opened
  | sniffing
  | routing
  | directEntry (source : DecisionSource)
  | lanLookup
  | upstreamLookup
  | dialing (target : IpAddr) (closeOnFailure : Bool)
  | directInitial
  /-- In `connect_tunnel`, before the two reads of the engine; `retry` is the second call. -/
  | tunnelEntry (retry : Bool)
  | tunnelTag (retry : Bool)
  | acquiring (retry : Bool) (attempt : ℕ)
  | headerWrite (retry : Bool) (attempt : ℕ)
  | preRead
  | initialWrite (retry : Bool)
  | relayRead
  | relayWrite (chunk : List UInt8)
  | ended
  deriving DecidableEq

structure TcpFlow where
  dst : IpAddr
  dstPort : ℕ
  /-- All the client has sent so far. -/
  sent : List UInt8
  stream : TunTcpStream
  directDomain : Option String
  initialPayload : List UInt8
  decision : Option (RuleAction × DecisionSource)
  /-- `relay_proxy` was called. -/
  proxied : Bool
  phase : TcpPhase
  /-- The upstream connections, the current one first. -/
  upstreams : List Upstream
  /-- The engines which were read. -/
  engineReads : List ℕ
  calls : List UpstreamCall

inductive TcpEvent where
  | arrive (bytes : List UInt8)
  | finish
  | remove
  | proceed
  /-- The timeout around the pending wait; `active` is what the idle check finds. -/
  | timeout (active : Bool)
  | lanAnswer (answer : Option IpAddr)
  | upstreamAnswer (answer : Option Ipv4Addr)
  | connected
  | connectFailed
  | tunnel (available : Bool)
  | written
  | writeFailed (count : ℕ)
  /-- The task ends: an abort, the end of the download, or no socket. -/
  | stop (count : ℕ)
  deriving DecidableEq

namespace TcpFlow

variable (sniffTcp : List UInt8 → Option String) (shared : Shared)

/-- A connection whose handshake is complete. -/
def accepted (dst : IpAddr) (dstPort : ℕ) : TcpFlow where
  dst := dst
  dstPort := dstPort
  sent := []
  stream := ⟨[], false, false⟩
  directDomain := none
  initialPayload := []
  decision := none
  proxied := false
  phase := .opened
  upstreams := []
  engineReads := []
  calls := []

/-- The target which `connect_tunnel` announces. -/
def target (flow : TcpFlow) : Address :=
  match flow.directDomain with
  | some domain => .domain domain flow.dstPort
  | none => .socket flow.dst flow.dstPort

/-- Add bytes to the current upstream connection. -/
def handOver (flow : TcpFlow) (bytes : List UInt8) : TcpFlow :=
  match flow.upstreams with
  | [] => flow
  | upstream :: older =>
      { flow with upstreams := { upstream with handed := upstream.handed ++ bytes } :: older }

/-- What the pending write is about to hand over. -/
def outgoing (flow : TcpFlow) : List UInt8 :=
  match flow.phase with
  | .headerWrite _ _ => flow.target.targetHeader
  | .directInitial | .initialWrite _ => flow.initialPayload
  | .relayWrite chunk => chunk
  | _ => []

def readEngine (flow : TcpFlow) : TcpFlow :=
  { flow with engineReads := flow.engineReads ++ [shared.engineId] }

/-- The fake-IP lookup, and the check whether the first bytes are worth a look. -/
def reverse (flow : TcpFlow) : TcpFlow :=
  let directDomain := shared.engine.fakeIpReverse flow.dst
  let shouldSniff :=
    directDomain.isNone && !shared.router.geo.isCnIp flow.dst && !isPrivateIp flow.dst
  { flow.readEngine shared with
    directDomain, phase := if shouldSniff then .sniffing else .routing }

/-- The sniff has read `bytes`; at the end of the stream there are none. -/
def sniffed (flow : TcpFlow) (bytes : List UInt8) : TcpFlow :=
  if bytes = [] then { flow with phase := .routing }
  else
    { flow with
      directDomain := (sniffTcp bytes).or flow.directDomain
      initialPayload := flow.initialPayload ++ bytes
      phase := .routing }

/-- The call of `relay_proxy`, which begins with `connect_tunnel`. -/
def toProxy (flow : TcpFlow) : TcpFlow :=
  { flow with proxied := true, phase := .tunnelEntry false }

def route (flow : TcpFlow) : TcpFlow :=
  let (action, source, _) :=
    shared.router.routeDecisionSourced
      ⟨flow.directDomain, some flow.dst, some flow.dstPort, some "tcp"⟩
  let flow := { flow with decision := some (action, source) }
  match action with
  | .block => { flow with phase := .ended }
  | .direct => { flow with phase := .directEntry source }
  | .proxy => flow.toProxy

/-- `relay_direct` has an address to connect to. -/
def dial (flow : TcpFlow) (target : IpAddr) (isFake : Bool) : TcpFlow :=
  let isStrictCn := flow.directDomain.any isCnDomainStrict
  let isRawCnIp := flow.directDomain.isNone && shared.router.geo.isCnIp target
  if mayDial shared.router target isFake then
    { flow with phase := .dialing target (isRawCnIp || isStrictCn) }
  else flow.toProxy

def resolved (flow : TcpFlow) : DirectTarget → TcpFlow
  | .ip target | .routerIp target => flow.dial shared target true
  | .fallbackProxy => flow.toProxy
  | .drop => { flow with phase := .ended }

/-- The start of `relay_direct`. -/
def enterDirect (flow : TcpFlow) (source : DecisionSource) : TcpFlow :=
  let flow := flow.readEngine shared
  if shared.engine.isFakeIp flow.dst then
    match flow.directDomain with
    | some dom =>
        match resolveDirectTarget shared.router dom source with
        | .done target => flow.resolved shared target
        | .lanLookup => { flow with phase := .lanLookup }
        | .upstream =>
            { flow with
              calls := flow.calls ++ [⟨dom, source == .rule, shared.router⟩]
              phase := .upstreamLookup }
    | none => { flow with phase := .ended }
  else flow.dial shared flow.dst false

/-- The connection to the real target is up. -/
def dialed (flow : TcpFlow) (target : IpAddr) : TcpFlow :=
  { flow with
    upstreams := ⟨.direct target flow.dstPort, []⟩ :: flow.upstreams
    phase := if flow.initialPayload = [] then .relayRead else .directInitial }

def dialFailed (flow : TcpFlow) (closeOnFailure : Bool) : TcpFlow :=
  if closeOnFailure then { flow with phase := .ended } else flow.toProxy

/-- One of the two attempts of `connect_tunnel` is over. -/
def nextAttempt (flow : TcpFlow) (retry : Bool) (attempt : ℕ) : TcpFlow :=
  { flow with phase := if attempt + 1 < 2 then .acquiring retry (attempt + 1) else .ended }

/-- `relay_proxy` hands over the payload it has, if it has any. -/
def sendInitial (flow : TcpFlow) : TcpFlow :=
  { flow with phase := if flow.initialPayload = [] then .relayRead else .initialWrite false }

/-- `connect_tunnel` has returned a tunnel. -/
def tunnelReady (flow : TcpFlow) (retry : Bool) : TcpFlow :=
  if retry then { flow with phase := .initialWrite true }
  else if flow.initialPayload = [] then { flow with phase := .preRead }
  else flow.sendInitial

/-- A poll of the relay task. -/
def proceed (flow : TcpFlow) : TcpFlow :=
  match flow.phase with
  | .opened => flow.reverse shared
  | .sniffing =>
      match flow.stream.pollRead 2048 with
      | (some bytes, stream) => { flow with stream }.sniffed sniffTcp bytes
      | (none, _) => flow
  | .routing => flow.route shared
  | .directEntry source => flow.enterDirect shared source
  | .tunnelEntry retry => { flow.readEngine shared with phase := .tunnelTag retry }
  | .tunnelTag retry => { flow.readEngine shared with phase := .acquiring retry 0 }
  | .preRead =>
      match flow.stream.pollRead 16384 with
      | (some bytes, stream) =>
          { flow with stream, initialPayload := flow.initialPayload ++ bytes }.sendInitial
      | (none, _) => flow
  | .relayRead =>
      match flow.stream.pollRead 65536 with
      | (some [], _) => { flow with phase := .ended }
      | (some chunk, stream) => { flow with stream, phase := .relayWrite chunk }
      | (none, _) => flow
  | _ => flow

def timeout (flow : TcpFlow) (active : Bool) : TcpFlow :=
  match flow.phase with
  | .sniffing => { flow with phase := .routing }
  | .dialing _ closeOnFailure => flow.dialFailed closeOnFailure
  | .preRead => flow.sendInitial
  | .relayRead => if active then flow else { flow with phase := .ended }
  | _ => flow

/-- What follows a write which has succeeded. -/
def afterWrite (flow : TcpFlow) : TcpFlow :=
  match flow.phase with
  | .headerWrite retry _ => flow.tunnelReady retry
  | .directInitial | .initialWrite _ | .relayWrite _ => { flow with phase := .relayRead }
  | _ => flow

/-- What follows a write which has failed. -/
def afterFailure (flow : TcpFlow) : TcpFlow :=
  match flow.phase with
  | .headerWrite retry attempt => flow.nextAttempt retry attempt
  | .initialWrite false => { flow with phase := .tunnelEntry true }
  | .directInitial | .initialWrite true | .relayWrite _ => { flow with phase := .ended }
  | _ => flow

def step (flow : TcpFlow) : TcpEvent → TcpFlow
  | .arrive bytes =>
      if flow.stream.finished || flow.stream.removed then flow
      else
        { flow with
          sent := flow.sent ++ bytes
          stream := { flow.stream with received := flow.stream.received ++ bytes } }
  | .finish => { flow with stream := { flow.stream with finished := true } }
  | .remove => { flow with stream := { flow.stream with removed := true } }
  | .proceed => flow.proceed sniffTcp shared
  | .timeout active => flow.timeout active
  | .lanAnswer answer =>
      match flow.phase with
      | .lanLookup => flow.resolved shared (lanAnswered answer)
      | _ => flow
  | .upstreamAnswer answer =>
      match flow.phase with
      | .upstreamLookup => flow.resolved shared (upstreamAnswered answer)
      | _ => flow
  | .connected =>
      match flow.phase with
      | .dialing target _ => flow.dialed target
      | _ => flow
  | .connectFailed =>
      match flow.phase with
      | .dialing _ closeOnFailure => flow.dialFailed closeOnFailure
      | _ => flow
  | .tunnel available =>
      match flow.phase with
      | .acquiring retry attempt =>
          if available then
            { flow with
              upstreams := ⟨.tunnel flow.target, []⟩ :: flow.upstreams
              phase := .headerWrite retry attempt }
          else flow.nextAttempt retry attempt
      | _ => flow
  | .written => (flow.handOver flow.outgoing).afterWrite
  | .writeFailed count => (flow.handOver (flow.outgoing.take count)).afterFailure
  | .stop count => { flow.handOver (flow.outgoing.take count) with phase := .ended }

@[simp]
theorem handOver_phase (flow : TcpFlow) (bytes : List UInt8) :
    (flow.handOver bytes).phase = flow.phase := by
  simp only [handOver]
  split <;> rfl

end TcpFlow

end Mirage.Tun
