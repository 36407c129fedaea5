import Mirage.Tun.TcpRelay
import Mirage.Tun.UdpRelay

/-!
# The TUN stack

The DNS responder and the relays run side by side over one router state and one
engine handle, which `swap_engine` replaces; the UDP engine keeps the engine it
was built with.  A step of the stack is a step of one of them, or a change of
what they share.

A client learns fake addresses from the responder's answers.  `answers` is the
log of these, and each flow remembers the answer its client acted on, if any.
-/

namespace Mirage.Tun

open Mirage.Foundations Mirage.Routing

/-- A fake address in an answer of the DNS responder. -/
structure Answer where
  engineId : ℕ
  domain : String
  ip : Ipv4Addr
  deriving DecidableEq

structure TcpConn where
  answer : Option Answer
  flow : TcpFlow

structure UdpConn where
  answer : Option Answer
  flow : UdpFlow

structure TunStack where
  engines : ℕ → Engine
  /-- The engine which the handle points to. -/
  engineId : ℕ
  /-- The engine which the `UdpEngine` holds. -/
  udpEngineId : ℕ
  router : RouterState
  blockQuic : Bool
  answers : List Answer
  /-- The calls of `resolve_upstream` by the DNS handlers. -/
  dnsCalls : List UpstreamCall
  /-- The domains of TCP queries which wait for an upstream answer. -/
  pendingDns : List String
  tcp : List TcpConn
  udp : List UdpConn

inductive StackEvent where
  | swapEngine (new : Engine)
  /-- Rules, mode, Geo data, cache or clock change. -/
  | setRouter (router : RouterState)
  | setBlockQuic (blockQuic : Bool)
  | udpDns (domain : String) (qtype : ℕ)
  | tcpDns (domain : String) (qtype : ℕ)
  /-- The upstream answer to a pending TCP query. -/
  | tcpDnsResolved (index : ℕ) (answer : Option Ipv4Addr)
  /-- A client connects to the address of an answer. -/
  | connectAnswered (index port : ℕ)
  | connect (dst : IpAddr) (port : ℕ)
  | tcp (index : ℕ) (event : TcpEvent)
  /-- A client sends a first datagram to the address of an answer. -/
  | sendAnswered (index port : ℕ)
  | send (dst : IpAddr) (port : ℕ)
  | udp (index : ℕ) (event : UdpEvent)

namespace TunStack

variable (lower : String → String) (sniffTcp : List UInt8 → Option String)

def start (engine : Engine) (router : RouterState) (blockQuic : Bool) : TunStack where
  engines := fun _ => engine
  engineId := 0
  udpEngineId := 0
  router := router
  blockQuic := blockQuic
  answers := []
  dnsCalls := []
  pendingDns := []
  tcp := []
  udp := []

/-- What a reader of the engine handle finds. -/
def shared (stack : TunStack) : Shared :=
  ⟨stack.engineId, stack.engines stack.engineId, stack.router⟩

/-- What the UDP engine and its relays find. -/
def udpShared (stack : TunStack) : Shared :=
  ⟨stack.udpEngineId, stack.engines stack.udpEngineId, stack.router⟩

def swapEngine (stack : TunStack) (new : Engine) : TunStack :=
  { stack with
    engines := Function.update stack.engines (stack.engineId + 1) new
    engineId := stack.engineId + 1 }

/-- Answer a query with the fake address of its domain. -/
def answerFake (stack : TunStack) (domain : String) : TunStack :=
  let (ip, engine) := (stack.engines stack.engineId).fakeIpAllocate lower domain
  { stack with
    engines := Function.update stack.engines stack.engineId engine
    answers := stack.answers ++ [⟨stack.engineId, domain, ip⟩] }

def handleDnsQuery (stack : TunStack) (domain : String) (qtype : ℕ) : TunStack :=
  if stack.router.routeDecision ⟨some domain, none, some 53, some "udp"⟩ = .block then stack
  else if qtype = 1 then
    let answered := stack.answerFake lower domain
    if stack.router.shouldResolveUpstream domain then
      { answered with dnsCalls := stack.dnsCalls ++ [⟨domain, false, stack.router⟩] }
    else answered
  else stack

/-- The domain was routed by a rule of the user. -/
def routedByRule (router : RouterState) (domain : String) : Bool :=
  (router.routeDecisionSourced (.ofDomain domain)).2.1 == .rule

/-- `relay_tcp_dns`, for one query. -/
def relayTcpDns (stack : TunStack) (domain : String) (qtype : ℕ) : TunStack :=
  if qtype = 1 then
    if stack.router.shouldDirect (some domain) none then
      { stack with
        dnsCalls :=
          stack.dnsCalls ++ [⟨domain, routedByRule stack.router domain, stack.router⟩]
        pendingDns := stack.pendingDns ++ [domain] }
    else stack.answerFake lower domain
  else stack

/-- A pending TCP query is answered with the real address, or falls back to a fake one. -/
def tcpDnsResolved (stack : TunStack) (index : ℕ) (answer : Option Ipv4Addr) : TunStack :=
  match stack.pendingDns[index]? with
  | some domain =>
      let stack := { stack with pendingDns := stack.pendingDns.eraseIdx index }
      match answer with
      | some _ => stack
      | none => stack.answerFake lower domain
  | none => stack

/-- `prescan_tcp` and the handshake, up to the start of the relay; port 53 is the responder's. -/
def accept (stack : TunStack) (answer : Option Answer) (dst : IpAddr) (port : ℕ) : TunStack :=
  if port = 53 then stack
  else { stack with tcp := stack.tcp ++ [⟨answer, .accepted dst port⟩] }

/-- `UdpEngine::feed`, for the first datagram of a flow; port 53 is the responder's. -/
def feed (stack : TunStack) (answer : Option Answer) (dst : IpAddr) (port : ℕ) : TunStack :=
  if port = 53 then stack
  else
    { stack with
      udp := stack.udp ++ [⟨answer, .feed stack.udpShared stack.blockQuic dst port⟩] }

def step (stack : TunStack) : StackEvent → TunStack
  | .swapEngine new => stack.swapEngine new
  | .setRouter router => { stack with router }
  | .setBlockQuic blockQuic => { stack with blockQuic }
  | .udpDns domain qtype => stack.handleDnsQuery lower domain qtype
  | .tcpDns domain qtype => stack.relayTcpDns lower domain qtype
  | .tcpDnsResolved index answer => stack.tcpDnsResolved lower index answer
  | .connectAnswered index port =>
      match stack.answers[index]? with
      | some answer => stack.accept (some answer) (.v4 answer.ip) port
      | none => stack
  | .connect dst port => stack.accept none dst port
  | .tcp index event =>
      match stack.tcp[index]? with
      | some conn =>
          { stack with
            tcp := stack.tcp.set index ⟨conn.answer, conn.flow.step sniffTcp stack.shared event⟩ }
      | none => stack
  | .sendAnswered index port =>
      match stack.answers[index]? with
      | some answer => stack.feed (some answer) (.v4 answer.ip) port
      | none => stack
  | .send dst port => stack.feed none dst port
  | .udp index event =>
      match stack.udp[index]? with
      | some conn =>
          { stack with
            udp := stack.udp.set index ⟨conn.answer, conn.flow.step stack.udpShared event⟩ }
      | none => stack

end TunStack

end Mirage.Tun
