import Mirage.Foundations.Run
import Mirage.Tun.Stack.Responder
import Mirage.Tun.Engine

/-!
# The resolver of direct names

`resolve_upstream` is called by the two DNS handlers and by the direct relays.
A call looks the name up in the cache, joins the query which is in flight for it
or starts one, and the task which started it caches the answer with a flag that
says whether the address is a trustworthy Chinese one.  The relays and routing
read the cache; rules, mode and cache change in between.

Every lock is held for one step.  A call remembers how often the cache had been
cleared when it began.
-/

namespace Mirage.Tun

open Mirage.Foundations Mirage.Routing

inductive CallOrigin where
  | udpDns
  | tcpDns
  | relay
  deriving DecidableEq

inductive CallPhase where
  | started
  /-- The cache has no answer. -/
  | missed
  /-- Another call's query is in flight. -/
  | waiting (channel : ℕ)
  /-- This call's query is in flight. -/
  | querying (channel : ℕ)
  /-- The query is over and its flight still registered. -/
  | answered (channel : ℕ)
  | returned
  deriving DecidableEq

structure ResolveCall where
  origin : CallOrigin
  domain : String
  begun : ℕ
  phase : CallPhase
  deriving DecidableEq

structure DirectDns where
  router : RouterState
  /-- `flight_map`: the channel of the query for a name. -/
  flights : FiniteMap String ℕ
  channels : ℕ
  clears : ℕ
  calls : List ResolveCall
  /-- The direct flows to fake addresses which have not resolved their names. -/
  flows : List (String × DecisionSource)

inductive DirectDnsEvent where
  | setOutboundMode (mode : UInt8)
  | setCustomRules (rules : List CompositeRule) (defaultAction : RuleAction)
  | loadGeo (geo : GeoStore)
  | tick (seconds : ℕ)
  | clearDirectCache
  | udpDns (domain : String) (qtype : ℕ)
  | tcpDns (domain : String) (qtype : ℕ)
  /-- A relay routes its flow. -/
  | route (request : Request)
  /-- A direct relay resolves the name of its flow. -/
  | resolveFlow (index : ℕ)
  | lookup (index : ℕ)
  | register (index : ℕ)
  | answer (index : ℕ) (ip : Ipv4Addr) (evicted : Option String)
  | fail (index : ℕ)
  /-- A call returns or is cancelled. -/
  | finish (index : ℕ)

namespace DirectDns

def start (geo : GeoStore) : DirectDns where
  router := .initial geo
  flights := ∅
  channels := 0
  clears := 0
  calls := []
  flows := []

def resolveUpstream (dns : DirectDns) (origin : CallOrigin) (domain : String) : DirectDns :=
  { dns with calls := dns.calls ++ [⟨origin, normalize domain, dns.clears, .started⟩] }

def setCall (dns : DirectDns) (index : ℕ) (call : ResolveCall) (phase : CallPhase) : DirectDns :=
  { dns with calls := dns.calls.set index { call with phase } }

def clearDirectCache (dns : DirectDns) : DirectDns :=
  { dns with
    router := { dns.router with directCache := ∅ }
    flights := ∅
    clears := dns.clears + 1 }

/-- `handle_dns_query`, as far as it calls the resolver. -/
def udpDns (dns : DirectDns) (domain : String) (qtype : ℕ) : DirectDns :=
  if dns.router.routeDecision (dnsRequest domain) = .block then dns
  else if qtype = 1 ∧ dns.router.shouldResolveUpstream domain then
    dns.resolveUpstream .udpDns domain
  else dns

/-- `relay_tcp_dns`, as far as it calls the resolver. -/
def tcpDns (dns : DirectDns) (domain : String) (qtype : ℕ) : DirectDns :=
  if qtype = 1 ∧ dns.router.shouldDirect (some domain) none then
    dns.resolveUpstream .tcpDns domain
  else dns

/-- The decision of a relay: a direct flow to a fake address has to resolve its name. -/
def route (dns : DirectDns) (request : Request) : DirectDns :=
  match dns.router.routeDecisionSourced request, request.domain with
  | (.direct, source, _), some dom =>
      if request.ip.any Engine.new.isFakeIp then { dns with flows := dns.flows ++ [(dom, source)] }
      else dns
  | _, _ => dns

/-- `resolve_direct_target`, as far as it calls the resolver. -/
def resolveFlow (dns : DirectDns) (index : ℕ) : DirectDns :=
  match dns.flows[index]? with
  | some (dom, source) =>
      let resolving := { dns with flows := dns.flows.eraseIdx index }
      if resolveDirectTarget dns.router dom source = .upstream then
        resolving.resolveUpstream .relay dom
      else resolving
  | none => dns

/-- The look-up in the cache. -/
def lookup (dns : DirectDns) (index : ℕ) (call : ResolveCall) : DirectDns :=
  match dns.router.freshEntry call.domain with
  | some _ => dns.setCall index call .returned
  | none => dns.setCall index call .missed

/-- The look-up in the flight map. -/
def register (dns : DirectDns) (index : ℕ) (call : ResolveCall) : DirectDns :=
  match dns.flights.lookup call.domain with
  | some channel => dns.setCall index call (.waiting channel)
  | none =>
      { dns.setCall index call (.querying dns.channels) with
        flights := dns.flights.insert call.domain dns.channels
        channels := dns.channels + 1 }

/-- `resolve_upstream_internal` has an answer. -/
def answer (dns : DirectDns) (index : ℕ) (call : ResolveCall) (channel : ℕ) (ip : Ipv4Addr)
    (evicted : Option String) : DirectDns :=
  let isCn := dns.router.geo.isTrustworthyCnAnswer (.v4 ip)
  { dns.setCall index call (.answered channel) with
    router := dns.router.insertDirectCache call.domain ip isCn evicted }

/-- `FlightGuard::drop`: only the flight of its own channel is removed. -/
def dropGuard (dns : DirectDns) (domain : String) (channel : ℕ) : DirectDns :=
  if dns.flights.lookup domain = some channel then
    { dns with flights := dns.flights.erase domain }
  else dns

def finish (dns : DirectDns) (index : ℕ) (call : ResolveCall) : DirectDns :=
  match call.phase with
  | .querying channel | .answered channel =>
      (dns.setCall index call .returned).dropGuard call.domain channel
  | _ => dns.setCall index call .returned

/-- A step of the call at `index`. -/
def stepCall (dns : DirectDns) (index : ℕ) (call : ResolveCall) : DirectDnsEvent → DirectDns
  | .lookup _ => if call.phase = .started then dns.lookup index call else dns
  | .register _ => if call.phase = .missed then dns.register index call else dns
  | .answer _ ip evicted =>
      match call.phase with
      | .querying channel => dns.answer index call channel ip evicted
      | _ => dns
  | .fail _ =>
      match call.phase with
      | .querying channel => dns.setCall index call (.answered channel)
      | _ => dns
  | .finish _ => dns.finish index call
  | _ => dns

def stepAt (dns : DirectDns) (index : ℕ) (event : DirectDnsEvent) : DirectDns :=
  match dns.calls[index]? with
  | some call => dns.stepCall index call event
  | none => dns

def step (dns : DirectDns) (event : DirectDnsEvent) : DirectDns :=
  match event with
  | .setOutboundMode mode => { dns with router := { dns.router with outboundMode := mode } }
  | .setCustomRules rules defaultAction =>
      { dns with router := { dns.router with rules, defaultAction } }
  | .loadGeo geo => { dns with router := { dns.router with geo } }
  | .tick seconds => { dns with router := { dns.router with now := dns.router.now + seconds } }
  | .clearDirectCache => dns.clearDirectCache
  | .udpDns domain qtype => dns.udpDns domain qtype
  | .tcpDns domain qtype => dns.tcpDns domain qtype
  | .route request => dns.route request
  | .resolveFlow index => dns.resolveFlow index
  | .lookup index | .register index | .answer index _ _ | .fail index | .finish index =>
      dns.stepAt index event

end DirectDns

end Mirage.Tun
