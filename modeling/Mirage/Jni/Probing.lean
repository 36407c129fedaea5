import Mirage.Foundations.Run
import Mirage.Monitor.Counting
import Mirage.NodeUri
import Mirage.Tun.Engine

/-!
# Probing nodes while a session runs

`testNode` and `pick_best_node` build an `Engine` for each node which they try.
Its constructor resets the statics of the monitor, the DNS cache and the UDP mux
of the process, which are those of the running session too, and the records of a
probe's handshakes are counted as traffic.

An event is one access to a static, by the session or by a probe.  The fake-IP
mapper belongs to the session's own engine.
-/

namespace Mirage.Jni

open Mirage.Foundations Mirage.Monitor Mirage.Routing

structure NodeInfo where
  tag : String
  server : String
  serverPort : ℕ
  password : String
  sni : String
  poolSize : ℕ
  pfs : Bool
  udpMux : Bool
  deriving DecidableEq, Repr

def NodeInfo.fromNodeUri (uri : NodeUri) : NodeInfo where
  tag := "proxy-" ++ toString uri.port
  server := uri.host
  serverPort := uri.port
  password := uri.password
  sni := uri.sni
  poolSize := uri.poolSize.getD 16
  pfs := false
  udpMux := uri.udpMux.getD true

/-- The node of a candidate; a URI which does not parse is not probed. -/
def probeNode (uri : String) : Option NodeInfo :=
  (NodeUri.parse uri).toOption.map NodeInfo.fromNodeUri

/-- Where a probe is: the accesses of `Engine::new`, and then the records of its handshakes. -/
inductive ProbePhase where
  | clearConnections
  | clearRequests
  | clearTunnelActive
  | clearSamples
  | clearCache
  | clearFlights
  | storeEnabled
  | storeTunnels
  | dialing
  deriving DecidableEq, Repr

structure Probe where
  node : NodeInfo
  phase : ProbePhase
  deriving DecidableEq, Repr

/-- The statics of the process, with the fake-IP mapper of the session. -/
structure Process where
  monitor : ConnMonitor
  router : RouterState
  flights : FiniteMap String ℕ
  udpMuxEnabled : Bool
  udpMuxTunnels : ℕ
  engine : Tun.Engine
  probes : List Probe

inductive ProcessEvent where
  /-- The session registers, counts or ends a connection, or samples its traffic. -/
  | monitor (event : ConnEvent)
  | insertDirectCache (domain : String) (ip : Ipv4Addr) (isDirect : Bool)
      (evicted : Option String)
  | clearDirectCache
  | joinFlight (domain : String) (channel : ℕ)
  | leaveFlight (domain : String)
  | fakeIpAllocate (domain : String)
  | setUdpMux (enabled : Bool)
  | elapse (now : ℕ)
  | testNode (uri : String)
  | pickBestNode (candidates : List String)
  | access (index : ℕ)
  | send (index : ℕ) (bytes : UInt64)
  | receive (index : ℕ) (bytes : UInt64) (now : ℕ)

/-- The events of probes. -/
def ProcessEvent.probing : ProcessEvent → Bool
  | .testNode _ | .pickBestNode _ | .access _ | .send _ _ | .receive _ _ _ => true
  | _ => false

namespace Process

def modifyStatics (process : Process) (change : Statics → Statics) : Process :=
  { process with
    monitor := { process.monitor with statics := change process.monitor.statics } }

def startProbes (process : Process) (nodes : List NodeInfo) : Process :=
  { process with probes := process.probes ++ nodes.map (⟨·, .clearConnections⟩) }

def goTo (process : Process) (index : ℕ) (probe : Probe) (phase : ProbePhase) : Process :=
  { process with probes := process.probes.set index { probe with phase } }

/-- The next access of `Engine::new` in the probe at `index`. -/
def access (process : Process) (index : ℕ) (probe : Probe) : Process :=
  match probe.phase with
  | .clearConnections =>
      (process.goTo index probe .clearRequests).modifyStatics fun statics =>
        { statics with activeConnections := ∅ }
  | .clearRequests =>
      (process.goTo index probe .clearTunnelActive).modifyStatics fun statics =>
        { statics with recentRequests := [] }
  | .clearTunnelActive =>
      (process.goTo index probe .clearSamples).modifyStatics fun statics =>
        { statics with tunnelLastActive := 0 }
  | .clearSamples =>
      (process.goTo index probe .clearCache).modifyStatics fun statics =>
        { statics with rateSamples := [] }
  | .clearCache =>
      { process.goTo index probe .clearFlights with
        router := { process.router with directCache := ∅ } }
  | .clearFlights => { process.goTo index probe .storeEnabled with flights := ∅ }
  | .storeEnabled =>
      { process.goTo index probe .storeTunnels with udpMuxEnabled := probe.node.udpMux }
  | .storeTunnels => { process.goTo index probe .dialing with udpMuxTunnels := 4 }
  | .dialing => process

/-- A record of a handshake, or of a tunnel which a pool keeps warm. -/
def record (process : Process) (index : ℕ) (change : Statics → Statics) : Process :=
  match process.probes[index]? with
  | some probe => if probe.phase = .dialing then process.modifyStatics change else process
  | none => process

variable (lower : String → String)

def step (process : Process) : ProcessEvent → Process
  | .monitor event => { process with monitor := process.monitor.step event }
  | .insertDirectCache domain ip isDirect evicted =>
      { process with router := process.router.insertDirectCache domain ip isDirect evicted }
  | .clearDirectCache =>
      { process with router := { process.router with directCache := ∅ }, flights := ∅ }
  | .joinFlight domain channel =>
      { process with flights := process.flights.insert domain channel }
  | .leaveFlight domain => { process with flights := process.flights.erase domain }
  | .fakeIpAllocate domain =>
      { process with engine := (process.engine.fakeIpAllocate lower domain).2 }
  | .setUdpMux enabled => { process with udpMuxEnabled := enabled, udpMuxTunnels := 4 }
  | .elapse now => { process with router := { process.router with now } }
  | .testNode uri => process.startProbes (probeNode uri).toList
  | .pickBestNode candidates => process.startProbes (candidates.filterMap probeNode)
  | .access index =>
      match process.probes[index]? with
      | some probe => process.access index probe
      | none => process
  | .send index bytes => process.record index fun statics => statics.addUp bytes
  | .receive index bytes now =>
      process.record index fun statics => (statics.addDown bytes).markTunnelActive now

end Process

/-- What a session has of the process: counters, connections, DNS caches and the UDP mux flag. -/
structure SessionView where
  globalUp : UInt64
  globalDown : UInt64
  nextConnId : UInt64
  activeConnections : FiniteMap UInt64 LiveConnection
  flows : List Flow
  router : RouterState
  flights : FiniteMap String ℕ
  engine : Tun.Engine
  udpMuxEnabled : Bool

namespace Process

def view (process : Process) : SessionView where
  globalUp := process.monitor.statics.globalUp
  globalDown := process.monitor.statics.globalDown
  nextConnId := process.monitor.statics.nextConnId
  activeConnections := process.monitor.statics.activeConnections
  flows := process.monitor.flows
  router := process.router
  flights := process.flights
  engine := process.engine
  udpMuxEnabled := process.udpMuxEnabled

/-- The next access of a probe finds nothing to destroy. -/
def Spares (process : Process) (probe : Probe) : Prop :=
  match probe.phase with
  | .clearConnections => process.monitor.statics.activeConnections = ∅
  | .clearCache => process.router.directCache = ∅
  | .clearFlights => process.flights = ∅
  | .storeEnabled => process.udpMuxEnabled = probe.node.udpMux
  | _ => True

/-- An access of a probe which finds nothing to destroy, or a record without content. -/
def Harmless (process : Process) : ProcessEvent → Prop
  | .access index => ∀ probe ∈ process.probes[index]?, process.Spares probe
  | .send index bytes | .receive index bytes _ =>
      ∀ probe ∈ process.probes[index]?, probe.phase = .dialing → bytes = 0
  | _ => True

end Process

end Mirage.Jni
