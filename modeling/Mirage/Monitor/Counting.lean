import Mirage.Foundations.Run
import Mirage.Monitor.Statics

/-!
# Counting tunnel connections

Stall detection takes a session for stalled when there are live connections
through the tunnel and no tunnel traffic.  It finds these connections by their
outbound label, which is chosen where a connection is registered: no label that
is in use passes the test, so the count is zero in every reachable state and a
stall is never reported.
-/

namespace Mirage.Monitor

open Mirage.Foundations

/-- The places which register a connection. -/
inductive Producer where
  | tcpBlock
  | tcpProxy
  | tcpLanDomain
  | tcpDirect
  | udpBlock
  | udpProxy
  | udpDirect
  | dnsBlock
  | dnsFakeIp
  deriving DecidableEq, Repr

namespace Producer

def protocol : Producer → String
  | .tcpBlock | .tcpProxy | .tcpLanDomain | .tcpDirect => "TCP"
  | .udpBlock | .udpProxy | .udpDirect => "UDP"
  | .dnsBlock | .dnsFakeIp => "DNS"

/-- The label of its connections. -/
def outbound : Producer → String
  | .tcpBlock | .udpBlock | .dnsBlock => "BLOCK"
  | .tcpProxy | .udpProxy => "PROXY"
  | .tcpLanDomain | .tcpDirect | .udpDirect => "DIRECT"
  | .dnsFakeIp => "Fake-IP"

/-- Its connections are routed through the proxy outbound. -/
def tunnels : Producer → Bool
  | .tcpProxy | .udpProxy => true
  | _ => false

/-- The consumer's test finds none of the labels. -/
theorem outbound_not_counted (producer : Producer) :
    containsText producer.outbound "代理" = false := by
  cases producer <;> decide +kernel

end Producer

/-- The test of stall detection. -/
def tunnelStalled (conns : ℕ) (stall : Option ℕ) (threshold : ℕ) : Bool :=
  decide (0 < conns) && stall.any (threshold ≤ ·)

def tunnelStallSec : ℕ := 30

/-- `is_healthy`; `node` tells the health of the pool of the default outbound, if there is one. -/
def isHealthy (node : Option Bool) (statics : Statics) (now : ℕ) : Bool :=
  match node with
  | none | some false => false
  | some true =>
      !tunnelStalled statics.tunnelConnCount (statics.tunnelStallSecs now) tunnelStallSec

/-- A connection which is registered and not yet ended. -/
structure Flow where
  id : UInt64
  producer : Producer
  deriving DecidableEq, Repr

structure ConnMonitor where
  statics : Statics
  flows : List Flow

inductive ConnEvent where
  | register (producer : Producer) (target resolvedIp matchedRule : String) (now : ℕ)
  | timings (id : UInt64) (dnsMs connectMs tlsMs ttfbMs : UInt32)
  | updateApp (id : UInt64) (app : String)
  | transfer (id up down : UInt64)
  /-- A flow ends, and gives the duration itself or leaves it to the monitor. -/
  | close (index : ℕ) (up down : UInt64) (status : String) (durationMs : Option ℕ) (now : ℕ)
  | traffic (up down : UInt64)
  | markTunnelActive (now : ℕ)
  | sample (now : ℕ)
  | resetSession
  deriving DecidableEq, Repr

def ConnEvent.registersTunnel : ConnEvent → Bool
  | .register producer _ _ _ _ => producer.tunnels
  | _ => false

namespace ConnMonitor

def new : ConnMonitor where
  statics := .new
  flows := []

def register (monitor : ConnMonitor) (producer : Producer) (target resolvedIp matchedRule : String)
    (now : ℕ) : ConnMonitor :=
  let (id, statics) := monitor.statics.recordConnStart producer.protocol target resolvedIp
    matchedRule producer.outbound now
  { statics, flows := monitor.flows ++ [⟨id, producer⟩] }

def close (monitor : ConnMonitor) (index : ℕ) (up down : UInt64) (status : String)
    (durationMs : Option ℕ) (now : ℕ) : ConnMonitor :=
  match monitor.flows[index]? with
  | some flow =>
      { statics :=
          match durationMs with
          | some duration =>
              monitor.statics.recordConnCloseWithDuration flow.id up down status duration
          | none => monitor.statics.recordConnClose flow.id up down status now
        flows := monitor.flows.eraseIdx index }
  | none => monitor

def step (monitor : ConnMonitor) : ConnEvent → ConnMonitor
  | .register producer target resolvedIp matchedRule now =>
      monitor.register producer target resolvedIp matchedRule now
  | .timings id dnsMs connectMs tlsMs ttfbMs =>
      { monitor with statics := monitor.statics.recordConnTimings id dnsMs connectMs tlsMs ttfbMs }
  | .updateApp id app => { monitor with statics := monitor.statics.updateConnApp id app }
  | .transfer id up down => { monitor with statics := monitor.statics.transferred id up down }
  | .close index up down status durationMs now =>
      monitor.close index up down status durationMs now
  | .traffic up down => { monitor with statics := (monitor.statics.addUp up).addDown down }
  | .markTunnelActive now => { monitor with statics := monitor.statics.markTunnelActive now }
  | .sample now => { monitor with statics := (monitor.statics.sample now).2 }
  | .resetSession => { monitor with statics := monitor.statics.resetSession }

/-- The registered connections through the proxy outbound which have not ended. -/
def liveTunnels (monitor : ConnMonitor) : ℕ :=
  monitor.flows.countP fun flow => flow.producer.tunnels

/-- Stall detection counts the connections which it should. -/
def Counts (monitor : ConnMonitor) : Prop :=
  monitor.statics.tunnelConnCount = monitor.liveTunnels

instance (monitor : ConnMonitor) : Decidable monitor.Counts :=
  inferInstanceAs (Decidable (_ = _))

end ConnMonitor

namespace Statics

/-- Every live connection has the label of one of the producers. -/
def Labelled (statics : Statics) : Prop :=
  ∀ id connection, statics.activeConnections.lookup id = some connection →
    ∃ producer : Producer, connection.outbound = producer.outbound

theorem Labelled.tunnelConnCount_eq_zero {statics : Statics} (labelled : statics.Labelled) :
    statics.tunnelConnCount = 0 := by
  rw [tunnelConnCount, List.countP_eq_zero]
  intro connection live
  rcases List.mem_map.mp live with ⟨entry, there, rfl⟩
  rcases labelled entry.1 entry.2 (AList.mem_lookup_iff.mpr there) with ⟨producer, label⟩
  rw [label, producer.outbound_not_counted]
  decide

theorem Labelled.insert {statics : Statics} (labelled : statics.Labelled) (id : UInt64)
    {connection : LiveConnection} {producer : Producer}
    (label : connection.outbound = producer.outbound) :
    ({ statics with activeConnections := statics.activeConnections.insert id connection }).Labelled
      := by
  intro other found there
  by_cases same : other = id
  · subst same
    rw [AList.lookup_insert, Option.some.injEq] at there
    exact ⟨producer, there ▸ label⟩
  · rw [AList.lookup_insert_ne same] at there
    exact labelled other found there

theorem Labelled.erase {statics : Statics} (labelled : statics.Labelled) (id : UInt64) :
    ({ statics with activeConnections := statics.activeConnections.erase id }).Labelled := by
  intro other found there
  by_cases same : other = id
  · subst same
    rw [AList.lookup_erase] at there
    cases there
  · rw [AList.lookup_erase_ne same] at there
    exact labelled other found there

/-- Only the other fields of a live connection are changed. -/
theorem Labelled.modifyConnection {statics : Statics} (labelled : statics.Labelled) (id : UInt64)
    {change : LiveConnection → LiveConnection}
    (keeps : ∀ connection, (change connection).outbound = connection.outbound) :
    (statics.modifyConnection id change).Labelled := by
  unfold Statics.modifyConnection
  split
  case h_1 connection there =>
    rcases labelled id connection there with ⟨producer, label⟩
    exact labelled.insert id ((keeps connection).trans label)
  case h_2 => exact labelled

theorem labelled_resetSession (statics : Statics) : statics.resetSession.Labelled := by
  intro id connection there
  cases there

end Statics

namespace ConnMonitor

theorem labelled_step {monitor : ConnMonitor} (event : ConnEvent)
    (labelled : monitor.statics.Labelled) : (monitor.step event).statics.Labelled := by
  cases event with
  | register producer target resolvedIp matchedRule now =>
      apply labelled.insert
      rfl
  | timings id dnsMs connectMs tlsMs ttfbMs => exact labelled
  | updateApp id app =>
      apply labelled.modifyConnection
      exact fun connection => rfl
  | transfer id up down =>
      apply labelled.modifyConnection
      exact fun connection => rfl
  | close index up down status durationMs now =>
      simp only [step, close]
      split
      · cases durationMs with
        | some duration => exact labelled.erase _
        | none => exact labelled.erase _
      · exact labelled
  | traffic up down => exact labelled
  | markTunnelActive now => exact labelled
  | sample now =>
      simp only [step, Statics.sample]
      split
      · split <;> exact labelled
      · exact labelled
  | resetSession => exact Statics.labelled_resetSession _

/-- The count which stall detection uses is zero in every reachable state. -/
theorem tunnelConnCount_run (events : List ConnEvent) :
    (run step new events).statics.tunnelConnCount = 0 := by
  apply Statics.Labelled.tunnelConnCount_eq_zero
  have initially : new.statics.Labelled := by
    intro id connection there
    cases there
  exact @run_invariant _ _ step (fun monitor => monitor.statics.Labelled) new events labelled_step
    initially

/-- Stall detection has no connection to wait for: the pool alone decides on the health. -/
theorem isHealthy_run (events : List ConnEvent) (node : Option Bool) (now : ℕ) :
    isHealthy node (run step new events).statics now = node.getD false := by
  unfold isHealthy
  rw [tunnelConnCount_run]
  rcases node with _ | _ | _ <;> rfl

/-- Only the registration of a connection through the tunnel adds to the live ones. -/
theorem liveTunnels_step {monitor : ConnMonitor} {event : ConnEvent}
    (none : monitor.liveTunnels = 0) :
    (monitor.step event).liveTunnels = 0 ↔ event.registersTunnel = false := by
  cases event with
  | register producer target resolvedIp matchedRule now =>
      have counted : (monitor.step (.register producer target resolvedIp matchedRule
          now)).liveTunnels = monitor.liveTunnels + producer.tunnels.toNat := by
        simp only [step, register, liveTunnels, List.countP_append, List.countP_cons,
          List.countP_nil]
        cases producer.tunnels <;> rfl
      rw [counted, none, ConnEvent.registersTunnel]
      cases producer.tunnels <;> simp
  | close index up down status durationMs now =>
      refine iff_of_true ?_ rfl
      simp only [step, close]
      split
      · rename_i flow found
        have fewer := countP_of_getElem? found fun flow => flow.producer.tunnels
        simp only [liveTunnels] at none ⊢
        omega
      · exact none
  | _ => exact iff_of_true none rfl

/--
The count is that of the registered connections through the proxy outbound in
every state of a run exactly if the run registers no such connection.
-/
theorem counts_throughout_iff (events : List ConnEvent) :
    Throughout step Counts new events ↔ ∀ event ∈ events, event.registersTunnel = false := by
  have permitted : Along step (fun _ _ => True) new events := Along.of_forall fun _ _ => trivial
  refine Iff.trans ?_ (along_iff_forall_mem : Along step _ new events ↔ _)
  refine throughout_iff_along
    (fun monitor => monitor.statics.Labelled ∧ monitor.liveTunnels = 0) ?_ ?_ ?_ permitted ?_
  · rintro monitor ⟨labelled, none⟩
    rw [Counts, labelled.tunnelConnCount_eq_zero, none]
  · rintro monitor event - ⟨labelled, none⟩ registers
    exact ⟨labelled_step event labelled, (liveTunnels_step none).mpr registers⟩
  · rintro monitor event - ⟨labelled, none⟩ counts
    rw [Counts, (labelled_step event labelled).tunnelConnCount_eq_zero] at counts
    exact (liveTunnels_step none).mp counts.symm
  · refine ⟨?_, rfl⟩
    intro id connection there
    cases there

/-- One TCP connection through the tunnel, which is not counted. -/
theorem not_counts_tcpProxy :
    ¬ Throughout step Counts new
      [ConnEvent.register .tcpProxy "example.com:443" "93.184.216.34" "Default" 0] := by
  intro throughout
  have counts := throughout.run
  revert counts
  decide +kernel

end ConnMonitor

end Mirage.Monitor
