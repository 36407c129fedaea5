import Mirage.Jni.Probing

/-!
# What a running session notices of probes

No access of a probe is guarded by the state of the session: the session keeps
what it had exactly if each access of a probe finds nothing to destroy.
-/

namespace Mirage.Monitor

/-- The statics without those which only the statistics of a session use. -/
def Statics.core (statics : Statics) : Statics :=
  { statics with tunnelLastActive := 0, rateSamples := [], recentRequests := [] }

namespace ConnMonitor

def core (monitor : ConnMonitor) : ConnMonitor :=
  { monitor with statics := monitor.statics.core }

/-- No event makes the counters or the connections depend on the statistics. -/
theorem core_step (monitor : ConnMonitor) (event : ConnEvent) :
    (monitor.step event).core = (monitor.core.step event).core := by
  cases event with
  | updateApp id app =>
      simp only [core, step, Statics.updateConnApp, Statics.modifyConnection, Statics.core]
      split <;> rfl
  | transfer id up down =>
      simp only [core, step, Statics.transferred, Statics.modifyConnection, Statics.core]
      split <;> rfl
  | close index up down status durationMs now =>
      simp only [core, step, close]
      split
      · cases durationMs <;> rfl
      · rfl
  | sample now =>
      simp only [core, step, Statics.sample, Statics.core]
      split
      · split <;> rfl
      · rfl
  | _ => rfl

theorem core_step_congr {first second : ConnMonitor} (same : first.core = second.core)
    (event : ConnEvent) : (first.step event).core = (second.step event).core := by
  rw [core_step, same, ← core_step]

end ConnMonitor

end Mirage.Monitor

namespace Mirage.Jni

open Mirage.Foundations Mirage.Monitor Mirage.Routing

namespace Process

theorem view_eq_iff {first second : Process} :
    first.view = second.view ↔
      first.monitor.core = second.monitor.core ∧ first.router = second.router ∧
        first.flights = second.flights ∧ first.engine = second.engine ∧
          first.udpMuxEnabled = second.udpMuxEnabled := by
  simp only [view, ConnMonitor.core, Statics.core, SessionView.mk.injEq, ConnMonitor.mk.injEq,
    Statics.mk.injEq, true_and, and_true]
  tauto

/-- What the session does to its view depends on its view alone. -/
theorem view_step_congr (lower : String → String) (first second : Process) (event : ProcessEvent)
    (session : event.probing = false) (same : first.view = second.view) :
    (first.step lower event).view = (second.step lower event).view := by
  rcases view_eq_iff.mp same with ⟨monitor, router, flights, engine, enabled⟩
  cases event with
  | monitor event =>
      exact view_eq_iff.mpr ⟨ConnMonitor.core_step_congr monitor event, router, flights, engine,
        enabled⟩
  | insertDirectCache domain ip isDirect evicted =>
      exact view_eq_iff.mpr ⟨monitor, by simp only [step, router], flights, engine, enabled⟩
  | clearDirectCache =>
      exact view_eq_iff.mpr ⟨monitor, by simp only [step, router], rfl, engine, enabled⟩
  | joinFlight domain channel =>
      exact view_eq_iff.mpr ⟨monitor, router, by simp only [step, flights], engine, enabled⟩
  | leaveFlight domain =>
      exact view_eq_iff.mpr ⟨monitor, router, by simp only [step, flights], engine, enabled⟩
  | fakeIpAllocate domain =>
      exact view_eq_iff.mpr ⟨monitor, router, flights, by simp only [step, engine], enabled⟩
  | setUdpMux enabled => exact view_eq_iff.mpr ⟨monitor, router, flights, engine, rfl⟩
  | elapse now =>
      exact view_eq_iff.mpr ⟨monitor, by simp only [step, router], flights, engine, enabled⟩
  | _ => cases session

theorem clear_directCache_eq_iff {router : RouterState} :
    { router with directCache := ∅ } = router ↔ router.directCache = ∅ := by
  rw [eq_comm]
  rcases router with ⟨rules, defaultAction, outboundMode, geo, directCache, now⟩
  simp only [RouterState.mk.injEq, true_and, and_true]

theorem view_access_iff (process : Process) (index : ℕ) (probe : Probe) :
    (process.access index probe).view = process.view ↔ process.Spares probe := by
  unfold Spares
  cases entered : probe.phase with
  | clearCache =>
      simp only [view_eq_iff, access, entered]
      rw [← clear_directCache_eq_iff]
      exact (and_iff_right rfl).trans (and_iff_left ⟨rfl, rfl, rfl⟩)
  | _ => simp [access, entered, view, goTo, modifyStatics, eq_comm]

/-- A record is noticed if it counts something and belongs to a probe which is dialing. -/
theorem view_record_iff {change : Statics → Statics} {bytes : UInt64}
    (counts : ∀ process : Process,
      (process.modifyStatics change).view = process.view ↔ bytes = 0)
    (process : Process) (index : ℕ) :
    (process.record index change).view = process.view ↔
      ∀ probe ∈ process.probes[index]?, probe.phase = .dialing → bytes = 0 := by
  unfold record
  cases found : process.probes[index]? with
  | none => exact iff_of_true rfl fun _ there => by cases there
  | some probe =>
      simp only [Option.mem_some_iff, forall_eq']
      split
      · rename_i dialing
        rw [counts]
        exact ⟨fun none _ => none, fun none => none dialing⟩
      · rename_i dialing
        exact iff_of_true rfl fun entered => absurd entered dialing

theorem view_addUp_iff (process : Process) (bytes : UInt64) :
    (process.modifyStatics fun statics => statics.addUp bytes).view = process.view ↔
      bytes = 0 := by
  simp [modifyStatics, Statics.addUp, view]

theorem view_addDown_iff (process : Process) (bytes : UInt64) (now : ℕ) :
    (process.modifyStatics fun statics => (statics.addDown bytes).markTunnelActive now).view =
      process.view ↔ bytes = 0 := by
  simp [modifyStatics, Statics.addDown, Statics.markTunnelActive, view]

/-- One event of a probe leaves the view of the session exactly if it is harmless. -/
theorem view_step_iff (lower : String → String) (process : Process) {event : ProcessEvent}
    (probing : event.probing = true) :
    (process.step lower event).view = process.view ↔ process.Harmless event := by
  cases event with
  | testNode uri => exact iff_of_true rfl trivial
  | pickBestNode candidates => exact iff_of_true rfl trivial
  | access index =>
      simp only [step, Harmless]
      cases process.probes[index]? with
      | none => exact iff_of_true rfl fun _ there => by cases there
      | some probe =>
          rw [view_access_iff]
          simp only [Option.mem_some_iff, forall_eq']
  | send index bytes =>
      exact view_record_iff (fun process => view_addUp_iff process bytes) process index
  | receive index bytes now =>
      exact view_record_iff (fun process => view_addDown_iff process bytes now) process index
  | _ => cases probing

/--
In every run of a session and of probes the session has, at each point, what it
would have without the probes, exactly if each event of a probe is harmless
where it happens.
-/
theorem probes_unnoticed_iff (lower : String → String) (process : Process)
    (events : List ProcessEvent) :
    Unnoticed (step lower) ProcessEvent.probing view process events ↔
      Along (step lower) (fun process event => event.probing = true → process.Harmless event)
        process events := by
  rw [unnoticed_iff_along (view_step_congr lower)]
  apply Along.congr
  intro process event
  exact forall_congr' fun probing => view_step_iff lower process probing

/-- A session with one connection and a cached answer, whose node has the UDP mux turned off. -/
def running : Process where
  monitor :=
    ConnMonitor.new.step (.register .tcpProxy "example.com:443" "93.184.216.34" "Default" 0)
  router := { RouterState.initial GeoStore.empty with
    directCache := (∅ : FiniteMap String CacheEntry).insert "example.com"
      ⟨ipv4 93 184 216 34, true, 0⟩ }
  flights := ∅
  udpMuxEnabled := false
  udpMuxTunnels := 4
  engine := .new
  probes := []

/-- One test of a node by its URI clears the connection table of the session. -/
theorem not_unnoticed_testNode :
    ¬ Unnoticed (step id) ProcessEvent.probing view running
      [.testNode "mirage://secret@example.com:443?sni=www.apple.com", .access 0] := by
  intro unnoticed
  have same := congrArg (fun seen => seen.activeConnections.keys.length)
    (unnoticed _ List.prefix_rfl)
  revert same
  decide +kernel

end Process

end Mirage.Jni
