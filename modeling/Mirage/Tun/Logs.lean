import Mirage.Tun.TcpRelay
import Mirage.Tun.UdpRelay

/-!
# What a step of a relay logs

A step of a relay reads the engine at most once, and calls `resolve_upstream`
at most once and only for a name which may reach a public resolver.  All other
parts of a step leave both logs alone.
-/

namespace Mirage.Tun

open Mirage.Foundations Mirage.Routing Mirage.Proxy

namespace TcpFlow

variable {sniffTcp : List UInt8 → Option String} {shared : Shared} {flow : TcpFlow}

def SameLogs (first second : TcpFlow) : Prop :=
  first.calls = second.calls ∧ first.engineReads = second.engineReads

theorem handOver_logs (flow : TcpFlow) (bytes : List UInt8) :
    (flow.handOver bytes).SameLogs flow := by
  simp only [handOver]
  split <;> exact ⟨rfl, rfl⟩

theorem sniffed_logs (flow : TcpFlow) (bytes : List UInt8) :
    (flow.sniffed sniffTcp bytes).SameLogs flow := by
  simp only [sniffed]
  split <;> exact ⟨rfl, rfl⟩

theorem route_logs (flow : TcpFlow) : (flow.route shared).SameLogs flow := by
  simp only [route]
  split <;> exact ⟨rfl, rfl⟩

theorem dial_logs (flow : TcpFlow) (target : IpAddr) (isFake : Bool) :
    (flow.dial shared target isFake).SameLogs flow := by
  simp only [dial]
  split <;> exact ⟨rfl, rfl⟩

theorem resolved_logs (flow : TcpFlow) (target : DirectTarget) :
    (flow.resolved shared target).SameLogs flow := by
  cases target with
  | ip target | routerIp target => exact dial_logs flow target true
  | fallbackProxy | drop => exact ⟨rfl, rfl⟩

theorem dialFailed_logs (flow : TcpFlow) (closeOnFailure : Bool) :
    (flow.dialFailed closeOnFailure).SameLogs flow := by
  simp only [dialFailed]
  split <;> exact ⟨rfl, rfl⟩

theorem tunnelReady_logs (flow : TcpFlow) (retry : Bool) :
    (flow.tunnelReady retry).SameLogs flow := by
  simp only [tunnelReady]
  split
  · exact ⟨rfl, rfl⟩
  · split <;> exact ⟨rfl, rfl⟩

theorem afterWrite_logs (flow : TcpFlow) : flow.afterWrite.SameLogs flow := by
  simp only [afterWrite]
  split
  · exact tunnelReady_logs flow _
  · exact ⟨rfl, rfl⟩
  · exact ⟨rfl, rfl⟩
  · exact ⟨rfl, rfl⟩
  · exact ⟨rfl, rfl⟩

theorem afterFailure_logs (flow : TcpFlow) : flow.afterFailure.SameLogs flow := by
  simp only [afterFailure]
  split <;> exact ⟨rfl, rfl⟩

theorem timeout_logs (flow : TcpFlow) (active : Bool) : (flow.timeout active).SameLogs flow := by
  simp only [timeout]
  split
  · exact ⟨rfl, rfl⟩
  · exact dialFailed_logs flow _
  · exact ⟨rfl, rfl⟩
  · split <;> exact ⟨rfl, rfl⟩
  · exact ⟨rfl, rfl⟩

/-- The step reads the engine handle. -/
def readsEngine (flow : TcpFlow) : TcpEvent → Bool
  | .proceed =>
      match flow.phase with
      | .opened | .directEntry _ | .tunnelEntry _ | .tunnelTag _ => true
      | _ => false
  | _ => false

/-- What a step adds to the logs. -/
structure Logged (shared : Shared) (reads : Bool) (flow next : TcpFlow) : Prop where
  calls : ∃ fresh, next.calls = flow.calls ++ fresh ∧ ∀ call ∈ fresh, call.Gated
  engineReads : next.engineReads = flow.engineReads ++ if reads then [shared.engineId] else []

theorem SameLogs.logged {next : TcpFlow} (same : next.SameLogs flow) :
    Logged shared false flow next := by
  rcases same with ⟨calls_eq, reads_eq⟩
  exact ⟨⟨[], by simp [calls_eq], by simp⟩, by simp [reads_eq]⟩

/-- A step which reads the engine first and then logs nothing. -/
theorem SameLogs.logged_read {next : TcpFlow} (same : next.SameLogs (flow.readEngine shared)) :
    Logged shared true flow next := by
  rcases same with ⟨calls_eq, reads_eq⟩
  exact ⟨⟨[], by simp [calls_eq, readEngine], by simp⟩, by simp [reads_eq, readEngine]⟩

theorem enterDirect_logged (flow : TcpFlow) (source : DecisionSource) :
    Logged shared true flow (flow.enterDirect shared source) := by
  simp only [enterDirect]
  split
  · split
    · split
      · exact (resolved_logs _ _).logged_read
      · exact SameLogs.logged_read ⟨rfl, rfl⟩
      · rename_i waits
        refine ⟨⟨_, rfl, ?_⟩, rfl⟩
        intro call fresh
        rw [List.mem_singleton.mp fresh]
        exact resolveDirectTarget_gated waits
    · exact SameLogs.logged_read ⟨rfl, rfl⟩
  · exact (dial_logs _ _ _).logged_read

theorem proceed_logged (flow : TcpFlow) :
    Logged shared (flow.readsEngine .proceed) flow (flow.proceed sniffTcp shared) := by
  have unchanged : Logged shared false flow flow := SameLogs.logged ⟨rfl, rfl⟩
  simp only [proceed, readsEngine]
  cases flow.phase with
  | opened | tunnelEntry retry | tunnelTag retry => exact SameLogs.logged_read ⟨rfl, rfl⟩
  | directEntry source => exact enterDirect_logged flow source
  | sniffing =>
      rcases flow.stream.pollRead 2048 with ⟨_ | bytes, next⟩
      · exact unchanged
      · exact SameLogs.logged (sniffed_logs { flow with stream := next } bytes)
  | routing => exact (route_logs flow).logged
  | preRead =>
      rcases flow.stream.pollRead 16384 with ⟨_ | bytes, next⟩
      · exact unchanged
      · exact SameLogs.logged ⟨rfl, rfl⟩
  | relayRead =>
      rcases flow.stream.pollRead 65536 with ⟨_ | _ | ⟨byte, bytes⟩, next⟩
      · exact unchanged
      · exact SameLogs.logged ⟨rfl, rfl⟩
      · exact SameLogs.logged ⟨rfl, rfl⟩
  | _ => exact unchanged

/-- What one step of a TCP relay logs. -/
theorem step_logged (flow : TcpFlow) (event : TcpEvent) :
    Logged shared (flow.readsEngine event) flow (flow.step sniffTcp shared event) := by
  have unchanged : Logged shared false flow flow := SameLogs.logged ⟨rfl, rfl⟩
  cases event with
  | arrive bytes =>
      simp only [step]
      split
      · exact unchanged
      · exact SameLogs.logged ⟨rfl, rfl⟩
  | finish | remove => exact SameLogs.logged ⟨rfl, rfl⟩
  | proceed => exact proceed_logged flow
  | timeout active => exact (timeout_logs flow active).logged
  | lanAnswer answer | upstreamAnswer answer =>
      simp only [step]
      split
      · exact (resolved_logs flow _).logged
      · exact unchanged
  | connected =>
      simp only [step]
      split
      · exact SameLogs.logged ⟨rfl, rfl⟩
      · exact unchanged
  | connectFailed =>
      simp only [step]
      split
      · exact (dialFailed_logs flow _).logged
      · exact unchanged
  | tunnel available =>
      simp only [step]
      split
      · split <;> exact SameLogs.logged ⟨rfl, rfl⟩
      · exact unchanged
  | written =>
      have handed := handOver_logs flow flow.outgoing
      have after := afterWrite_logs (flow.handOver flow.outgoing)
      exact SameLogs.logged ⟨after.1.trans handed.1, after.2.trans handed.2⟩
  | writeFailed count =>
      have handed := handOver_logs flow (flow.outgoing.take count)
      have after := afterFailure_logs (flow.handOver (flow.outgoing.take count))
      exact SameLogs.logged ⟨after.1.trans handed.1, after.2.trans handed.2⟩
  | stop count => exact SameLogs.logged (handOver_logs flow (flow.outgoing.take count))

end TcpFlow

namespace UdpFlow

variable {shared : Shared} {flow : UdpFlow}

/-- What a step adds to the logs of a UDP flow. -/
structure Logged (shared : Shared) (flow next : UdpFlow) : Prop where
  calls : ∃ fresh, next.calls = flow.calls ++ fresh ∧ ∀ call ∈ fresh, call.Gated
  engineReads : ∃ fresh, next.engineReads = flow.engineReads ++ fresh ∧
    ∀ read ∈ fresh, read = shared.engineId

theorem Logged.of_eq {next : UdpFlow} (calls_eq : next.calls = flow.calls)
    (reads_eq : next.engineReads = flow.engineReads) : Logged shared flow next :=
  ⟨⟨[], by simp [calls_eq], by simp⟩, ⟨[], by simp [reads_eq], by simp⟩⟩

theorem Logged.read_first {next : UdpFlow} (logged : Logged shared (flow.readEngine shared) next) :
    Logged shared flow next := by
  refine ⟨logged.calls, ?_⟩
  rcases logged.engineReads with ⟨fresh, reads_eq, own⟩
  refine ⟨shared.engineId :: fresh, ?_, ?_⟩
  · simp [reads_eq, readEngine]
  · intro read member
    rcases List.mem_cons.mp member with rfl | later
    · rfl
    · exact own read later

theorem sendTo_logged (flow : UdpFlow) (target : IpAddr) (isFake : Bool) :
    Logged shared flow (flow.sendTo shared target isFake) := by
  simp only [sendTo]
  split <;> exact .of_eq rfl rfl

theorem resolved_logged (flow : UdpFlow) (target : DirectTarget) :
    Logged shared flow (flow.resolved shared target) := by
  cases target with
  | ip target | routerIp target => exact sendTo_logged flow target true
  | fallbackProxy | drop => exact .of_eq rfl rfl

theorem enterDirect_logged (flow : UdpFlow) (source : DecisionSource) :
    Logged shared flow (flow.enterDirect shared source) := by
  simp only [enterDirect]
  split
  · split
    · split
      · exact resolved_logged flow _
      · exact .of_eq rfl rfl
      · rename_i waits
        refine ⟨⟨_, rfl, ?_⟩, ⟨[], by simp, by simp⟩⟩
        intro call fresh
        rw [List.mem_singleton.mp fresh]
        exact resolveDirectTarget_gated waits
    · exact .of_eq rfl rfl
  · exact sendTo_logged flow _ _

theorem start_logged (flow : UdpFlow) : Logged shared flow (flow.start shared) := by
  apply Logged.read_first
  simp only [start]
  split
  · exact .of_eq rfl rfl
  · exact ⟨(enterDirect_logged _ _).calls, (enterDirect_logged _ _).engineReads⟩
  · exact .of_eq rfl rfl

/-- What one step of a UDP relay logs. -/
theorem step_logged (flow : UdpFlow) (event : UdpEvent) :
    Logged shared flow (flow.step shared event) := by
  have unchanged : Logged shared flow flow := .of_eq rfl rfl
  cases event with
  | proceed =>
      simp only [step]
      split
      · exact start_logged flow
      · apply Logged.read_first
        exact .of_eq rfl rfl
      · exact unchanged
  | lanAnswer answer | upstreamAnswer answer =>
      simp only [step]
      split
      · exact resolved_logged flow _
      · exact unchanged
  | stop => exact .of_eq rfl rfl

end UdpFlow

end Mirage.Tun
