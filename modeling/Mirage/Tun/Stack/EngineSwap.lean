import Mirage.Tun.Stack.Flows

/-!
# Flows and the engine which answered

A fake address means a domain only to the engine which handed it out.  A TCP
relay reads the engine handle whenever it needs the engine, so it reads the
right one as long as no swap has come between; a UDP flow reads the engine of
the start, so its answer has to come from that engine.
-/

namespace Mirage.Tun

open Mirage.Foundations Mirage.Routing

/-- The engines read on behalf of an answer are the one which gave it. -/
def FromAnswer (answer : Option Answer) (engineReads : List ℕ) : Prop :=
  ∀ given, answer = some given → ∀ read ∈ engineReads, read = given.engineId

def GivenBy (engineId : ℕ) (answer : Option Answer) : Prop :=
  ∀ given, answer = some given → given.engineId = engineId

theorem fromAnswer_append {answer : Option Answer} {reads fresh : List ℕ} :
    FromAnswer answer (reads ++ fresh) ↔ FromAnswer answer reads ∧ FromAnswer answer fresh := by
  simp only [FromAnswer, List.forall_mem_append]
  grind

theorem fromAnswer_singleton {answer : Option Answer} {engineId : ℕ} :
    FromAnswer answer [engineId] ↔ GivenBy engineId answer := by
  simp only [FromAnswer, GivenBy, List.forall_mem_singleton]
  grind

namespace TunStack

variable {lower : String → String} {sniffTcp : List UInt8 → Option String} {stack : TunStack}

/-- Every flow has read only the engine which answered its client's query. -/
def Coherent (stack : TunStack) : Prop :=
  stack.AllFlows (fun conn => FromAnswer conn.answer conn.flow.engineReads)
    fun conn => FromAnswer conn.answer conn.flow.engineReads

/--
No engine was swapped in between an answer and a read by its TCP flow, and the
answer of a UDP flow came from the engine which the `UdpEngine` holds.
-/
def NoSwapBetween (stack : TunStack) (event : StackEvent) : Prop :=
  stack.FlowGuard
    (fun conn event => conn.flow.readsEngine event = true → GivenBy stack.engineId conn.answer)
    (fun _ _ => True) (GivenBy stack.udpEngineId) event

theorem udpEngineId_step (stack : TunStack) (event : StackEvent) :
    (stack.step lower sniffTcp event).udpEngineId = stack.udpEngineId := by
  cases event with
  | swapEngine new | setRouter router | setBlockQuic blockQuic => rfl
  | udpDns domain qtype =>
      simp only [step, handleDnsQuery]
      split
      · rfl
      · split
        · split <;> rfl
        · rfl
  | tcpDns domain qtype =>
      simp only [step, relayTcpDns]
      split
      · split <;> rfl
      · rfl
  | tcpDnsResolved index answer =>
      simp only [step, tcpDnsResolved]
      split
      · split <;> rfl
      · rfl
  | connectAnswered index port | sendAnswered index port =>
      simp only [step, accept, feed]
      split
      · split <;> rfl
      · rfl
  | connect dst port | send dst port =>
      simp only [step, accept, feed]
      split <;> rfl
  | tcp index event | udp index event =>
      simp only [step]
      split <;> rfl

/-- Every UDP flow has read the engine which the `UdpEngine` holds. -/
def UdpSeen (stack : TunStack) : Prop :=
  stack.AllFlows (fun _ => True) fun conn => stack.udpEngineId ∈ conn.flow.engineReads

theorem udpSeen_step (lower : String → String) (sniffTcp : List UInt8 → Option String)
    (seen : stack.UdpSeen) (event : StackEvent) :
    (stack.step lower sniffTcp event).UdpSeen := by
  simp only [UdpSeen, udpEngineId_step]
  apply allFlows_preserved seen (flowGuard_true stack event)
  · intro answer dst port
    trivial
  · intro answer dst port _
    simp [UdpFlow.feed, udpShared]
  · intro conn event _ _
    trivial
  · intro conn event read _
    have logged : UdpFlow.Logged stack.udpShared conn.flow _ := conn.flow.step_logged event
    rcases logged.engineReads with ⟨fresh, reads_eq, _⟩
    rw [reads_eq]
    exact List.mem_append_left _ read

theorem start_udpSeen (engine : Engine) (router : RouterState) (blockQuic : Bool) :
    (start engine router blockQuic).UdpSeen := by
  refine ⟨?_, ?_⟩ <;> simp [start]

theorem coherent_step (seen : stack.UdpSeen) (event : StackEvent) :
    (stack.step lower sniffTcp event).Coherent ↔ stack.Coherent ∧ stack.NoSwapBetween event := by
  apply allFlows_step
  · intro answer dst port given _ read member
    simp [TcpFlow.accepted] at member
  · intro answer dst port
    exact fromAnswer_singleton
  · intro conn _ event
    rw [(conn.flow.step_logged event).engineReads, fromAnswer_append]
    apply and_congr_right
    intro _
    cases reads : conn.flow.readsEngine event with
    | true => simpa [shared] using fromAnswer_singleton
    | false => simp [FromAnswer]
  · intro conn member event
    have logged : UdpFlow.Logged stack.udpShared conn.flow _ := conn.flow.step_logged event
    rcases logged.engineReads with ⟨fresh, reads_eq, own⟩
    rw [reads_eq, fromAnswer_append, and_true]
    apply and_iff_left_of_imp
    intro coherent given answered read read_fresh
    rw [own read read_fresh]
    exact coherent given answered _ (seen.udp conn member)

/--
In every run, all flows read only the engine which answered their clients'
queries, exactly when no swap comes between an answer and a read by its TCP
flow, and UDP flows go to answers of the first engine only.
-/
theorem engine_coherent_iff (lower : String → String) (sniffTcp : List UInt8 → Option String)
    (engine : Engine) (router : RouterState) (blockQuic : Bool) (events : List StackEvent) :
    (run (step lower sniffTcp) (start engine router blockQuic) events).Coherent ↔
      Along (step lower sniffTcp) NoSwapBetween (start engine router blockQuic) events := by
  have seen := start_udpSeen engine router blockQuic
  have initially : (start engine router blockQuic).Coherent := by
    refine ⟨?_, ?_⟩ <;> simp [start]
  rw [run_iff_along events (fun event seen => udpSeen_step lower sniffTcp seen event)
    (fun event seen => coherent_step seen event) seen]
  exact and_iff_right initially

/-- Without rules every query is answered by the engine of the handle. -/
theorem answers_udpDns (lower : String → String) (sniffTcp : List UInt8 → Option String)
    {stack : TunStack} {geo : GeoStore} (fresh : stack.router = .initial geo) (domain : String) :
    (stack.step lower sniffTcp (.udpDns domain 1)).answers =
      stack.answers ++
        [⟨stack.engineId, domain,
          ((stack.engines stack.engineId).fakeIpAllocate lower domain).1⟩] := by
  have notBlocked :
      stack.router.routeDecision ⟨some domain, none, some 53, some "udp"⟩ ≠ .block := by
    rw [fresh]
    exact RouterState.initial_not_block (by simp)
  simp only [step, handleDnsQuery, if_neg notBlocked, if_true]
  split <;> rfl

/-- A client asks for a domain after a swap, and sends a datagram to the answer. -/
def askedAfterSwap : List StackEvent :=
  [.swapEngine .new, .udpDns "example.org" 1, .sendAnswered 0 8000]

theorem not_coherent_askedAfterSwap :
    ¬(run (step id fun _ => none) (start .new (.initial .empty) true) askedAfterSwap).Coherent := by
  intro coherent
  rw [askedAfterSwap, run_cons, run_cons, run_cons, run_nil] at coherent
  have seen := udpSeen_step id (fun _ => none) (start_udpSeen .new (.initial .empty) true)
    (.swapEngine .new)
  have fresh : ((start .new (.initial .empty) true).step id (fun _ => none)
      (.swapEngine .new)).router = .initial .empty := rfl
  have answers := answers_udpDns id (fun _ => none) fresh "example.org"
  rw [coherent_step (udpSeen_step id (fun _ => none) seen _)] at coherent
  have from_first := coherent.2 _ (by rw [answers]; rfl) (by decide) _ rfl
  rw [udpEngineId_step, udpEngineId_step] at from_first
  exact absurd from_first (by decide)

end TunStack

end Mirage.Tun
