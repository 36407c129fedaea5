import Mirage.Routing.Partial
import Mirage.Tun.UdpRelay

/-!
# The checks of the pump task

`feed` routes a datagram without its port and protocol, and the relay of its
flow routes it again with them.  The two agree unless the first rule which
decides the datagram needs the port or the protocol to match.
-/

namespace Mirage.Tun

open Mirage.Foundations Mirage.Routing

variable {router : RouterState} {blockQuic : Bool} {domain : Option String} {dst : IpAddr}
  {dstPort : ℕ}

/-- A datagram as `udp_flow_relay` routes it. -/
def datagram (domain : Option String) (dst : IpAddr) (dstPort : ℕ) : Request :=
  ⟨domain, some dst, some dstPort, some "udp"⟩

/-- A datagram as `feed` routes it. -/
def bareDatagram (domain : Option String) (dst : IpAddr) : Request :=
  ⟨domain, some dst, none, none⟩

theorem datagram_sameTarget (domain : Option String) (dst : IpAddr) (dstPort : ℕ) :
    (bareDatagram domain dst).SameTarget (datagram domain dst dstPort) :=
  .bare domain (some dst) (some dstPort) (some "udp")

/-- `feed` rejects the datagrams which the full decision blocks, and overseas QUIC. -/
def VerdictRefines (router : RouterState) (blockQuic : Bool) (domain : Option String)
    (dst : IpAddr) (dstPort : ℕ) : Prop :=
  (feedVerdict router blockQuic domain dst dstPort = .blocked ↔
      router.routeDecision (datagram domain dst dstPort) = .block) ∧
    (feedVerdict router blockQuic domain dst dstPort = .quicRejected ↔
      blockQuic = true ∧ dstPort = 443 ∧
        router.routeDecision (datagram domain dst dstPort) = .proxy)

/-- Two actions between which `feed` does not have to tell. -/
def VerdictAgrees (blockQuic : Bool) (dstPort : ℕ) (first second : RuleAction) : Prop :=
  (first = .block ↔ second = .block) ∧
    (blockQuic = true → dstPort = 443 → (first = .proxy ↔ second = .proxy))

/--
If the first rule which decides the datagram needs its port or its protocol for
that, then its action agrees with what the rules say without them.
-/
def TransportHarmless (router : RouterState) (blockQuic : Bool) (domain : Option String)
    (dst : IpAddr) (dstPort : ℕ) : Prop :=
  router.ReachesRules (datagram domain dst dstPort) → ∀ rule,
    router.rules.find? (router.decides (datagram domain dst dstPort)) = some rule →
      router.decides (bareDatagram domain dst) rule = false →
        VerdictAgrees blockQuic dstPort (router.ruledDecision (bareDatagram domain dst)).1
          rule.action

theorem shouldBlock_eq : router.shouldBlock domain (some dst) =
    (router.routeDecision (bareDatagram domain dst) == .block) :=
  rfl

theorem shouldDirect_eq : router.shouldDirect domain (some dst) =
    (router.routeDecision (bareDatagram domain dst) == .direct) :=
  rfl

/-- The verdict by the action without port and protocol. -/
theorem feedVerdict_eq :
    feedVerdict router blockQuic domain dst dstPort =
      match router.routeDecision (bareDatagram domain dst) with
      | .block => .blocked
      | .proxy => if dstPort = 443 ∧ blockQuic = true then .quicRejected else .accepted
      | .direct => .accepted := by
  match action_eq : router.routeDecision (bareDatagram domain dst) with
  | .block => simp [feedVerdict, shouldBlock_eq, action_eq]
  | .proxy => simp [feedVerdict, shouldBlock_eq, shouldDirect_eq, action_eq]
  | .direct => simp [feedVerdict, shouldBlock_eq, shouldDirect_eq, action_eq]

theorem feedVerdict_blocked_iff :
    feedVerdict router blockQuic domain dst dstPort = .blocked ↔
      router.routeDecision (bareDatagram domain dst) = .block := by
  rw [feedVerdict_eq]
  cases router.routeDecision (bareDatagram domain dst) with
  | direct | block => simp
  | proxy =>
      simp only [reduceCtorEq, iff_false]
      split <;> simp

theorem feedVerdict_quicRejected_iff :
    feedVerdict router blockQuic domain dst dstPort = .quicRejected ↔
      blockQuic = true ∧ dstPort = 443 ∧
        router.routeDecision (bareDatagram domain dst) = .proxy := by
  rw [feedVerdict_eq]
  cases router.routeDecision (bareDatagram domain dst) with
  | direct | block => simp
  | proxy =>
      dsimp only
      split
      · rename_i quic
        simp [quic]
      · rename_i other
        simp only [reduceCtorEq, false_iff, and_true]
        rintro ⟨on, port⟩
        exact other ⟨port, on⟩

/-- The verdict is right exactly if the decisions with and without the port agree. -/
theorem verdictRefines_iff_agrees :
    VerdictRefines router blockQuic domain dst dstPort ↔
      VerdictAgrees blockQuic dstPort (router.routeDecision (bareDatagram domain dst))
        (router.routeDecision (datagram domain dst dstPort)) := by
  rw [VerdictRefines, feedVerdict_blocked_iff, feedVerdict_quicRejected_iff, VerdictAgrees]
  apply and_congr_right
  intro _
  constructor
  · intro agrees on port
    simpa [on, port] using agrees
  · intro agrees
    constructor
    · rintro ⟨on, port, proxied⟩
      exact ⟨on, port, (agrees on port).mp proxied⟩
    · rintro ⟨on, port, proxied⟩
      exact ⟨on, port, (agrees on port).mpr proxied⟩

theorem VerdictAgrees.refl (action : RuleAction) : VerdictAgrees blockQuic dstPort action action :=
  ⟨Iff.rfl, fun _ _ => Iff.rfl⟩

/-- Rules which read neither port nor protocol give the verdict nothing to miss. -/
theorem transportHarmless_of_free (free : ∀ rule ∈ router.rules, rule.readsTransport = false) :
    TransportHarmless router blockQuic domain dst dstPort := by
  intro _ rule found bare
  have member := List.mem_of_find?_eq_some found
  have decides := List.find?_some found
  rw [← RouterState.decides_congr (datagram_sameTarget domain dst dstPort)
    (.inl (free rule member)), bare] at decides
  exact absurd decides Bool.false_ne_true

/-- A rule for one port of a name, before a rule which blocks the name. -/
def gameRules : List CompositeRule :=
  [⟨"game", "game", true, .and, [.domainSuffix "example.org", .port [8000] []], .direct⟩,
    ⟨"rest", "rest", true, .or, [.domainSuffix "example.org"], .block⟩]

end Mirage.Tun
