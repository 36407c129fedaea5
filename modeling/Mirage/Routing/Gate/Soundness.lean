import Mirage.Routing.Gate
import Mirage.Routing.Partial

/-!
# When the gate opens for direct names only

The gate asks whether any rule, list or answer speaks for a direct connection;
the routing decision takes the first rule which speaks at all.  So the gate also
opens for a name which an earlier rule proxies or blocks, and for one which is
left to the default action.
-/

namespace Mirage.Routing

open Mirage.Foundations

namespace RouterState

variable {state : RouterState} {domain : String}

/-- The decision for a name alone is direct, and not by default. -/
def ExplicitDirect (state : RouterState) (domain : String) : Prop :=
  (state.routeDecisionSourced (.ofDomain domain)).1 = .direct ∧
    (state.routeDecisionSourced (.ofDomain domain)).2.1 ≠ .default

/-- Some direct rule matches the normal form of a name. -/
def anyDirectRule (state : RouterState) (domain : String) : Bool :=
  state.rules.any fun rule =>
    rule.action == .direct && rule.matches state.geo (.ofDomain (normalize domain))

/-- Something speaks for a direct connection to the name. -/
def SpokenFor (state : RouterState) (domain : String) : Prop :=
  endsWith (normalize domain) ".cn" = true ∨ endsWith (normalize domain) ".xn--fiqs8s" = true ∨
    state.geo.isCnDomain domain = true ∨ state.anyDirectRule domain = true ∨
      state.isDynamicDirectDomain domain = some true

/--
No rule which decides the name before anything else contradicts what speaks for
a direct connection, and without such a rule the name is Chinese or learned.
-/
def GateSound (state : RouterState) (domain : String) : Prop :=
  isKnownNonCnDomain domain = true ∨ isLanOrRouterDomain domain = true ∨
    state.outboundMode = 1 ∨ state.outboundMode = 2 ∨
      match state.rules.find? (state.decides (.ofDomain domain)) with
      | some rule => rule.action = .direct ∨ ¬state.SpokenFor domain
      | none =>
          state.geo.isCnDomain domain = true ∨ state.isDynamicDirectDomain domain = some true ∨
            endsWith (normalize domain) ".xn--fiqs8s" = false ∧
              state.anyDirectRule domain = false

theorem shouldResolveUpstream_iff :
    state.shouldResolveUpstream domain = true ↔
      isKnownNonCnDomain domain = false ∧ isLanOrRouterDomain domain = false ∧
        state.outboundMode ≠ 1 ∧ (state.outboundMode = 2 ∨ state.SpokenFor domain) := by
  rw [shouldResolveUpstream_eq, SpokenFor, anyDirectRule]
  simp only [Bool.and_eq_true, Bool.not_eq_true', bne_iff_ne, ne_eq, Bool.or_eq_true, beq_iff_eq,
    and_assoc, or_assoc]

/-- A name under `.cn` which is not a known foreign one is Chinese. -/
theorem isCnDomain_of_endsWith_cn (notForeign : isKnownNonCnDomain domain = false)
    (under_cn : endsWith (normalize domain) ".cn" = true) :
    state.geo.isCnDomain domain = true := by
  simp [GeoStore.isCnDomain, notForeign, isBuiltinCnDomain, under_cn]

theorem ofDomain_reachesRules :
    state.ReachesRules (.ofDomain domain) ↔
      isLanOrRouterDomain domain = false ∧ state.outboundMode ≠ 1 ∧ state.outboundMode ≠ 2 := by
  simp [ReachesRules, Request.ofDomain]

/-- A name which no rule decides is explicitly direct if it is Chinese or learned. -/
theorem explicitDirect_unruled
    (reaches : state.ReachesRules (.ofDomain domain))
    (unruled : state.rules.find? (state.decides (.ofDomain domain)) = none) :
    state.ExplicitDirect domain ↔
      state.geo.isCnDomain domain = true ∨ state.isDynamicDirectDomain domain = some true := by
  have decision : state.routeDecisionSourced (.ofDomain domain) =
      state.routeUnruled (.ofDomain domain) := by
    rw [routeDecisionSourced_ruled reaches, ruledDecision, unruled]
  rw [ExplicitDirect, decision, routeUnruled]
  split
  · rename_i isCn
    simp only [Request.ofDomain, Option.any_some] at isCn
    simp [isCn]
  · rename_i notCn
    simp only [Request.ofDomain, Option.any_some] at notCn
    split
    · rename_i learned
      simp only [Request.ofDomain, Option.any_some, beq_iff_eq] at learned
      simp [learned]
    · rename_i notLearned
      simp only [Request.ofDomain, Option.any_some, beq_iff_eq] at notLearned
      simp [Request.ofDomain, notCn, notLearned]

theorem explicitDirect_ruled {rule : CompositeRule}
    (reaches : state.ReachesRules (.ofDomain domain))
    (found : state.rules.find? (state.decides (.ofDomain domain)) = some rule) :
    state.ExplicitDirect domain ↔ rule.action = .direct := by
  simp [ExplicitDirect, routeDecisionSourced_ruled reaches, ruledDecision, found]

/-- What speaks for a name that is neither Chinese nor learned. -/
theorem spokenFor_imp_iff (notForeign : isKnownNonCnDomain domain = false) :
    (state.SpokenFor domain →
        state.geo.isCnDomain domain = true ∨ state.isDynamicDirectDomain domain = some true) ↔
      state.geo.isCnDomain domain = true ∨ state.isDynamicDirectDomain domain = some true ∨
        endsWith (normalize domain) ".xn--fiqs8s" = false ∧
          state.anyDirectRule domain = false := by
  constructor
  · intro known
    by_cases isCn : state.geo.isCnDomain domain = true
    · exact .inl isCn
    by_cases learned : state.isDynamicDirectDomain domain = some true
    · exact .inr (.inl learned)
    have silent : ¬state.SpokenFor domain := by
      intro spoken
      exact (known spoken).elim isCn learned
    refine .inr (.inr ⟨?_, ?_⟩)
    · exact Bool.eq_false_iff.mpr fun suffix => silent (.inr (.inl suffix))
    · exact Bool.eq_false_iff.mpr fun rule => silent (.inr (.inr (.inr (.inl rule))))
  · rintro (isCn | learned | ⟨no_suffix, no_rule⟩) spoken
    · exact .inl isCn
    · exact .inr learned
    · rcases spoken with under_cn | suffix | isCn | rule | learned
      · exact .inl (isCnDomain_of_endsWith_cn notForeign under_cn)
      · exact absurd suffix (Bool.eq_false_iff.mp no_suffix)
      · exact .inl isCn
      · exact absurd rule (Bool.eq_false_iff.mp no_rule)
      · exact .inr learned

/-- In global direct mode every name which is not local is explicitly direct. -/
theorem explicitDirect_globalMode (notLan : isLanOrRouterDomain domain = false)
    (mode : state.outboundMode = 2) : state.ExplicitDirect domain := by
  simp [ExplicitDirect, routeDecisionSourced, Request.ofDomain, notLan, mode]

/--
The gate opens only for names which the rules route directly, and not by
default, exactly if the first rule for the name does not contradict what speaks
for it.
-/
theorem gate_sound_iff (state : RouterState) (domain : String) :
    (state.shouldResolveUpstream domain = true → state.ExplicitDirect domain) ↔
      state.GateSound domain := by
  rw [shouldResolveUpstream_iff, GateSound]
  cases foreign : isKnownNonCnDomain domain with
  | true => simp
  | false =>
      cases isLan : isLanOrRouterDomain domain with
      | true => simp
      | false =>
          by_cases proxy : state.outboundMode = 1
          · simp [proxy]
          by_cases direct : state.outboundMode = 2
          · simp [direct, explicitDirect_globalMode isLan direct]
          have reaches : state.ReachesRules (.ofDomain domain) :=
            ofDomain_reachesRules.mpr ⟨isLan, proxy, direct⟩
          simp only [proxy, direct, ne_eq, not_false_eq_true, true_and, false_or,
            Bool.false_eq_true]
          cases found : state.rules.find? (state.decides (.ofDomain domain)) with
          | some rule =>
              rw [explicitDirect_ruled reaches found]
              exact imp_iff_or_not
          | none =>
              rw [explicitDirect_unruled reaches found]
              exact spokenFor_imp_iff foreign

/-- The user proxies a name under `.cn`. -/
def proxiedShop : RouterState :=
  { initial .empty with
    rules := [⟨"shop", "shop", true, .or, [.domainSuffix "shop.cn"], .proxy⟩] }

/-- The gate is open for the name. -/
theorem not_gate_sound_proxiedShop :
    ¬(proxiedShop.shouldResolveUpstream "shop.cn" = true →
      proxiedShop.ExplicitDirect "shop.cn") := by
  intro sound
  have decided := (sound (by decide +kernel)).1
  exact absurd decided (by decide +kernel)

end RouterState

end Mirage.Routing
