import Mirage.Routing.Decision

/-!
# The gate in front of the public resolvers

`shouldResolveUpstream` decides which names may be sent to a public resolver.
This file compares it with the routing decision for a name alone: a name which
is routed directly passes the gate, or by which source it was routed says when
it does not.
-/

namespace Mirage.Routing

open Mirage.Foundations

namespace RouterState

variable {state : RouterState} {domain : String}

@[simp]
theorem isDynamicDirectDomain_normalize (state : RouterState) (domain : String) :
    state.isDynamicDirectDomain (normalize domain) = state.isDynamicDirectDomain domain := by
  unfold isDynamicDirectDomain freshEntry
  rw [normalize_normalize]

/-- The gate, for names which are neither foreign nor local. -/
theorem shouldResolveUpstream_eq :
    state.shouldResolveUpstream domain =
      (!isKnownNonCnDomain domain && !isLanOrRouterDomain domain && state.outboundMode != 1 &&
        (state.outboundMode == 2 || endsWith (normalize domain) ".cn" ||
          endsWith (normalize domain) ".xn--fiqs8s" || state.geo.isCnDomain domain ||
          state.rules.any (fun rule =>
            rule.action == .direct &&
              rule.matches state.geo (.ofDomain (normalize domain))) ||
          state.isDynamicDirectDomain domain == some true)) := by
  simp only [shouldResolveUpstream, isKnownNonCnDomain_normalize, isLanOrRouterDomain_normalize,
    GeoStore.isCnDomain_normalize, isDynamicDirectDomain_normalize]
  grind

/-- The gate never opens for local names or for known foreign ones. -/
theorem shouldResolveUpstream_gated (opens : state.shouldResolveUpstream domain = true) :
    isLanOrRouterDomain domain = false ∧ isKnownNonCnDomain domain = false := by
  simp only [shouldResolveUpstream_eq, Bool.and_eq_true, Bool.not_eq_true'] at opens
  exact ⟨opens.1.1.2, opens.1.1.1⟩

/-- When a name which is routed directly by `source` may be sent to a public resolver. -/
def PassesGate (state : RouterState) (domain : String) : DecisionSource → Prop
  | .lan => False
  | .rule | .cnDomain | .cnIp => True
  | .globalMode | .dynamicLearned => isKnownNonCnDomain domain = false
  | .default =>
      isKnownNonCnDomain domain = false ∧
        (endsWith (normalize domain) ".xn--fiqs8s" ||
          state.rules.any fun rule =>
            rule.action == .direct &&
              rule.matches state.geo (.ofDomain (normalize domain))) = true

/-- A rule of the user which routes a name directly is not about a foreign name. -/
theorem not_foreign_of_decides {request : Request} {rule : CompositeRule}
    (request_domain : request.domain = some domain) (direct : rule.action = .direct)
    (decides : state.decides request rule = true) : isKnownNonCnDomain domain = false := by
  simp only [RouterState.decides, direct, request_domain, Option.any_some, beq_self_eq_true,
    Bool.true_and, Bool.and_eq_true, Bool.not_eq_true'] at decides
  exact decides.2

/-- Routing a name alone, when it is routed directly. -/
theorem direct_cases {source : DecisionSource} {name : String}
    (direct : state.routeDecisionSourced (.ofDomain domain) = (.direct, source, name)) :
    source = .lan ∧ isLanOrRouterDomain domain = true ∨
      isLanOrRouterDomain domain = false ∧
        (source = .globalMode ∧ state.outboundMode = 2 ∨
          state.outboundMode ≠ 1 ∧ state.outboundMode ≠ 2 ∧
            (source = .rule ∧ isKnownNonCnDomain domain = false ∨
              source = .cnDomain ∧ state.geo.isCnDomain domain = true ∨
              source = .dynamicLearned ∧ state.isDynamicDirectDomain domain = some true ∨
              source = .default ∧ state.geo.isCnDomain domain = false ∧
                state.isDynamicDirectDomain domain ≠ some true)) := by
  unfold routeDecisionSourced at direct
  split at direct
  · simp at direct
  split at direct
  · rename_i onlyName isPrivate
    simp [Request.ofDomain] at isPrivate
  split at direct
  · rename_i isLan
    simp only [Prod.mk.injEq, true_and] at direct
    exact .inl ⟨direct.1.symm, by simpa [Request.ofDomain] using isLan⟩
  rename_i notLan
  right
  refine ⟨by simpa [Request.ofDomain] using notLan, ?_⟩
  split at direct
  · simp at direct
  rename_i notProxy
  split at direct
  · rename_i globalDirect
    simp only [Prod.mk.injEq, true_and] at direct
    exact .inl ⟨direct.1.symm, globalDirect⟩
  rename_i notDirect
  right
  refine ⟨notProxy, notDirect, ?_⟩
  split at direct
  · rename_i rule found
    simp only [Prod.mk.injEq] at direct
    have decides := List.find?_some found
    exact .inl ⟨direct.2.1.symm, not_foreign_of_decides rfl direct.1 decides⟩
  right
  unfold routeUnruled at direct
  split at direct
  · rename_i isCn
    simp only [Prod.mk.injEq, true_and] at direct
    exact .inl ⟨direct.1.symm, by simpa [Request.ofDomain] using isCn⟩
  rename_i notCn
  split at direct
  · rename_i learned
    simp only [Prod.mk.injEq, true_and] at direct
    exact .inr (.inl ⟨direct.1.symm, by simpa [Request.ofDomain] using learned⟩)
  rename_i notLearned
  split at direct
  · rename_i isCnIp
    simp [Request.ofDomain] at isCnIp
  simp only [Prod.mk.injEq] at direct
  refine .inr (.inr ⟨direct.2.1.symm, ?_, ?_⟩)
  · simpa [Request.ofDomain] using notCn
  · simpa [Request.ofDomain] using notLearned

/-- A name which is routed directly passes the gate exactly when its source says so. -/
theorem gated_iff_passesGate {source : DecisionSource} {name : String}
    (direct : state.routeDecisionSourced (.ofDomain domain) = (.direct, source, name)) :
    (isLanOrRouterDomain domain = false ∧ isKnownNonCnDomain domain = false ∧
        ((source == .rule) = true ∨ state.shouldResolveUpstream domain = true)) ↔
      state.PassesGate domain source := by
  rw [shouldResolveUpstream_eq]
  rcases direct_cases direct with
    ⟨rfl, isLan⟩ | ⟨notLan, ⟨rfl, mode⟩ | ⟨notProxy, notDirect, ⟨rfl, notForeign⟩ |
      ⟨rfl, isCn⟩ | ⟨rfl, learned⟩ | ⟨rfl, notCn, notLearned⟩⟩⟩
  · simp [PassesGate, isLan]
  · simp [PassesGate, notLan, mode]
  · simp [PassesGate, notLan, notForeign]
  · have notForeign : isKnownNonCnDomain domain = false := by
      simp only [GeoStore.isCnDomain] at isCn
      grind
    simp [PassesGate, notLan, notForeign, isCn, notProxy]
  · simp [PassesGate, notLan, learned, notProxy]
  · have notCnSuffix : isKnownNonCnDomain domain = false →
        endsWith (normalize domain) ".cn" = false := by
      intro notForeign
      simp only [GeoStore.isCnDomain, notForeign, isBuiltinCnDomain] at notCn
      grind
    simp only [PassesGate]
    grind

end RouterState

end Mirage.Routing
