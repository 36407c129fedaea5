import Mathlib.Data.List.Basic

/-!
# First match

Rules are tried in order, and the first which gives a verdict decides.  Two
readings of the same rules are compared: where at most one of them gives a
verdict on a rule, the outcome is the same only if the rules which follow make
up for it.
-/

namespace Mirage.Foundations

universe u v w

variable {Rule : Type u} {Action : Type v} {Source : Type w}

/-- The verdict of the first rule which gives one. -/
def outcome (verdict : Rule → Option Action) (otherwise : Action) (rules : List Rule) : Action :=
  (rules.findSome? verdict).getD otherwise

section Outcome

variable {verdict : Rule → Option Action} {otherwise : Action} {rule : Rule} {rules : List Rule}

@[simp]
theorem outcome_nil : outcome verdict otherwise [] = otherwise := rfl

theorem outcome_cons_some {action : Action} (decided : verdict rule = some action) :
    outcome verdict otherwise (rule :: rules) = action := by
  simp [outcome, decided]

theorem outcome_cons_none (undecided : verdict rule = none) :
    outcome verdict otherwise (rule :: rules) = outcome verdict otherwise rules := by
  simp [outcome, undecided]

theorem outcome_cons :
    outcome verdict otherwise (rule :: rules) =
      (verdict rule).getD (outcome verdict otherwise rules) := by
  cases decided : verdict rule with
  | some action => exact outcome_cons_some decided
  | none => exact outcome_cons_none decided

theorem outcome_append (later : List Rule) :
    outcome verdict otherwise (rules ++ later) =
      outcome verdict (outcome verdict otherwise later) rules := by
  induction rules with
  | nil => rfl
  | cons rule rules ih => rw [List.cons_append, outcome_cons, outcome_cons, ih]

theorem outcome_congr {other : Rule → Option Action}
    (same : ∀ rule ∈ rules, verdict rule = other rule) :
    outcome verdict otherwise rules = outcome other otherwise rules := by
  induction rules with
  | nil => rfl
  | cons rule rules ih =>
      have first := same rule (by simp)
      have rest := ih fun later mem => same later (List.mem_cons_of_mem _ mem)
      cases decided : verdict rule with
      | some action => rw [outcome_cons_some decided, outcome_cons_some (first ▸ decided)]
      | none => rw [outcome_cons_none decided, outcome_cons_none (first ▸ decided), rest]

theorem outcome_of_none (undecided : ∀ rule ∈ rules, verdict rule = none) :
    outcome verdict otherwise rules = otherwise := by
  rw [outcome, List.findSome?_eq_none_iff.mpr undecided, Option.getD_none]

/-- Rules which are left out, or replaced, before the match. -/
theorem outcome_filterMap (load : Source → Option Rule) (sources : List Source) :
    outcome verdict otherwise (sources.filterMap load) =
      outcome (fun source => (load source).bind verdict) otherwise sources := by
  rw [outcome, outcome, ← List.head?_filterMap, ← List.head?_filterMap, List.filterMap_filterMap]

theorem outcome_map (load : Source → Rule) (sources : List Source) :
    outcome verdict otherwise (sources.map load) =
      outcome (fun source => verdict (load source)) otherwise sources := by
  rw [outcome, outcome, List.findSome?_map]
  rfl

/-- Rules which are numbered before the match. -/
theorem outcome_zipIdx (rules : List Rule) (start : ℕ) :
    outcome (fun entry : Rule × ℕ => verdict entry.1) otherwise (rules.zipIdx start) =
      outcome verdict otherwise rules := by
  rw [← outcome_map, List.zipIdx_map_fst]

end Outcome

section Readings

variable (first second : Rule → Option Action) (otherwise : Action)

/--
At the first rule on which only one of the readings gives a verdict, the other
comes to the same action by the rules which follow.
-/
def MadeUp : List Rule → Prop
  | [] => True
  | rule :: rest =>
      match first rule, second rule with
      | some _, some _ => True
      | none, none => MadeUp rest
      | some action, none => outcome second otherwise rest = action
      | none, some action => outcome first otherwise rest = action

variable {first second otherwise}

theorem outcome_eq_iff {rules : List Rule}
    (agree : ∀ rule ∈ rules, ∀ one other, first rule = some one → second rule = some other →
      one = other) :
    outcome first otherwise rules = outcome second otherwise rules ↔
      MadeUp first second otherwise rules := by
  induction rules with
  | nil => simp [MadeUp]
  | cons rule rules ih =>
      have rest := ih fun later mem => agree later (List.mem_cons_of_mem _ mem)
      cases one : first rule with
      | some action =>
          cases other : second rule with
          | some change =>
              have same := agree rule (by simp) action change one other
              simp [MadeUp, one, other, outcome_cons_some one, outcome_cons_some other, same]
          | none =>
              rw [outcome_cons_some one, outcome_cons_none other]
              simp [MadeUp, one, other, eq_comm]
      | none =>
          cases other : second rule with
          | some change =>
              rw [outcome_cons_none one, outcome_cons_some other]
              simp [MadeUp, one, other]
          | none =>
              rw [outcome_cons_none one, outcome_cons_none other, rest]
              simp [MadeUp, one, other]

/-- Readings which give the same verdicts. -/
theorem madeUp_of_eq {rules : List Rule} (same : ∀ rule ∈ rules, first rule = second rule) :
    MadeUp first second otherwise rules := by
  rw [← outcome_eq_iff]
  · exact outcome_congr same
  · intro rule mem one other decided changed
    rw [same rule mem, changed] at decided
    exact Option.some.inj decided.symm

end Readings

end Mirage.Foundations
