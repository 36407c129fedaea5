import Mirage.Proxy.Outbound.Selection

/-!
# Health and latency queries

`is_healthy` only reads.  The latency of a group is asked by resolving it, which
counts as one more connection for a `LoadBalance` group, and lets a `Urltest`
group choose anew.  The leaves which connections get stay the same as long as no
such group is moved by a query.
-/

namespace Mirage.Proxy

open Mirage.Foundations

variable {measurements : Measurements} {selections : Selections}

namespace OutboundTree

variable {tree child leaf : OutboundTree}

/-- A group which has no member to go on with has none later. -/
theorem choice_eq_none {before : Selections} (ends : tree.choice measurements before = none)
    (selections : Selections) : tree.choice measurements selections = none := by
  cases tree with
  | mirage | direct | block => rfl
  | urltest tag cell children toleranceMs testType =>
      cases healthy : (children.map (member measurements)).any Member.healthy with
      | true =>
          have goes_on : (urltestChoice measurements (children.map (member measurements)) cell
              toleranceMs testType before).isSome = true := urltestChoice_isSome healthy
          exact absurd ends (Option.isSome_iff_ne_none.mp goes_on)
      | false =>
          rw [choice, urltestChoice]
          simp only [OutboundTree.children, healthyMembers_eq_nil.mpr healthy]
  | fallback tag children =>
      exact Option.map_eq_none_iff.mpr (Option.map_eq_none_iff.mp ends)
  | selector tag cell children =>
      have empty := (Option.or_eq_none_iff.mp (Option.map_eq_none_iff.mp ends)).2
      rw [List.head?_eq_none_iff, List.zipIdx_eq_nil_iff] at empty
      apply Option.map_eq_none_iff.mpr
      simp [selectorChoice, currentMember, empty]
  | loadBalance tag cell children =>
      rw [choice, loadBalanceChoice] at *
      split at ends
      · exact Option.map_eq_none_iff.mpr (Option.map_eq_none_iff.mp ends)
      · cases ends

/-- What is resolved to resolves to itself, be it a leaf or a group that has none. -/
theorem resolveLeaf_resolveLeaf (before selections : Selections) :
    (tree.resolveLeaf measurements before).1.resolveLeaf measurements selections =
      ((tree.resolveLeaf measurements before).1, selections) := by
  induction tree using children_induction generalizing before with
  | node tree ih =>
      cases goes_on : tree.choice measurements before with
      | some chosen =>
          rcases chosen with ⟨⟨found, place⟩, after⟩
          rcases exists_child_of_choice goes_on with ⟨child, there, rfl⟩
          rw [resolveLeaf_of_choice goes_on]
          exact ih child there after
      | none =>
          rw [resolveLeaf_eq tree before, goes_on]
          change tree.resolveLeaf measurements selections = (tree, selections)
          rw [resolveLeaf_eq, choice_eq_none goes_on selections]
          rfl

/-- A group has the latency of what it resolves to, which is asked after it. -/
theorem latencyRttMs_eq (tree : OutboundTree) (selections : Selections) :
    (tree.member measurements).latencyRttMs measurements selections =
      ((tree.resolveLeaf measurements selections).1.member measurements).latencyRttMs measurements
        (tree.resolveLeaf measurements selections).2 := by
  rw [Member.latencyRttMs, Member.latencyRttMs, ← resolveLeaf, ← resolveLeaf,
    resolveLeaf_resolveLeaf]

theorem latencyHttpMs_eq (tree : OutboundTree) (selections : Selections) :
    (tree.member measurements).latencyHttpMs measurements selections =
      ((tree.resolveLeaf measurements selections).1.member measurements).latencyHttpMs measurements
        (tree.resolveLeaf measurements selections).2 := by
  rw [Member.latencyHttpMs, Member.latencyHttpMs, ← resolveLeaf, ← resolveLeaf,
    resolveLeaf_resolveLeaf]

end OutboundTree

inductive OutboundCall where
  /-- A connection through the outbound -/
  | connect (tree : OutboundTree)
  | isHealthy (tree : OutboundTree)
  | latencyRttMs (tree : OutboundTree)
  | latencyHttpMs (tree : OutboundTree)
  | latencyMs (tree : OutboundTree) (testType : String)

/-- A call, and what is measured at its time -/
structure OutboundEvent where
  measurements : Measurements
  call : OutboundCall

namespace OutboundEvent

def step (selections : Selections) (event : OutboundEvent) : Selections :=
  match event.call with
  | .connect tree => (tree.resolveLeaf event.measurements selections).2
  | .isHealthy _ => selections
  | .latencyRttMs tree =>
      ((tree.member event.measurements).latencyRttMs event.measurements selections).2
  | .latencyHttpMs tree =>
      ((tree.member event.measurements).latencyHttpMs event.measurements selections).2
  | .latencyMs tree testType =>
      ((tree.member event.measurements).latencyMs event.measurements selections testType).2

def isConnection (event : OutboundEvent) : Bool :=
  match event.call with
  | .connect _ => true
  | _ => false

/-- The leaf for a connection -/
def chosenLeaf (selections : Selections) (event : OutboundEvent) : Option OutboundTree :=
  match event.call with
  | .connect tree => some (tree.resolveLeaf event.measurements selections).1
  | _ => none

/-- The leaves for the connections of a run, in their order -/
def chosenLeaves : Selections → List OutboundEvent → List OutboundTree
  | _, [] => []
  | selections, event :: events =>
      (chosenLeaf selections event).toList ++ chosenLeaves (step selections event) events

end OutboundEvent

/-- Asked now, the member moves nothing. -/
def Member.Still (member : Member) (selections : Selections) : Prop :=
  (member.resolveLeaf selections).2 = selections

section Still

variable {member : Member} {members : List Member} {cell : ℕ} {toleranceMs : UInt64}
  {testType : String} {curr : Candidate}

theorem Member.Still.latencyMs (still : member.Still selections) (testType : String) :
    (member.latencyMs measurements selections testType).2 = selections := by
  have rtt : (member.latencyRttMs measurements selections).2 = selections := still
  have http : (member.latencyHttpMs measurements selections).2 = selections := still
  rw [Member.latencyMs]
  split
  · split
    · rename_i latency after asked
      rw [asked] at rtt
      exact rtt
    · rename_i after asked
      rw [asked] at rtt
      rw [show after = selections from rtt]
      exact http
  · exact http

theorem withLatency_of_still {candidates : List Candidate}
    (still : ∀ candidate ∈ candidates, candidate.1.Still selections) :
    (withLatency measurements testType candidates selections).2 = selections := by
  induction candidates with
  | nil => rfl
  | cons first rest ih =>
      rw [List.forall_mem_cons] at still
      rw [withLatency]
      simp only [still.1.latencyMs]
      exact ih still.2

/--
A `Urltest` group keeps the member it has: that is healthy and no latency is
known, or its latency is within the tolerance of the least.
-/
def Keeps (measurements : Measurements) (members : List Member) (toleranceMs : UInt64)
    (testType : String) (selections : Selections) (curr : Member) : Prop :=
  match (leastLatency measurements members testType selections).1 with
  | none => curr.healthy = true
  | some best => ((curr.latencyMs measurements selections testType).1.any
      fun latency => latency ≤ best.2 + toleranceMs) = true

theorem urltestChoice_of_keeps (healthy : members.any Member.healthy = true)
    (still : ∀ candidate ∈ healthyMembers members, candidate.1.Still selections)
    (current : currentMember members cell selections = some curr)
    (keeps : Keeps measurements members toleranceMs testType selections curr.1) :
    ∃ after, urltestChoice measurements members cell toleranceMs testType selections =
        some (curr, after) ∧
      (curr.1.Still selections → after = selections) := by
  have asked : (leastLatency measurements members testType selections).2 = selections :=
    withLatency_of_still still
  rw [urltestChoice]
  split
  · rename_i none
    rw [healthyMembers_eq_nil.mp none] at healthy
    cases healthy
  · split
    · rename_i after least
      rw [least] at asked
      rw [Keeps, least] at keeps
      rw [show after = selections from asked]
      simp only [current, show curr.1.healthy = true from keeps, if_true]
      exact ⟨selections, rfl, fun _ => rfl⟩
    · rename_i best after least
      rw [least] at asked
      rw [Keeps, least] at keeps
      rw [show after = selections from asked]
      simp only at keeps
      simp only [current, keeps, if_true]
      exact ⟨_, rfl, fun still => still.latencyMs testType⟩

end Still

namespace OutboundTree

variable {tree : OutboundTree}

/-- The members which a group asks: a `Urltest` group the healthy ones, and each its choice. -/
inductive Asks (measurements : Measurements) (selections : Selections) :
    OutboundTree → OutboundTree → Prop where
  | probed {tag : String} {cell : ℕ} {children : List OutboundTree} {toleranceMs : UInt64}
      {testType : String} {child : OutboundTree} (there : child ∈ children)
      (healthy : child.isHealthy measurements = true) :
      Asks measurements selections (.urltest tag cell children toleranceMs testType) child
  | chosen {tree child : OutboundTree} {place : ℕ} {after : Selections}
      (there : child ∈ tree.children)
      (goes_on : tree.choice measurements selections =
        some ((child.member measurements, place), after)) :
      Asks measurements selections tree child

/--
Asking a node itself moves nothing: it is no `LoadBalance` group with a healthy
member, and a `Urltest` group with one keeps its choice.
-/
def Settles (measurements : Measurements) (selections : Selections) : OutboundTree → Prop
  | .loadBalance _ _ children => children.any (isHealthy measurements) = false
  | .urltest _ cell children toleranceMs testType =>
      children.any (isHealthy measurements) = true →
        ∃ curr, currentMember (children.map (member measurements)) cell selections = some curr ∧
          Keeps measurements (children.map (member measurements)) toleranceMs testType selections
            curr.1
  | _ => True

/-- Neither the node nor any that it asks is moved. -/
inductive Quiet (measurements : Measurements) (selections : Selections) : OutboundTree → Prop where
  | node {tree : OutboundTree} (settles : tree.Settles measurements selections)
      (others : ∀ child, tree.Asks measurements selections child →
        child.Quiet measurements selections) :
      Quiet measurements selections tree

theorem isHealthy_of_urltestChoice {children : List OutboundTree} {cell : ℕ}
    {toleranceMs : UInt64} {testType : String} {chosen : Candidate × Selections}
    (goes_on : urltestChoice measurements (children.map (member measurements)) cell toleranceMs
      testType selections = some chosen) :
    (children.map (member measurements)).any Member.healthy = true := by
  rw [← Bool.not_eq_false]
  intro none_healthy
  rw [urltestChoice, healthyMembers_eq_nil.mpr none_healthy] at goes_on
  cases goes_on

/-- A node that settles is not moved if none of those which it asks is. -/
theorem Settles.unmoved {child : OutboundTree} {place : ℕ} {after : Selections}
    (settles : tree.Settles measurements selections)
    (still : ∀ child, tree.Asks measurements selections child →
      (child.member measurements).Still selections)
    (there : child ∈ tree.children)
    (goes_on : tree.choice measurements selections =
      some ((child.member measurements, place), after)) : after = selections := by
  cases tree with
  | mirage | direct | block => cases goes_on
  | fallback | selector =>
      rcases Option.map_eq_some_iff.mp goes_on with ⟨choice, _, same⟩
      exact (Prod.mk.inj same).2.symm
  | loadBalance tag cell children =>
      have none_healthy : (children.map (member measurements)).any Member.healthy = false := by
        rw [List.any_map]
        exact settles
      rw [choice, loadBalanceChoice, OutboundTree.children,
        healthyMembers_eq_nil.mpr none_healthy] at goes_on
      rcases Option.map_eq_some_iff.mp goes_on with ⟨choice, _, same⟩
      exact (Prod.mk.inj same).2.symm
  | urltest tag cell children toleranceMs testType =>
      have healthy := isHealthy_of_urltestChoice goes_on
      have probed : ∀ candidate ∈ healthyMembers (children.map (member measurements)),
          candidate.1.Still selections := by
        intro candidate among
        rcases mem_healthyMembers.mp among with ⟨found, candidate_healthy⟩
        rcases exists_child_of_getElem? found with ⟨other, there, same⟩
        rw [← same] at candidate_healthy ⊢
        exact still other (.probed there candidate_healthy)
      have some_healthy : children.any (isHealthy measurements) = true := by
        rw [List.any_map] at healthy
        exact healthy
      rcases settles some_healthy with ⟨curr, current, keeps⟩
      rcases urltestChoice_of_keeps healthy probed current keeps with ⟨later, chosen, unmoved⟩
      rcases Prod.mk.inj (Option.some.inj (goes_on.symm.trans chosen)) with ⟨rfl, rfl⟩
      exact unmoved (still child (.chosen there goes_on))

theorem resolveLeaf_of_quiet (quiet : tree.Quiet measurements selections) :
    (tree.resolveLeaf measurements selections).2 = selections := by
  induction quiet with
  | @node tree settles others ih =>
      cases goes_on : tree.choice measurements selections with
      | none =>
          rw [resolveLeaf_eq, goes_on]
          rfl
      | some chosen =>
          rcases chosen with ⟨⟨found, place⟩, after⟩
          rcases exists_child_of_choice goes_on with ⟨child, there, rfl⟩
          have unmoved := settles.unmoved ih there goes_on
          rw [resolveLeaf_of_choice goes_on, unmoved]
          rw [unmoved] at goes_on
          exact ih child (.chosen there goes_on)

end OutboundTree

namespace OutboundEvent

/-- A query for a latency is put only where it moves nothing. -/
def Unobtrusive (selections : Selections) (event : OutboundEvent) : Prop :=
  match event.call with
  | .connect _ | .isHealthy _ => True
  | .latencyRttMs tree | .latencyHttpMs tree | .latencyMs tree _ =>
      tree.Quiet event.measurements selections

theorem step_of_query {event : OutboundEvent} (query : event.isConnection = false)
    (unobtrusive : event.Unobtrusive selections) : event.step selections = selections := by
  rw [isConnection] at query
  rw [Unobtrusive] at unobtrusive
  rw [step]
  cases call : event.call with
  | connect tree => simp [call] at query
  | isHealthy tree => rfl
  | latencyRttMs tree =>
      rw [call] at unobtrusive
      exact OutboundTree.resolveLeaf_of_quiet unobtrusive
  | latencyHttpMs tree =>
      rw [call] at unobtrusive
      exact OutboundTree.resolveLeaf_of_quiet unobtrusive
  | latencyMs tree testType =>
      rw [call] at unobtrusive
      have still : (tree.member event.measurements).Still selections :=
        OutboundTree.resolveLeaf_of_quiet unobtrusive
      exact still.latencyMs testType

theorem chosenLeaf_of_query {event : OutboundEvent} (query : event.isConnection = false) :
    event.chosenLeaf selections = none := by
  rw [isConnection] at query
  rw [chosenLeaf]
  cases call : event.call with
  | connect tree => simp [call] at query
  | isHealthy | latencyRttMs | latencyHttpMs | latencyMs => rfl

/-- The leaves for the connections are those of the run without the queries. -/
theorem chosenLeaves_filter {events : List OutboundEvent}
    (unobtrusive : Along step Unobtrusive selections events) :
    chosenLeaves selections events = chosenLeaves selections (events.filter isConnection) := by
  induction events generalizing selections with
  | nil => rfl
  | cons event events ih =>
      rcases unobtrusive with ⟨here, rest⟩
      cases connection : event.isConnection with
      | true =>
          rw [List.filter_cons_of_pos connection, chosenLeaves, chosenLeaves, ih rest]
      | false =>
          have not_connection : ¬event.isConnection = true := by simp [connection]
          rw [step_of_query connection here] at rest
          rw [List.filter_cons_of_neg not_connection, chosenLeaves, chosenLeaf_of_query connection,
            step_of_query connection here, ih rest]
          rfl

end OutboundEvent

namespace OutboundTree

theorem quiet_of_isLeaf {tree : OutboundTree} (leaf : tree.isLeaf = true) :
    tree.Quiet measurements selections := by
  cases tree with
  | mirage | direct | block =>
      refine .node trivial fun child asks => ?_
      cases asks with
      | chosen there => cases there
  | urltest | fallback | selector | loadBalance => cases leaf

/-- The group keeps the server which a connection has chosen. -/
theorem twoServers_quiet :
    twoServers.Quiet bothWork (twoServers.resolveLeaf bothWork .initial).2 := by
  refine .node (fun _ => ⟨_, rfl, rfl⟩) fun child asks => quiet_of_isLeaf ?_
  have there : child ∈ twoServers.children := by
    cases asks with
    | probed there => exact there
    | chosen there => exact there
  rcases List.mem_cons.mp there with rfl | second
  · rfl
  · rw [List.mem_singleton.mp second]
    rfl

end OutboundTree

namespace OutboundEvent

open OutboundTree

/-- Two connections through a group, and its latency in between -/
def askedBetween (tree : OutboundTree) : List OutboundEvent :=
  [⟨bothWork, .connect tree⟩, ⟨bothWork, .latencyHttpMs tree⟩, ⟨bothWork, .connect tree⟩]

theorem chosenLeaves_filter_twoServers :
    chosenLeaves .initial (askedBetween twoServers) = [.mirage "a" 1, .mirage "a" 1] := by
  have unobtrusive : Along step Unobtrusive .initial (askedBetween twoServers) :=
    ⟨trivial, twoServers_quiet, trivial, trivial⟩
  exact (chosenLeaves_filter unobtrusive).trans rfl

def twoMembers : OutboundTree := .loadBalance "lb" 0 [.direct "a", .direct "b"]

/-- The query takes the turn of the second member. -/
theorem chosenLeaves_ne_filter :
    chosenLeaves .initial (askedBetween twoMembers) ≠
      chosenLeaves .initial ((askedBetween twoMembers).filter isConnection) := by
  have asked : chosenLeaves .initial (askedBetween twoMembers) = [.direct "a", .direct "a"] := rfl
  have unasked : chosenLeaves .initial ((askedBetween twoMembers).filter isConnection) =
      [.direct "a", .direct "b"] := rfl
  rw [asked, unasked]
  simp

end OutboundEvent

end Mirage.Proxy
