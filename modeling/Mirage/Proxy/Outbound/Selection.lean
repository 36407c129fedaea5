import Mathlib.Data.List.MinMax
import Mathlib.Logic.Function.Basic
import Mirage.Foundations.Run

/-!
# The leaf for a connection

`resolve_leaf` goes from a group of outbounds to one of its members, and on until
it is at a leaf.  Each kind of group has its own preference, and two of them
remember something: `Urltest` the member it chose last, `LoadBalance` how many
times it has been asked.  The latency of a group is that of the leaf it resolves
to, so asking for it moves what is remembered, too.

A `Urltest` group stays with its last choice as long as its latency is within the
tolerance of the best, whether that member is healthy or not.  This is what a
healthy group can fail by.
-/

namespace Mirage.Proxy

open Mirage.Foundations

/--
An outbound as connections see it.  A cell names what changes about a node: the
statistics of a server, and what a group remembers.
-/
inductive OutboundTree where
  | mirage (tag : String) (cell : ℕ)
  | direct (tag : String)
  | block (tag : String)
  | urltest (tag : String) (cell : ℕ) (children : List OutboundTree) (toleranceMs : UInt64)
      (testType : String)
  | fallback (tag : String) (children : List OutboundTree)
  | selector (tag : String) (cell : ℕ) (children : List OutboundTree)
  | loadBalance (tag : String) (cell : ℕ) (children : List OutboundTree)

/-- What the pools and the servers report. -/
structure Measurements where
  /-- `is_healthy` of the statistics of a pool -/
  healthy : ℕ → Bool
  httpMs : ℕ → Option UInt64
  rttMs : ℕ → UInt64

/-- What the groups remember.  A choice is given by its place among the members. -/
structure Selections where
  current : ℕ → Option ℕ
  next : ℕ → UInt64

namespace Selections

def initial : Selections := ⟨fun _ => none, fun _ => 0⟩

def choose (selections : Selections) (cell place : ℕ) : Selections :=
  { selections with current := Function.update selections.current cell (some place) }

def advance (selections : Selections) (cell : ℕ) : Selections :=
  { selections with
    next := Function.update selections.next cell (selections.next cell + 1) }

end Selections

/-- What a group can ask of a member -/
structure Member where
  healthy : Bool
  resolveLeaf : Selections → OutboundTree × Selections

/-- A member and its place -/
abbrev Candidate := Member × ℕ

/-- What a server reports of itself; a group that resolves to itself has no latency. -/
def measuredRtt (measurements : Measurements) : OutboundTree → Option UInt64
  | .mirage _ cell =>
      let rtt := measurements.rttMs cell
      if 0 < rtt ∧ rtt ≠ 0xFFFFFFFFFFFFFFFF then some rtt else none
  | _ => none

def measuredHttp (measurements : Measurements) : OutboundTree → Option UInt64
  | .mirage _ cell => measurements.httpMs cell
  | _ => none

section Groups

variable (measurements : Measurements)

namespace Member

variable (member : Member) (selections : Selections)

def latencyRttMs : Option UInt64 × Selections :=
  let (leaf, selections) := member.resolveLeaf selections
  (measuredRtt measurements leaf, selections)

def latencyHttpMs : Option UInt64 × Selections :=
  let (leaf, selections) := member.resolveLeaf selections
  (measuredHttp measurements leaf, selections)

def latencyMs (testType : String) : Option UInt64 × Selections :=
  if testType = "rtt" then
    match member.latencyRttMs measurements selections with
    | (some latency, selections) => (some latency, selections)
    | (none, selections) => member.latencyHttpMs measurements selections
  else member.latencyHttpMs measurements selections

end Member

/-- The candidates that have a latency, in their order -/
def withLatency (testType : String) :
    List Candidate → Selections → List (Candidate × UInt64) × Selections
  | [], selections => ([], selections)
  | candidate :: rest, selections =>
      let (latency, selections) := candidate.1.latencyMs measurements selections testType
      let (others, selections) := withLatency testType rest selections
      ((latency.map fun latency => (candidate, latency)).toList ++ others, selections)

def healthyMembers (members : List Member) : List Candidate :=
  members.zipIdx.filter fun candidate => candidate.1.healthy

def currentMember (members : List Member) (cell : ℕ) (selections : Selections) :
    Option Candidate :=
  (selections.current cell).bind fun place =>
    members[place]?.map fun member => (member, place)

/-- The least latency of a healthy member, and what is remembered once all have been asked -/
def leastLatency (members : List Member) (testType : String) (selections : Selections) :
    Option (Candidate × UInt64) × Selections :=
  let (withLat, selections) :=
    withLatency measurements testType (healthyMembers members) selections
  (withLat.argmin fun measured => measured.2.toNat, selections)

/-- The member a `Urltest` group goes on with, if any -/
def urltestChoice (members : List Member) (cell : ℕ) (toleranceMs : UInt64) (testType : String)
    (selections : Selections) : Option (Candidate × Selections) :=
  match healthyMembers members with
  | [] => none
  | first :: _ =>
      match leastLatency measurements members testType selections with
      | (none, selections) =>
          match currentMember members cell selections with
          | some curr =>
              if curr.1.healthy then some (curr, selections)
              else some (first, selections.choose cell first.2)
          | none => some (first, selections.choose cell first.2)
      | (some best, selections) =>
          match currentMember members cell selections with
          | some curr =>
              let (currLat, selections) := curr.1.latencyMs measurements selections testType
              if currLat.any fun latency => latency ≤ best.2 + toleranceMs then
                some (curr, selections)
              else some (best.1, selections.choose cell best.1.2)
          | none => some (best.1, selections.choose cell best.1.2)

/-- The first healthy member, or else the first -/
def fallbackChoice (members : List Member) : Option Candidate :=
  (healthyMembers members).head?.or members.zipIdx.head?

def selectorChoice (members : List Member) (cell : ℕ) (selections : Selections) :
    Option Candidate :=
  (currentMember members cell selections).or members.zipIdx.head?

def loadBalanceChoice (members : List Member) (cell : ℕ) (selections : Selections) :
    Option (Candidate × Selections) :=
  match healthyMembers members with
  | [] => members.zipIdx.head?.map fun first => (first, selections)
  | first :: others =>
      let index := (selections.next cell).toNat % (first :: others).length
      some ((first :: others).getD index first, selections.advance cell)

end Groups

/-- Go on with the choice of a group; a group without one is returned itself. -/
def resolveChoice (group : OutboundTree) (selections : Selections) :
    Option (Candidate × Selections) → OutboundTree × Selections
  | some (choice, selections) => choice.1.resolveLeaf selections
  | none => (group, selections)

namespace OutboundTree

variable (measurements : Measurements)

mutual

def member : OutboundTree → Member
  | .mirage tag cell =>
      ⟨measurements.healthy cell, fun selections => (.mirage tag cell, selections)⟩
  | .direct tag => ⟨true, fun selections => (.direct tag, selections)⟩
  | .block tag => ⟨true, fun selections => (.block tag, selections)⟩
  | .urltest tag cell children toleranceMs testType =>
      let members := memberList children
      ⟨members.any Member.healthy, fun selections =>
        resolveChoice (.urltest tag cell children toleranceMs testType) selections
          (urltestChoice measurements members cell toleranceMs testType selections)⟩
  | .fallback tag children =>
      let members := memberList children
      ⟨members.any Member.healthy, fun selections =>
        resolveChoice (.fallback tag children) selections
          ((fallbackChoice members).map fun choice => (choice, selections))⟩
  | .selector tag cell children =>
      let members := memberList children
      ⟨members.any Member.healthy, fun selections =>
        resolveChoice (.selector tag cell children) selections
          ((selectorChoice members cell selections).map fun choice => (choice, selections))⟩
  | .loadBalance tag cell children =>
      let members := memberList children
      ⟨members.any Member.healthy, fun selections =>
        resolveChoice (.loadBalance tag cell children) selections
          (loadBalanceChoice members cell selections)⟩

def memberList : List OutboundTree → List Member
  | [] => []
  | child :: children => member child :: memberList children

end

def isHealthy (tree : OutboundTree) : Bool := (tree.member measurements).healthy

def resolveLeaf (tree : OutboundTree) (selections : Selections) : OutboundTree × Selections :=
  (tree.member measurements).resolveLeaf selections

def children : OutboundTree → List OutboundTree
  | .mirage _ _ | .direct _ | .block _ => []
  | .urltest _ _ children _ _ | .fallback _ children | .selector _ _ children
  | .loadBalance _ _ children => children

def isLeaf : OutboundTree → Bool
  | .mirage _ _ | .direct _ | .block _ => true
  | _ => false

def isSelector : OutboundTree → Bool
  | .selector _ _ _ => true
  | _ => false

end OutboundTree

variable {measurements : Measurements} {members : List Member} {cell : ℕ}
  {toleranceMs : UInt64} {testType : String} {selections : Selections} {candidate : Candidate}

section Choices

theorem mem_healthyMembers :
    candidate ∈ healthyMembers members ↔
      members[candidate.2]? = some candidate.1 ∧ candidate.1.healthy = true := by
  rw [healthyMembers, List.mem_filter, List.mem_zipIdx_iff_getElem?]

theorem healthyMembers_eq_nil :
    healthyMembers members = [] ↔ members.any Member.healthy = false := by
  rw [List.any_eq_false, healthyMembers, List.filter_eq_nil_iff]
  constructor
  · intro none member there
    rcases List.mem_iff_getElem?.mp there with ⟨place, found⟩
    exact none (member, place) (List.mem_zipIdx_iff_getElem?.mpr found)
  · intro none candidate there
    exact none candidate.1 (List.mem_of_getElem? (List.mem_zipIdx_iff_getElem?.mp there))

theorem getElem?_of_currentMember
    (current : currentMember members cell selections = some candidate) :
    members[candidate.2]? = some candidate.1 := by
  rcases Option.bind_eq_some_iff.mp current with ⟨place, _, found⟩
  rcases Option.map_eq_some_iff.mp found with ⟨member, there, rfl⟩
  exact there

theorem mem_of_mem_withLatency {candidates : List Candidate} {latency : UInt64}
    (measured : (candidate, latency) ∈
      (withLatency measurements testType candidates selections).1) :
    candidate ∈ candidates := by
  induction candidates generalizing selections with
  | nil => cases measured
  | cons first rest ih =>
      rw [withLatency] at measured
      rcases List.mem_append.mp measured with here | later
      · rcases Option.map_eq_some_iff.mp (Option.mem_toList.mp here) with ⟨_, _, same⟩
        have at_head : first = candidate := congrArg Prod.fst same
        rw [at_head]
        exact List.mem_cons_self
      · exact List.mem_cons_of_mem _ (ih later)

theorem mem_of_leastLatency {best : Candidate × UInt64}
    (least : (leastLatency measurements members testType selections).1 = some best) :
    best.1 ∈ healthyMembers members :=
  mem_of_mem_withLatency (List.argmin_mem least)

/--
The current member of a `Urltest` group is not healthy, and yet its latency is
within the tolerance of the least one.
-/
structure StaysWithUnhealthy (measurements : Measurements) (members : List Member) (cell : ℕ)
    (toleranceMs : UInt64) (testType : String) (selections : Selections)
    (best : Candidate × UInt64) (asked : Selections) (curr : Candidate) : Prop where
  least : leastLatency measurements members testType selections = (some best, asked)
  current : currentMember members cell asked = some curr
  unhealthy : curr.1.healthy = false
  within : ((curr.1.latencyMs measurements asked testType).1.any
    fun latency => latency ≤ best.2 + toleranceMs) = true

theorem urltestChoice_of_stays {best : Candidate × UInt64} {asked : Selections} {curr : Candidate}
    (stays : StaysWithUnhealthy measurements members cell toleranceMs testType selections best
      asked curr) :
    urltestChoice measurements members cell toleranceMs testType selections =
      some (curr, (curr.1.latencyMs measurements asked testType).2) := by
  have there := mem_of_leastLatency (congrArg Prod.fst stays.least)
  rw [urltestChoice]
  split
  · rename_i none
    rw [none] at there
    cases there
  · simp only [stays.least, stays.current, stays.within, if_true]

/-- The choice of a `Urltest` group is healthy, unless it stays with one which is not. -/
theorem urltestChoice_cases {after : Selections}
    (choice : urltestChoice measurements members cell toleranceMs testType selections =
      some (candidate, after)) :
    candidate ∈ healthyMembers members ∨
      currentMember members cell (leastLatency measurements members testType selections).2 =
          some candidate ∧
        (candidate.1.healthy = true ∨ ∃ best asked, StaysWithUnhealthy measurements members cell
          toleranceMs testType selections best asked candidate) := by
  rw [urltestChoice] at choice
  split at choice
  · cases choice
  · rename_i first others candidates_eq
    have first_there : first ∈ healthyMembers members := by
      rw [candidates_eq]
      exact List.mem_cons_self
    split at choice
    · rename_i asked least
      split at choice
      · rename_i curr current
        split at choice
        · rename_i healthy
          simp only [Option.some.injEq, Prod.mk.injEq] at choice
          rw [least, ← choice.1]
          exact Or.inr ⟨current, Or.inl healthy⟩
        · simp only [Option.some.injEq, Prod.mk.injEq] at choice
          exact Or.inl (choice.1 ▸ first_there)
      · simp only [Option.some.injEq, Prod.mk.injEq] at choice
        exact Or.inl (choice.1 ▸ first_there)
    · rename_i best asked least
      have best_there := mem_of_leastLatency (congrArg Prod.fst least)
      split at choice
      · rename_i curr current
        simp only at choice
        split at choice
        · rename_i within
          simp only [Option.some.injEq, Prod.mk.injEq] at choice
          rcases choice with ⟨rfl, _⟩
          rw [least]
          refine Or.inr ⟨current, ?_⟩
          cases healthy : curr.1.healthy with
          | true => exact Or.inl rfl
          | false => exact Or.inr ⟨best, asked, least, current, healthy, within⟩
        · simp only [Option.some.injEq, Prod.mk.injEq] at choice
          exact Or.inl (choice.1 ▸ best_there)
      · simp only [Option.some.injEq, Prod.mk.injEq] at choice
        exact Or.inl (choice.1 ▸ best_there)

theorem urltestChoice_isSome (healthy : members.any Member.healthy = true) :
    (urltestChoice measurements members cell toleranceMs testType selections).isSome := by
  rw [urltestChoice]
  split
  · rename_i none
    rw [healthyMembers_eq_nil.mp none] at healthy
    cases healthy
  · split
    · split
      · split <;> rfl
      · rfl
    · split
      · dsimp only
        split <;> rfl
      · rfl

theorem fallbackChoice_cases (choice : fallbackChoice members = some candidate) :
    members[candidate.2]? = some candidate.1 ∧
      (members.any Member.healthy = true → candidate.1.healthy = true) := by
  rcases Option.or_eq_some_iff.mp choice with healthy | ⟨none, first⟩
  · have there := mem_healthyMembers.mp (List.mem_of_head? healthy)
    exact ⟨there.1, fun _ => there.2⟩
  · refine ⟨List.mem_zipIdx_iff_getElem?.mp (List.mem_of_head? first), fun some_healthy => ?_⟩
    rw [healthyMembers_eq_nil.mp (List.head?_eq_none_iff.mp none)] at some_healthy
    cases some_healthy

theorem fallbackChoice_isSome (healthy : members.any Member.healthy = true) :
    (fallbackChoice members).isSome := by
  rw [fallbackChoice]
  cases candidates : healthyMembers members with
  | nil =>
      rw [healthyMembers_eq_nil.mp candidates] at healthy
      cases healthy
  | cons first others => rfl

theorem loadBalanceChoice_cases {after : Selections}
    (choice : loadBalanceChoice members cell selections = some (candidate, after)) :
    members[candidate.2]? = some candidate.1 ∧
      (members.any Member.healthy = true → candidate.1.healthy = true) := by
  rw [loadBalanceChoice] at choice
  split at choice
  · rename_i none
    rcases Option.map_eq_some_iff.mp choice with ⟨first, head, same⟩
    rcases Prod.mk.inj same with ⟨rfl, _⟩
    refine ⟨List.mem_zipIdx_iff_getElem?.mp (List.mem_of_head? head), fun some_healthy => ?_⟩
    rw [healthyMembers_eq_nil.mp none] at some_healthy
    cases some_healthy
  · rename_i first others candidates
    simp only [Option.some.injEq, Prod.mk.injEq] at choice
    have inside := Nat.mod_lt (selections.next cell).toNat (Nat.succ_pos others.length)
    have there : candidate ∈ healthyMembers members := by
      rw [candidates, ← choice.1, List.getD_eq_getElem?_getD, List.getElem?_eq_getElem inside]
      exact List.getElem_mem inside
    have found := mem_healthyMembers.mp there
    exact ⟨found.1, fun _ => found.2⟩

theorem loadBalanceChoice_isSome (healthy : members.any Member.healthy = true) :
    (loadBalanceChoice members cell selections).isSome := by
  rw [loadBalanceChoice]
  split
  · rename_i none
    rw [healthyMembers_eq_nil.mp none] at healthy
    cases healthy
  · rfl

end Choices

namespace OutboundTree

variable {tree child leaf : OutboundTree} {before after : Selections}

section Structure

theorem memberList_eq (children : List OutboundTree) :
    memberList measurements children = children.map (member measurements) := by
  induction children with
  | nil => rfl
  | cons child children ih => rw [memberList, ih, List.map_cons]

theorem sizeOf_lt_of_mem_children (there : child ∈ tree.children) : sizeOf child < sizeOf tree := by
  cases tree with
  | mirage | direct | block => cases there
  | urltest _ _ children | fallback _ children | selector _ _ children
  | loadBalance _ _ children =>
      rw [OutboundTree.children] at there
      have smaller := List.sizeOf_lt_of_mem there
      simp only [urltest.sizeOf_spec, fallback.sizeOf_spec, selector.sizeOf_spec,
        loadBalance.sizeOf_spec]
      omega

/-- What holds of a node if it holds of its children holds of every node. -/
theorem children_induction {motive : OutboundTree → Prop}
    (node : ∀ tree : OutboundTree, (∀ child ∈ tree.children, motive child) → motive tree)
    (tree : OutboundTree) : motive tree :=
  node tree fun child _ => children_induction node child
termination_by sizeOf tree
decreasing_by exact sizeOf_lt_of_mem_children ‹_›

theorem isHealthy_of_group (group : tree.isLeaf = false) :
    tree.isHealthy measurements = tree.children.any (isHealthy measurements) := by
  cases tree with
  | mirage | direct | block => cases group
  | urltest | fallback | selector | loadBalance =>
      simp only [isHealthy, member, memberList_eq, children, List.any_map]
      rfl

/-- The member a group goes on with -/
def choice (measurements : Measurements) (tree : OutboundTree) (selections : Selections) :
    Option (Candidate × Selections) :=
  let members := tree.children.map (member measurements)
  match tree with
  | .mirage _ _ | .direct _ | .block _ => none
  | .urltest _ cell _ toleranceMs testType =>
      urltestChoice measurements members cell toleranceMs testType selections
  | .fallback _ _ => (fallbackChoice members).map fun choice => (choice, selections)
  | .selector _ cell _ =>
      (selectorChoice members cell selections).map fun choice => (choice, selections)
  | .loadBalance _ cell _ => loadBalanceChoice members cell selections

theorem resolveLeaf_eq (tree : OutboundTree) (selections : Selections) :
    tree.resolveLeaf measurements selections =
      resolveChoice tree selections (tree.choice measurements selections) := by
  cases tree with
  | mirage | direct | block => rfl
  | urltest | fallback | selector | loadBalance =>
      simp only [resolveLeaf, member, memberList_eq, choice, children]

end Structure

/-- The leaves of a tree -/
inductive HasLeaf : OutboundTree → OutboundTree → Prop where
  | self {leaf : OutboundTree} (isLeaf : leaf.isLeaf = true) : HasLeaf leaf leaf
  | deeper {tree child leaf : OutboundTree} (there : child ∈ tree.children)
      (rest : child.HasLeaf leaf) : HasLeaf tree leaf

/-- Nowhere in the tree is a group which the user switches. -/
inductive Automatic : OutboundTree → Prop where
  | node {tree : OutboundTree} (here : tree.isSelector = false)
      (inside : ∀ child ∈ tree.children, child.Automatic) : Automatic tree

/--
On the way to a leaf a `Urltest` group, which is the node itself or one further
on, stays with a current member that is not healthy.
-/
inductive Sticks (measurements : Measurements) : OutboundTree → Selections → Prop where
  | here {tag : String} {cell : ℕ} {children : List OutboundTree} {toleranceMs : UInt64}
      {testType : String} {selections : Selections} {best : Candidate × UInt64}
      {asked : Selections} {curr : Candidate}
      (stays : StaysWithUnhealthy measurements (children.map (member measurements)) cell
        toleranceMs testType selections best asked curr) :
      Sticks measurements (.urltest tag cell children toleranceMs testType) selections
  | deeper {tree child : OutboundTree} {before after : Selections} {place : ℕ}
      (there : child ∈ tree.children)
      (goes_on : tree.choice measurements before = some ((child.member measurements, place), after))
      (rest : child.Sticks measurements after) : Sticks measurements tree before

theorem isHealthy_iff :
    tree.isHealthy measurements = true ↔
      ∃ leaf, tree.HasLeaf leaf ∧ leaf.isHealthy measurements = true := by
  constructor
  · induction tree using children_induction with
    | node tree ih =>
        intro healthy
        cases group : tree.isLeaf with
        | true => exact ⟨tree, .self group, healthy⟩
        | false =>
            rw [isHealthy_of_group group, List.any_eq_true] at healthy
            rcases healthy with ⟨child, there, healthy⟩
            rcases ih child there healthy with ⟨leaf, below, healthy⟩
            exact ⟨leaf, .deeper there below, healthy⟩
  · rintro ⟨leaf, below, healthy⟩
    induction below with
    | self => exact healthy
    | @deeper tree child leaf there _ ih =>
        have group : tree.isLeaf = false := by
          cases tree with
          | mirage | direct | block => cases there
          | urltest | fallback | selector | loadBalance => rfl
        rw [isHealthy_of_group group, List.any_eq_true]
        exact ⟨child, there, ih healthy⟩

section Choice

theorem exists_child_of_getElem? {children : List OutboundTree} {place : ℕ} {found : Member}
    (there : (children.map (member measurements))[place]? = some found) :
    ∃ child ∈ children, child.member measurements = found := by
  rw [List.getElem?_map, Option.map_eq_some_iff] at there
  rcases there with ⟨child, at_place, same⟩
  exact ⟨child, List.mem_of_getElem? at_place, same⟩

theorem exists_child_of_choice
    (goes_on : tree.choice measurements before = some (candidate, after)) :
    ∃ child ∈ tree.children, child.member measurements = candidate.1 := by
  cases tree with
  | mirage | direct | block => cases goes_on
  | urltest tag cell children toleranceMs testType =>
      rcases urltestChoice_cases goes_on with candidates | ⟨current, _⟩
      · exact exists_child_of_getElem? (mem_healthyMembers.mp candidates).1
      · exact exists_child_of_getElem? (getElem?_of_currentMember current)
  | fallback tag children =>
      rcases Option.map_eq_some_iff.mp goes_on with ⟨choice, chosen, same⟩
      rcases Prod.mk.inj same with ⟨rfl, _⟩
      exact exists_child_of_getElem? (fallbackChoice_cases chosen).1
  | selector tag cell children =>
      rcases Option.map_eq_some_iff.mp goes_on with ⟨choice, chosen, same⟩
      rcases Prod.mk.inj same with ⟨rfl, _⟩
      rcases Option.or_eq_some_iff.mp chosen with current | ⟨_, first⟩
      · exact exists_child_of_getElem? (getElem?_of_currentMember current)
      · exact exists_child_of_getElem?
          (List.mem_zipIdx_iff_getElem?.mp (List.mem_of_head? first))
  | loadBalance tag cell children =>
      exact exists_child_of_getElem? (loadBalanceChoice_cases goes_on).1

theorem isHealthy_of_mem_children (there : child ∈ tree.children)
    (healthy : child.isHealthy measurements = true) : tree.isHealthy measurements = true := by
  rcases isHealthy_iff.mp healthy with ⟨leaf, below, healthy⟩
  exact isHealthy_iff.mpr ⟨leaf, .deeper there below, healthy⟩

/-- A group with a healthy member goes on with one, or it stays with another. -/
theorem choice_of_healthy (automatic : tree.isSelector = false) (group : tree.isLeaf = false)
    (healthy : tree.isHealthy measurements = true) :
    ∃ candidate after, tree.choice measurements before = some (candidate, after) ∧
      (candidate.1.healthy = true ∨ tree.Sticks measurements before) := by
  have members : (tree.children.map (member measurements)).any Member.healthy = true := by
    rw [isHealthy_of_group group] at healthy
    rw [List.any_map]
    exact healthy
  cases tree with
  | mirage | direct | block => cases group
  | selector => cases automatic
  | urltest tag cell children toleranceMs testType =>
      rcases Option.isSome_iff_exists.mp (urltestChoice_isSome members) with
        ⟨⟨candidate, after⟩, chosen⟩
      refine ⟨candidate, after, chosen, ?_⟩
      rcases urltestChoice_cases chosen with candidates | ⟨_, healthy | ⟨best, asked, stays⟩⟩
      · exact Or.inl (mem_healthyMembers.mp candidates).2
      · exact Or.inl healthy
      · exact Or.inr (.here stays)
  | fallback tag children =>
      rcases Option.isSome_iff_exists.mp (fallbackChoice_isSome members) with ⟨candidate, chosen⟩
      refine ⟨candidate, before, ?_, Or.inl ((fallbackChoice_cases chosen).2 members)⟩
      exact Option.map_eq_some_iff.mpr ⟨candidate, chosen, rfl⟩
  | loadBalance tag cell children =>
      rcases Option.isSome_iff_exists.mp (loadBalanceChoice_isSome members) with
        ⟨⟨candidate, after⟩, chosen⟩
      exact ⟨candidate, after, chosen, Or.inl ((loadBalanceChoice_cases chosen).2 members)⟩

end Choice

section Resolution

theorem resolveLeaf_of_choice {place : ℕ}
    (goes_on : tree.choice measurements before = some ((child.member measurements, place), after)) :
    tree.resolveLeaf measurements before = child.resolveLeaf measurements after := by
  rw [resolveLeaf_eq, goes_on]
  rfl

theorem isHealthy_of_resolveLeaf
    (healthy : (tree.resolveLeaf measurements before).1.isHealthy measurements = true) :
    tree.isHealthy measurements = true := by
  induction tree using children_induction generalizing before with
  | node tree ih =>
      cases goes_on : tree.choice measurements before with
      | none =>
          rw [resolveLeaf_eq, goes_on] at healthy
          exact healthy
      | some chosen =>
          rcases chosen with ⟨⟨found, place⟩, after⟩
          rcases exists_child_of_choice goes_on with ⟨child, there, rfl⟩
          rw [resolveLeaf_of_choice goes_on] at healthy
          exact isHealthy_of_mem_children there (ih child there healthy)

theorem not_isHealthy_of_sticks (sticks : tree.Sticks measurements before) :
    (tree.resolveLeaf measurements before).1.isHealthy measurements = false := by
  induction sticks with
  | here stays =>
      rename_i tag cell children toleranceMs testType selections best asked curr
      rcases exists_child_of_getElem? (getElem?_of_currentMember stays.current) with
        ⟨child, _, same⟩
      have goes_on : (urltest tag cell children toleranceMs testType).choice measurements
          selections = some ((child.member measurements, curr.2),
            (curr.1.latencyMs measurements asked testType).2) := by
        rw [same]
        exact urltestChoice_of_stays stays
      rw [resolveLeaf_of_choice goes_on, ← Bool.not_eq_true]
      intro healthy
      have child_healthy := isHealthy_of_resolveLeaf healthy
      rw [isHealthy, same, stays.unhealthy] at child_healthy
      cases child_healthy
  | deeper _ goes_on _ ih =>
      rw [resolveLeaf_of_choice goes_on]
      exact ih

theorem resolveLeaf_of_not_sticks (automatic : tree.Automatic)
    (healthy : tree.isHealthy measurements = true) (free : ¬tree.Sticks measurements before) :
    tree.HasLeaf (tree.resolveLeaf measurements before).1 ∧
      (tree.resolveLeaf measurements before).1.isHealthy measurements = true := by
  induction tree using children_induction generalizing before with
  | node tree ih =>
      cases automatic with
      | node here inside =>
          cases group : tree.isLeaf with
          | true =>
              have itself : (tree.resolveLeaf measurements before).1 = tree := by
                cases tree with
                | mirage | direct | block => rfl
                | urltest | fallback | selector | loadBalance => cases group
              rw [itself]
              exact ⟨.self group, healthy⟩
          | false =>
              rcases choice_of_healthy here group healthy with
                ⟨⟨found, place⟩, after, goes_on, good⟩
              rcases exists_child_of_choice goes_on with ⟨child, there, rfl⟩
              rw [resolveLeaf_of_choice goes_on]
              have child_healthy := good.resolve_right free
              have child_free : ¬child.Sticks measurements after := fun sticks =>
                free (.deeper there goes_on sticks)
              rcases ih child there (inside child there) child_healthy child_free with
                ⟨below, leaf_healthy⟩
              exact ⟨.deeper there below, leaf_healthy⟩

/--
`resolve_leaf` finds a healthy leaf of a tree which has one, exactly if no
`Urltest` group on the way stays with a current member that is not healthy.
-/
theorem resolvesToHealthyLeaf_iff (automatic : tree.Automatic)
    (contained : ∃ leaf, tree.HasLeaf leaf ∧ leaf.isHealthy measurements = true) :
    (tree.HasLeaf (tree.resolveLeaf measurements before).1 ∧
        (tree.resolveLeaf measurements before).1.isHealthy measurements = true) ↔
      ¬tree.Sticks measurements before := by
  constructor
  · rintro ⟨_, healthy⟩ sticks
    rw [not_isHealthy_of_sticks sticks] at healthy
    cases healthy
  · exact resolveLeaf_of_not_sticks automatic (isHealthy_iff.mpr contained)

end Resolution

/-- Two servers under a group with a tolerance -/
def twoServers : OutboundTree := .urltest "auto" 0 [.mirage "a" 1, .mirage "b" 2] 50 "http"

/-- The first server is the faster one. -/
def bothWork : Measurements where
  healthy _ := true
  httpMs cell := if cell = 1 then some 80 else some 100
  rttMs _ := 0

/-- The first server fails, and its samples are still there. -/
def firstFailed : Measurements := { bothWork with healthy := fun cell => cell != 1 }

theorem twoServers_automatic : twoServers.Automatic := by
  refine .node rfl fun child there => ?_
  have leaf : child.isSelector = false ∧ child.children = [] := by
    rcases List.mem_cons.mp there with rfl | second
    · exact ⟨rfl, rfl⟩
    · rw [List.mem_singleton.mp second]
      exact ⟨rfl, rfl⟩
  refine .node leaf.1 fun grandchild inside => ?_
  rw [leaf.2] at inside
  cases inside

theorem twoServers_contains :
    ∃ leaf, twoServers.HasLeaf leaf ∧ leaf.isHealthy firstFailed = true :=
  ⟨.mirage "b" 2, .deeper (.tail _ (.head _)) (.self rfl), rfl⟩

/-- A connection has chosen the first server before it fails. -/
theorem resolvesToHealthyLeaf_iff_twoServers :
    twoServers.Sticks firstFailed (twoServers.resolveLeaf bothWork .initial).2 := by
  by_contra free
  have found := (resolvesToHealthyLeaf_iff twoServers_automatic twoServers_contains).mpr free
  exact absurd found.2 (by decide)

theorem not_resolvesToHealthyLeaf :
    (∃ leaf, twoServers.HasLeaf leaf ∧ leaf.isHealthy firstFailed = true) ∧
      (twoServers.resolveLeaf firstFailed
        (twoServers.resolveLeaf bothWork .initial).2).1 = .mirage "a" 1 ∧
      (mirage "a" 1).isHealthy firstFailed = false :=
  ⟨twoServers_contains, rfl, rfl⟩

end OutboundTree

end Mirage.Proxy
