import Mathlib.Data.List.Nodup
import Mirage.Shell.NodeLists

/-!
# Tests of many nodes at once

A coroutine changes the list of the nodes in two moves: it reads the list, and
writes a changed copy of what it has read.  Between the two others may do the
same.  The results of `testAllNodesDetailed` are written under a mutex, so that
no two of them meet; those of the other tests, the marks and the edits are not.

A result is written to the index which the node had when its test began.
-/

namespace Mirage.Shell.NodeLists

open Mirage.Foundations

/-- A node and where it comes from: each addition and each update makes another entry. -/
structure Entry where
  key : ℕ
  node : Node
  deriving DecidableEq, Repr

/-- What the edits make of an entry -/
def Entry.ident (entry : Entry) : ℕ × NodeStore.Node := (entry.key, entry.node.stored)

/-- A test which has begun; `locked` tells whether its result is written under the mutex. -/
structure Test where
  index : ℕ
  uri : String
  locked : Bool
  deriving DecidableEq, Repr

/-- What a coroutine makes of the list which it has read -/
inductive Change where
  | add (node : NodeStore.Node)
  | update (index : ℤ) (node : NodeStore.Node)
  | remove (index : ℤ)
  | markAll (locked : Bool)
  | mark (test : Test)
  | result (test : Test) (rtt : ℤ)
  deriving DecidableEq, Repr

/-- A coroutine which is about to change the list, and the list if it has read it -/
structure Task where
  change : Change
  snapshot : Option (List Entry)
  deriving DecidableEq, Repr

/--
`tests` are the connections which are being made.  `started`, `finished` and
`edited` are a record of what has happened: the entries which have been tested,
the results by the URI which was tested, and the list as the edits alone make it.
-/
structure Testing where
  nodes : List Entry
  nextKey : ℕ
  tasks : List Task
  tests : List Test
  started : List ℕ
  finished : List (String × ℤ)
  edited : List (ℕ × NodeStore.Node)
  deriving DecidableEq, Repr

/-- `write` and `finish` are about a task and a test which are given by their places. -/
inductive TestingEvent where
  | addNode (node : NodeStore.Node)
  | updateNode (index : ℤ) (node : NodeStore.Node)
  | removeNode (index : ℤ)
  | testNode (index : ℤ)
  | testAllNodes
  | testAllNodesDetailed
  | read (place : ℕ)
  | write (place : ℕ)
  | finish (place : ℕ) (rtt : ℤ)
  deriving DecidableEq, Repr

section Changes

variable (unreachable : String)

/-- The result of a test as it is shown -/
def Node.updateLatency (latency : ℤ) (node : Node) : Node :=
  { node with
    latencyMs := if 0 ≤ latency then some latency else none
    isTesting := false
    testError := if latency < 0 then some unreachable else none }

def Node.updateTesting (node : Node) : Node := { node with isTesting := true }

def Node.markTesting (node : Node) : Node := { node with isTesting := true, testError := none }

def Entry.map (change : Node → Node) (entry : Entry) : Entry := ⟨entry.key, change entry.node⟩

/--
The copy which is written, unless there is nothing to change.  What is added or
updated is an entry with a new key.
-/
def Change.copy (key : ℕ) (list : List Entry) : Change → Option (List Entry)
  | .add node => some (list ++ [⟨key, .ofStored node⟩])
  | .update index node =>
      if InIndices list index then some (list.set index.toNat ⟨key, .ofStored node⟩) else none
  | .remove index => if InIndices list index then some (list.eraseIdx index.toNat) else none
  | .markAll _ => if list = [] then none else some (list.map (Entry.map Node.markTesting))
  | .mark test =>
      if test.index < list.length then
        some (list.modify test.index (Entry.map Node.updateTesting))
      else none
  | .result test rtt =>
      if test.index < list.length then
        some (list.modify test.index (Entry.map (Node.updateLatency unreachable rtt)))
      else none

/-- The edits as they would be made one after the other -/
def Change.edit (key : ℕ) (list : List (ℕ × NodeStore.Node)) :
    Change → List (ℕ × NodeStore.Node)
  | .add node => list ++ [(key, node)]
  | .update index node => if InIndices list index then list.set index.toNat (key, node) else list
  | .remove index => if InIndices list index then list.eraseIdx index.toNat else list
  | .markAll _ | .mark _ | .result _ _ => list

/-- The tests which are begun once the change is made -/
def Change.begins (list : List Entry) : Change → List Test
  | .markAll locked => list.mapIdx fun index entry => ⟨index, entry.node.uri, locked⟩
  | .mark test => [test]
  | .add _ | .update _ _ | .remove _ | .result _ _ => []

/-- The entries which a change sets out to test -/
def Change.starts (list : List Entry) : Change → List ℕ
  | .markAll _ => list.map Entry.key
  | .add _ | .update _ _ | .remove _ | .mark _ | .result _ _ => []

/-- The test which a coroutine belongs to -/
def Change.test : Change → Option Test
  | .mark test | .result test _ => some test
  | .add _ | .update _ _ | .remove _ | .markAll _ => none

def Change.locked : Change → Bool
  | .result test _ => test.locked
  | .add _ | .update _ _ | .remove _ | .markAll _ | .mark _ => false

/-- A list which is written as soon as it is read: the operations of the repository -/
theorem map_copy_edits (lists : NodeLists) {entries : List Entry}
    (same : entries.map Entry.node = lists.repository.nodes) (key : ℕ) :
    (∀ node, (((Change.add node).copy unreachable key entries).getD entries).map Entry.node =
        (lists.addNode (.ofStored node)).repository.nodes) ∧
      (∀ index node,
        (((Change.update index node).copy unreachable key entries).getD entries).map Entry.node =
          (lists.updateNode index (.ofStored node)).repository.nodes) ∧
      ∀ index, (((Change.remove index).copy unreachable key entries).getD entries).map Entry.node =
        (lists.removeNode index).repository.nodes := by
  have indices (index : ℤ) : InIndices entries index ↔ InIndices lists.repository.nodes index := by
    rw [← same, inIndices_map]
  refine ⟨fun node => ?_, fun index node => ?_, fun index => ?_⟩
  · have added : (lists.addNode (.ofStored node)).repository.nodes =
        lists.repository.nodes ++ [.ofStored node] := by
      unfold addNode
      dsimp only
      split
      · exact nodes_setSelected _ _
      · rfl
    rw [added, Change.copy, Option.getD_some, List.map_append, same]
    rfl
  · rw [Change.copy, updateNode]
    by_cases inside : InIndices entries index
    · rw [if_pos inside, if_pos ((indices index).mp inside), Option.getD_some, List.map_set, same]
      rfl
    · rw [if_neg inside, if_neg (inside ∘ (indices index).mpr), Option.getD_none, same]
  · rw [Change.copy, removeNode]
    by_cases inside : InIndices entries index
    · rw [if_pos inside, if_pos ((indices index).mp inside), Option.getD_some, ← List.eraseIdx_map,
        same]
      dsimp only
      split_ifs
      · exact (nodes_setSelected (lists.publish _) _).symm
      · exact (nodes_setSelected (lists.publish _) _).symm
      · rfl
    · rw [if_neg inside, if_neg (inside ∘ (indices index).mpr), Option.getD_none, same]

end Changes

namespace Testing

variable (unreachable : String)

/-- The list when it has been loaded: nothing has been tested yet. -/
def initial (stored : List NodeStore.Node) : Testing :=
  let entries := stored.mapIdx fun key node => ⟨key, .ofStored node⟩
  { nodes := entries
    nextKey := stored.length
    tasks := []
    tests := []
    started := []
    finished := []
    edited := entries.map Entry.ident }

def launch (state : Testing) (change : Change) : Testing :=
  { state with tasks := state.tasks ++ [⟨change, none⟩] }

/-- The mutex is held by a result which has read the list and not written it yet. -/
def mutexHeld (state : Testing) : Bool :=
  state.tasks.any fun task => task.change.locked && task.snapshot.isSome

/-- The node is looked up before it is marked. -/
def testNode (state : Testing) (index : ℤ) : Testing :=
  if InIndices state.nodes index then
    state.nodes[index.toNat]?.elim state fun entry =>
      { state.launch (.mark ⟨index.toNat, entry.node.uri, false⟩) with
        started := state.started ++ [entry.key] }
  else state

def readTask (state : Testing) (place : ℕ) (task : Task) : Testing :=
  if task.snapshot.isNone && !(task.change.locked && state.mutexHeld) then
    { state with tasks := state.tasks.set place { task with snapshot := some state.nodes } }
  else state

def writeTask (state : Testing) (place : ℕ) (change : Change) (list : List Entry) : Testing where
  nodes := (change.copy unreachable state.nextKey list).getD state.nodes
  nextKey := state.nextKey + 1
  tasks := state.tasks.eraseIdx place
  tests := state.tests ++ change.begins list
  started := state.started ++ change.starts list
  finished := state.finished
  edited := change.edit state.nextKey state.edited

def finishTest (state : Testing) (place : ℕ) (test : Test) (rtt : ℤ) : Testing :=
  { state.launch (.result test rtt) with
    tests := state.tests.eraseIdx place
    finished := state.finished ++ [(test.uri, rtt)] }

def step (state : Testing) : TestingEvent → Testing
  | .addNode node => state.launch (.add node)
  | .updateNode index node => state.launch (.update index node)
  | .removeNode index => state.launch (.remove index)
  | .testNode index => state.testNode index
  | .testAllNodes => state.launch (.markAll false)
  | .testAllNodesDetailed => state.launch (.markAll true)
  | .read place => state.tasks[place]?.elim state (state.readTask place)
  | .write place =>
      state.tasks[place]?.elim state fun task =>
        task.snapshot.elim state (state.writeTask unreachable place task.change)
  | .finish place rtt => state.tests[place]?.elim state (state.finishTest place · rtt)

/-! ## What has to hold when all is done -/

/-- Every coroutine has ended. -/
def Quiet (state : Testing) : Prop := state.tasks = [] ∧ state.tests = []

instance (state : Testing) : Decidable state.Quiet := inferInstanceAs (Decidable (_ ∧ _))

/-- Some result is shown. -/
def Shows (node : Node) : Prop := node.latencyMs.isSome ∨ node.testError.isSome

/-- What is shown of a node is the result of a test of its own URI. -/
structure OwnResult (finished : List (String × ℤ)) (node : Node) : Prop where
  latency : ∀ rtt ∈ node.latencyMs, 0 ≤ rtt ∧ (node.uri, rtt) ∈ finished
  error : node.testError.isSome → ∃ rtt < 0, (node.uri, rtt) ∈ finished

/-- No result is lost or shown of another node, no mark stays, and no edit is undone. -/
structure Sound (state : Testing) : Prop where
  unmarked : ∀ entry ∈ state.nodes, entry.node.isTesting = false
  shown : ∀ entry ∈ state.nodes, entry.key ∈ state.started → Shows entry.node
  own : ∀ entry ∈ state.nodes, OwnResult state.finished entry.node
  edits : state.nodes.map Entry.ident = state.edited

/-! ## The condition -/

def changes (state : Testing) : List Change := state.tasks.map Task.change

/-- The tests which have begun and have not been written yet -/
def underTest (state : Testing) : List Test :=
  state.tests ++ state.changes.filterMap Change.test

/-- An edit leaves the nodes under test at their places, with their URIs. -/
def Spared (state : Testing) : Change → Prop
  | .add node => ∀ test ∈ state.underTest, test.index = state.nodes.length → test.uri = node.uri
  | .update index node =>
      InIndices state.nodes index →
        ∀ test ∈ state.underTest, (test.index : ℤ) = index → test.uri = node.uri
  | .remove index =>
      InIndices state.nodes index →
        state.nodes.length = index + 1 ∨ ∀ test ∈ state.underTest, (test.index : ℤ) < index
  | .markAll _ | .mark _ | .result _ _ => True

/-- A list is written only while it still is as it was read, and an edit spares the tests. -/
def Undisturbed (state : Testing) : TestingEvent → Prop
  | .write place =>
      ∀ task ∈ state.tasks[place]?, ∀ list ∈ task.snapshot,
        list = state.nodes ∧ state.Spared task.change
  | .addNode _ | .updateNode _ _ | .removeNode _ | .testNode _ | .testAllNodes
  | .testAllNodesDetailed | .read _ | .finish _ _ => True

instance decidableSpared (state : Testing) : ∀ change, Decidable (state.Spared change)
  | .add _ => inferInstanceAs (Decidable (∀ _ ∈ _, _ → _))
  | .update _ _ => inferInstanceAs (Decidable (_ → ∀ _ ∈ _, _ → _))
  | .remove _ => inferInstanceAs (Decidable (_ → _ ∨ ∀ _ ∈ _, _))
  | .markAll _ | .mark _ | .result _ _ => .isTrue trivial

instance decidableUndisturbed (state : Testing) : ∀ event, Decidable (state.Undisturbed event)
  | .write _ =>
      inferInstanceAs (Decidable (∀ task : Task, task ∈ _ → ∀ list ∈ task.snapshot, _ ∧ _))
  | .addNode _ | .updateNode _ _ | .removeNode _ | .testNode _ | .testAllNodes
  | .testAllNodesDetailed | .read _ | .finish _ _ => .isTrue trivial

/-- What holds at any time, as long as the condition is met -/
structure Inv (state : Testing) : Prop where
  distinct : (state.nodes.map Entry.key).Nodup
  keys : ∀ entry ∈ state.nodes, entry.key < state.nextKey
  started : ∀ key ∈ state.started, key < state.nextKey
  uris : ∀ test ∈ state.underTest, ∀ entry ∈ state.nodes[test.index]?, entry.node.uri = test.uri
  waiting : ∀ place, ∀ entry ∈ state.nodes[place]?,
    entry.node.isTesting = true ∨ entry.key ∈ state.started ∧ ¬Shows entry.node →
      ∃ test ∈ state.underTest, test.index = place
  own : ∀ entry ∈ state.nodes, OwnResult state.finished entry.node
  results : ∀ test rtt, .result test rtt ∈ state.changes → (test.uri, rtt) ∈ state.finished
  edits : state.nodes.map Entry.ident = state.edited

theorem Inv.sound {state : Testing} (inv : state.Inv) (quiet : state.Quiet) : state.Sound := by
  have none_left : state.underTest = [] := by
    rw [underTest, changes, quiet.1, quiet.2]
    rfl
  have done : ∀ entry ∈ state.nodes,
      ¬(entry.node.isTesting = true ∨ entry.key ∈ state.started ∧ ¬Shows entry.node) := by
    intro entry there waits
    obtain ⟨place, found⟩ := List.mem_iff_getElem?.mp there
    obtain ⟨test, under, -⟩ := inv.waiting place entry found waits
    rw [none_left] at under
    cases under
  refine ⟨fun entry there => ?_, fun entry there begun => ?_, inv.own, inv.edits⟩
  · exact Bool.not_eq_true _ ▸ fun testing => done entry there (.inl testing)
  · exact not_not.mp fun hidden => done entry there (.inr ⟨begun, hidden⟩)

/-! ## The moves which leave the list alone -/

section Moves

variable {state : Testing} {place : ℕ}

theorem changes_launch (state : Testing) (change : Change) :
    (state.launch change).changes = state.changes ++ [change] := by
  rw [changes, launch, List.map_append]
  rfl

theorem underTest_launch (state : Testing) (change : Change) :
    (state.launch change).underTest = state.underTest ++ change.test.toList := by
  rw [underTest, changes_launch, List.filterMap_append, ← List.append_assoc]
  cases change <;> rfl

theorem inv_launch (inv : state.Inv) {change : Change}
    (uri : ∀ test, change.test = some test →
      ∀ entry ∈ state.nodes[test.index]?, entry.node.uri = test.uri)
    (result : ∀ test rtt, change = .result test rtt → (test.uri, rtt) ∈ state.finished) :
    (state.launch change).Inv := by
  have more := underTest_launch state change
  refine { inv with
    uris := fun test under => ?_
    waiting := fun place entry found waits => ?_
    results := fun test rtt there => ?_ }
  · rw [more, List.mem_append, Option.mem_toList] at under
    exact under.elim (inv.uris test) (uri test)
  · obtain ⟨test, under, at_place⟩ := inv.waiting place entry found waits
    rw [more]
    exact ⟨test, List.mem_append_left _ under, at_place⟩
  · rw [changes_launch, List.mem_append, List.mem_singleton] at there
    exact there.elim (inv.results test rtt) fun same => result test rtt same.symm

theorem Inv.same_place (inv : state.Inv) {other : ℕ} {entry found : Entry}
    (here : state.nodes[place]? = some entry) (there : state.nodes[other]? = some found)
    (same : entry.key = found.key) : place = other := by
  have inside : place < (state.nodes.map Entry.key).length := by
    rw [List.length_map]
    exact (List.getElem?_eq_some_iff.mp here).1
  apply (List.getElem?_inj inside inv.distinct).mp
  rw [List.getElem?_map, List.getElem?_map, here, there, Option.map_some, Option.map_some, same]

theorem inv_testNode (inv : state.Inv) (index : ℤ) : (state.testNode index).Inv := by
  unfold testNode
  split
  · rename_i inside
    cases found : state.nodes[index.toNat]? with
    | none => exact inv
    | some entry =>
        have launched : (state.launch (.mark ⟨index.toNat, entry.node.uri, false⟩)).Inv := by
          refine inv_launch inv (fun test same other there => ?_) nofun
          obtain rfl : _ = test := Option.some.inj same
          obtain rfl : entry = other := Option.some.inj (found.symm.trans there)
          rfl
        refine { launched with
          started := fun key begun => ?_
          waiting := fun place other there waits => ?_ }
        · rcases List.mem_append.mp begun with before | now
          · exact inv.started key before
          · rw [List.mem_singleton.mp now]
            exact inv.keys entry (List.mem_of_getElem? found)
        · rcases waits with testing | ⟨begun, hidden⟩
          · exact launched.waiting place other there (.inl testing)
          · rcases List.mem_append.mp begun with before | now
            · exact launched.waiting place other there (.inr ⟨before, hidden⟩)
            · have under := underTest_launch state (.mark ⟨index.toNat, entry.node.uri, false⟩)
              refine ⟨⟨index.toNat, entry.node.uri, false⟩, ?_, ?_⟩
              · exact under ▸ List.mem_append_right _ (List.mem_singleton_self _)
              · exact inv.same_place found there (List.mem_singleton.mp now).symm
  · exact inv

theorem inv_of_changes (inv : state.Inv) {tasks : List Task}
    (same : tasks.map Task.change = state.changes) : { state with tasks := tasks }.Inv := by
  have under : { state with tasks := tasks }.underTest = state.underTest :=
    congrArg (fun changes => state.tests ++ changes.filterMap Change.test) same
  have changed : { state with tasks := tasks }.changes = state.changes := same
  exact { inv with
    uris := under ▸ inv.uris
    waiting := under ▸ inv.waiting
    results := changed ▸ inv.results }

theorem inv_readTask (inv : state.Inv) {task : Task} (found : state.tasks[place]? = some task) :
    (state.readTask place task).Inv := by
  unfold readTask
  split
  · refine inv_of_changes inv ?_
    rw [List.map_set]
    exact set_of_getElem? (by rw [List.getElem?_map, found, Option.map_some])
  · exact inv

theorem OwnResult.mono {finished : List (String × ℤ)} {node : Node}
    (own : OwnResult finished node) (more : List (String × ℤ)) :
    OwnResult (finished ++ more) node where
  latency rtt shows := (own.latency rtt shows).imp_right (List.mem_append_left _)
  error shows :=
    let ⟨rtt, negative, there⟩ := own.error shows
    ⟨rtt, negative, List.mem_append_left _ there⟩

theorem inv_finishTest (inv : state.Inv) {test : Test} (found : state.tests[place]? = some test)
    (rtt : ℤ) : (state.finishTest place test rtt).Inv := by
  have changed : (state.finishTest place test rtt).changes =
      state.changes ++ [.result test rtt] := changes_launch state _
  have same (other : Test) : other ∈ (state.finishTest place test rtt).underTest ↔
      other ∈ state.underTest := by
    have here : [Change.result test rtt].filterMap Change.test = [test] := rfl
    have left : (state.finishTest place test rtt).tests = state.tests.eraseIdx place := rfl
    rw [underTest, changed, underTest, left, List.mem_append, List.mem_append,
      mem_iff_mem_eraseIdx found, List.filterMap_append, List.mem_append, here,
      List.mem_singleton]
    tauto
  refine { inv with
    uris := fun other under => inv.uris other ((same other).mp under)
    waiting := fun other entry there waits => ?_
    own := fun entry there => (inv.own entry there).mono _
    results := fun other latency there => ?_ }
  · obtain ⟨known, under, at_place⟩ := inv.waiting other entry there waits
    exact ⟨known, (same known).mpr under, at_place⟩
  · rw [changed, List.mem_append, List.mem_singleton] at there
    rcases there with before | now
    · exact List.mem_append_left _ (inv.results other latency before)
    · injection now with test_same rtt_same
      rw [test_same, rtt_same]
      exact List.mem_append_right _ (List.mem_singleton_self _)

end Moves

/-! ## A list is written -/

section Writing

variable {unreachable : String} {state : Testing} {place : ℕ} {task : Task}

/-- What is left to show where the list is written as it was read -/
theorem Inv.write (inv : state.Inv) (found : state.tasks[place]? = some task) (list : List Entry)
    (written : (task.change.copy unreachable state.nextKey state.nodes).getD state.nodes = list)
    (distinct : (list.map Entry.key).Nodup)
    (keys : ∀ entry ∈ list, entry.key < state.nextKey + 1)
    (uris : ∀ test, test ∈ state.underTest ∨ test ∈ task.change.begins state.nodes →
      ∀ entry ∈ list[test.index]?, entry.node.uri = test.uri)
    (waiting : ∀ index, ∀ entry ∈ list[index]?,
      entry.node.isTesting = true ∨
          entry.key ∈ state.started ++ task.change.starts state.nodes ∧ ¬Shows entry.node →
        ∃ test, (test ∈ task.change.begins state.nodes ∨
          test ∈ state.underTest ∧ task.change.test ≠ some test) ∧ test.index = index)
    (own : ∀ entry ∈ list, OwnResult state.finished entry.node)
    (edits : list.map Entry.ident =
      task.change.edit state.nextKey state.edited) :
    (state.writeTask unreachable place task.change state.nodes).Inv := by
  have here : state.changes[place]? = some task.change := by
    rw [changes, List.getElem?_map, found, Option.map_some]
  have changed : (state.writeTask unreachable place task.change state.nodes).changes =
      state.changes.eraseIdx place := (List.eraseIdx_map _ _ _).symm
  have under (test : Test) :
      test ∈ (state.writeTask unreachable place task.change state.nodes).underTest ↔
        (test ∈ state.tests ∨ test ∈ task.change.begins state.nodes) ∨
          ∃ change ∈ state.changes.eraseIdx place, change.test = some test := by
    rw [underTest, changed, List.mem_append, List.mem_filterMap]
    exact or_congr_left List.mem_append
  have before (test : Test) : test ∈ state.underTest ↔
      test ∈ state.tests ∨ ∃ change ∈ state.changes, change.test = some test := by
    rw [underTest, List.mem_append, List.mem_filterMap]
  have nodes : (state.writeTask unreachable place task.change state.nodes).nodes = list := written
  refine
    { distinct := by rw [nodes]; exact distinct
      keys := by rw [nodes]; exact keys
      started := fun key begun => ?_
      uris := fun test there => ?_
      waiting := fun index entry at_index waits => ?_
      own := by rw [nodes]; exact own
      results := fun test rtt there => ?_
      edits := by rw [nodes]; exact edits }
  · refine Nat.lt_succ_of_lt ?_
    rcases List.mem_append.mp begun with earlier | now
    · exact inv.started key earlier
    · cases same : task.change with
      | markAll locked =>
          rw [same] at now
          obtain ⟨entry, there, rfl⟩ := List.mem_map.mp now
          exact inv.keys entry there
      | _ =>
          rw [same] at now
          cases now
  · rw [nodes]
    refine uris test ?_
    rcases (under test).mp there with (old | new) | ⟨change, left, its_test⟩
    · exact .inl ((before test).mpr (.inl old))
    · exact .inr new
    · exact .inl ((before test).mpr (.inr ⟨change, List.mem_of_mem_eraseIdx left, its_test⟩))
  · rw [nodes] at at_index
    obtain ⟨test, new | ⟨old, other⟩, at_test⟩ := waiting index entry at_index waits
    · exact ⟨test, (under test).mpr (.inl (.inr new)), at_test⟩
    · refine ⟨test, (under test).mpr ?_, at_test⟩
      rcases (before test).mp old with connecting | ⟨change, there, its_test⟩
      · exact .inl (.inl connecting)
      · rcases (mem_iff_mem_eraseIdx here).mp there with rfl | left
        · exact absurd its_test other
        · exact .inr ⟨change, left, its_test⟩
  · rw [changed] at there
    exact inv.results test rtt (List.mem_of_mem_eraseIdx there)

theorem OwnResult.ofStored (finished : List (String × ℤ)) (node : NodeStore.Node) :
    OwnResult finished (.ofStored node) where
  latency := nofun
  error := nofun

theorem Inv.fresh (inv : state.Inv) : state.nextKey ∉ state.nodes.map Entry.key := by
  intro there
  obtain ⟨entry, there, same⟩ := List.mem_map.mp there
  exact absurd (inv.keys entry there) (by omega)

theorem Inv.fresh_started (inv : state.Inv) : state.nextKey ∉ state.started :=
  fun there => lt_irrefl _ (inv.started _ there)

theorem inv_add (inv : state.Inv) (found : state.tasks[place]? = some task)
    {node : NodeStore.Node} (change : task.change = .add node) (spared : state.Spared task.change) :
    (state.writeTask unreachable place task.change state.nodes).Inv := by
  rcases task with ⟨_, snapshot⟩
  dsimp only at change
  subst change
  refine inv.write found (state.nodes ++ [⟨state.nextKey, .ofStored node⟩]) rfl ?_ ?_ ?_ ?_ ?_ ?_
  · rw [List.map_append]
    exact inv.distinct.append (List.nodup_singleton _)
      (List.disjoint_singleton.mpr inv.fresh)
  · intro entry there
    rcases List.mem_append.mp there with old | new
    · exact Nat.lt_succ_of_lt (inv.keys entry old)
    · rw [List.mem_singleton.mp new]
      exact Nat.lt_succ_self _
  · rintro test (under | new) entry at_index
    · rcases getElem?_concat_cases at_index with old | ⟨last, rfl⟩
      · exact inv.uris test under entry old
      · exact (spared test under last).symm
    · cases new
  · intro index entry at_index waits
    rw [show Change.starts state.nodes (.add node) = [] from rfl, List.append_nil] at waits
    rcases getElem?_concat_cases at_index with old | ⟨-, rfl⟩
    · obtain ⟨test, under, at_test⟩ := inv.waiting index entry old waits
      exact ⟨test, .inr ⟨under, nofun⟩, at_test⟩
    · rcases waits with testing | ⟨begun, -⟩
      · cases testing
      · exact absurd begun inv.fresh_started
  · intro entry there
    rcases List.mem_append.mp there with old | new
    · exact inv.own entry old
    · rw [List.mem_singleton.mp new]
      exact .ofStored _ _
  · rw [List.map_append, inv.edits]
    rfl

theorem Inv.inIndices_edited (inv : state.Inv) {index : ℤ} :
    InIndices state.edited index ↔ InIndices state.nodes index := by
  rw [← inv.edits, inIndices_map]

theorem inv_unchanged (inv : state.Inv) (found : state.tasks[place]? = some task)
    (copy : task.change.copy unreachable state.nextKey state.nodes = none)
    (edit : task.change.edit state.nextKey state.edited = state.edited)
    (begins : task.change.begins state.nodes = []) (starts : task.change.starts state.nodes = [])
    (test : task.change.test = none) :
    (state.writeTask unreachable place task.change state.nodes).Inv := by
  refine inv.write found state.nodes (by rw [copy]; rfl) inv.distinct
    (fun entry there => Nat.lt_succ_of_lt (inv.keys entry there)) ?_ ?_ inv.own
    (inv.edits.trans edit.symm)
  · intro known under
    rw [begins] at under
    exact inv.uris known (under.resolve_right nofun)
  · intro index entry at_index waits
    rw [starts, List.append_nil] at waits
    obtain ⟨known, under, at_test⟩ := inv.waiting index entry at_index waits
    exact ⟨known, .inr ⟨under, by rw [test]; nofun⟩, at_test⟩

theorem inv_update (inv : state.Inv) (found : state.tasks[place]? = some task) {index : ℤ}
    {node : NodeStore.Node} (change : task.change = .update index node)
    (spared : state.Spared task.change) :
    (state.writeTask unreachable place task.change state.nodes).Inv := by
  rcases task with ⟨_, snapshot⟩
  dsimp only at change
  subst change
  by_cases inside : InIndices state.nodes index
  · refine inv.write found
      (state.nodes.set index.toNat ⟨state.nextKey, .ofStored node⟩) ?_ ?_ ?_ ?_ ?_ ?_ ?_
    · rw [Change.copy, if_pos inside]
      rfl
    · rw [List.map_set]
      exact inv.distinct.set inv.fresh
    · intro entry there
      rcases List.mem_or_eq_of_mem_set there with old | rfl
      · exact Nat.lt_succ_of_lt (inv.keys entry old)
      · exact Nat.lt_succ_self _
    · rintro test (under | new) entry at_index
      · rcases getElem?_set_cases at_index with ⟨same, rfl⟩ | ⟨-, old⟩
        · have low := inside.1
          exact (spared inside test under (by omega)).symm
        · exact inv.uris test under entry old
      · cases new
    · intro position entry at_index waits
      rw [show Change.starts state.nodes (.update index node) = [] from rfl, List.append_nil]
        at waits
      rcases getElem?_set_cases at_index with ⟨-, rfl⟩ | ⟨-, old⟩
      · rcases waits with testing | ⟨begun, -⟩
        · cases testing
        · exact absurd begun inv.fresh_started
      · obtain ⟨test, under, at_test⟩ := inv.waiting position entry old waits
        exact ⟨test, .inr ⟨under, nofun⟩, at_test⟩
    · intro entry there
      rcases List.mem_or_eq_of_mem_set there with old | rfl
      · exact inv.own entry old
      · exact .ofStored _ _
    · rw [Change.edit, if_pos (inv.inIndices_edited.mpr inside), List.map_set, inv.edits]
      rfl
  · refine inv_unchanged inv found ?_ ?_ rfl rfl rfl
    · rw [Change.copy, if_neg inside]
    · rw [Change.edit, if_neg (inside ∘ inv.inIndices_edited.mp)]

theorem inv_remove (inv : state.Inv) (found : state.tasks[place]? = some task) {index : ℤ}
    (change : task.change = .remove index) (spared : state.Spared task.change) :
    (state.writeTask unreachable place task.change state.nodes).Inv := by
  rcases task with ⟨_, snapshot⟩
  dsimp only at change
  subst change
  by_cases inside : InIndices state.nodes index
  · have kept := List.eraseIdx_sublist state.nodes index.toNat
    have low := inside.1
    -- where an entry moves up, no test waits behind it
    have ahead : ∀ position, index.toNat ≤ position →
        ∀ entry ∈ state.nodes[position + 1]?, ∀ test ∈ state.underTest,
          (test.index : ℤ) < index := by
      intro position behind entry at_position
      have there := (List.getElem?_eq_some_iff.mp at_position).1
      exact (spared inside).resolve_left (by omega)
    refine inv.write found (state.nodes.eraseIdx index.toNat) ?_ ?_ ?_ ?_ ?_ ?_ ?_
    · rw [Change.copy, if_pos inside]
      rfl
    · exact inv.distinct.sublist (kept.map Entry.key)
    · exact fun entry there => Nat.lt_succ_of_lt (inv.keys entry (kept.subset there))
    · rintro test (under | new) entry at_index
      · rcases getElem?_eraseIdx_cases at_index with ⟨-, old⟩ | ⟨behind, old⟩
        · exact inv.uris test under entry old
        · have before := ahead test.index behind entry old test under
          omega
      · cases new
    · intro position entry at_index waits
      rw [show Change.starts state.nodes (.remove index) = [] from rfl, List.append_nil] at waits
      rcases getElem?_eraseIdx_cases at_index with ⟨-, old⟩ | ⟨behind, old⟩
      · obtain ⟨test, under, at_test⟩ := inv.waiting position entry old waits
        exact ⟨test, .inr ⟨under, nofun⟩, at_test⟩
      · obtain ⟨test, under, at_test⟩ := inv.waiting (position + 1) entry old waits
        have before := ahead position behind entry old test under
        omega
    · exact fun entry there => inv.own entry (kept.subset there)
    · rw [Change.edit, if_pos (inv.inIndices_edited.mpr inside), ← inv.edits, List.eraseIdx_map]
  · refine inv_unchanged inv found ?_ ?_ rfl rfl rfl
    · rw [Change.copy, if_neg inside]
    · rw [Change.edit, if_neg (inside ∘ inv.inIndices_edited.mp)]

theorem OwnResult.markTesting {finished : List (String × ℤ)} {node : Node}
    (own : OwnResult finished node) : OwnResult finished node.markTesting where
  latency := own.latency
  error := nofun

theorem inv_markAll (inv : state.Inv) (found : state.tasks[place]? = some task) {locked : Bool}
    (change : task.change = .markAll locked) :
    (state.writeTask unreachable place task.change state.nodes).Inv := by
  rcases task with ⟨_, snapshot⟩
  dsimp only at change
  subst change
  refine inv.write found (state.nodes.map (Entry.map Node.markTesting)) ?_ ?_ ?_ ?_ ?_ ?_ ?_
  · rw [Change.copy]
    split
    · rename_i empty
      rw [empty]
      rfl
    · rfl
  · rw [List.map_map]
    exact inv.distinct
  · intro entry there
    obtain ⟨old, was, rfl⟩ := List.mem_map.mp there
    exact Nat.lt_succ_of_lt (inv.keys old was)
  · intro test under entry at_index
    rw [List.getElem?_map, Option.mem_def, Option.map_eq_some_iff] at at_index
    obtain ⟨old, was, rfl⟩ := at_index
    rcases under with before | new
    · exact inv.uris test before old was
    · obtain ⟨index, inside, rfl⟩ := List.mem_mapIdx.mp new
      rw [List.getElem?_eq_getElem inside, Option.some.injEq] at was
      rw [← was]
      rfl
  · intro index entry at_index _
    rw [List.getElem?_map, Option.mem_def, Option.map_eq_some_iff] at at_index
    obtain ⟨old, was, rfl⟩ := at_index
    refine ⟨⟨index, old.node.uri, locked⟩, .inl ?_, rfl⟩
    obtain ⟨inside, rfl⟩ := List.getElem?_eq_some_iff.mp was
    exact List.mem_mapIdx.mpr ⟨index, inside, rfl⟩
  · intro entry there
    obtain ⟨old, was, rfl⟩ := List.mem_map.mp there
    exact (inv.own old was).markTesting
  · rw [List.map_map]
    exact inv.edits

/-- A test changes what is shown of one entry, and nothing else of the list. -/
theorem Inv.write_modify (inv : state.Inv) (found : state.tasks[place]? = some task)
    (shows : Node → Node) (test : Test) (its_test : task.change.test = some test)
    (copy : task.change.copy unreachable state.nextKey state.nodes =
      if test.index < state.nodes.length then
        some (state.nodes.modify test.index (Entry.map shows))
      else none)
    (edit : task.change.edit state.nextKey state.edited = state.edited)
    (begins : ∀ other ∈ task.change.begins state.nodes, other = test)
    (starts : task.change.starts state.nodes = [])
    (stored : ∀ node, (shows node).stored = node.stored)
    (own : ∀ node, node.uri = test.uri → OwnResult state.finished node →
      OwnResult state.finished (shows node))
    (settles : test ∈ task.change.begins state.nodes ∨
      ∀ node, (shows node).isTesting = false ∧ Shows (shows node)) :
    (state.writeTask unreachable place task.change state.nodes).Inv := by
  have under : test ∈ state.underTest := by
    refine List.mem_append_right _ (List.mem_filterMap.mpr ⟨task.change, ?_, its_test⟩)
    exact List.mem_map_of_mem (List.mem_of_getElem? found)
  have uri (node : Node) : (shows node).uri = node.uri := congrArg NodeStore.Node.uri (stored node)
  have same_keys : (state.nodes.modify test.index (Entry.map shows)).map Entry.key =
      state.nodes.map Entry.key := map_modify _ _ fun _ => rfl
  have same_idents : (state.nodes.modify test.index (Entry.map shows)).map Entry.ident =
      state.nodes.map Entry.ident :=
    map_modify _ _ fun entry => congrArg (Prod.mk entry.key) (stored entry.node)
  refine inv.write found (state.nodes.modify test.index (Entry.map shows)) ?_ ?_ ?_ ?_ ?_
    ?_ ?_
  · rw [copy]
    split
    · rfl
    · rename_i outside
      exact (List.modify_eq_self (Nat.le_of_not_lt outside)).symm
  · rw [same_keys]
    exact inv.distinct
  · intro entry there
    have key : entry.key ∈ state.nodes.map Entry.key := by
      rw [← same_keys]
      exact List.mem_map_of_mem there
    obtain ⟨old, was, same⟩ := List.mem_map.mp key
    exact same ▸ Nat.lt_succ_of_lt (inv.keys old was)
  · intro other known entry at_index
    have before : other ∈ state.underTest := known.elim id fun new => begins other new ▸ under
    rcases exists_of_getElem?_modify at_index with ⟨-, old, was, rfl⟩ | ⟨-, was⟩
    · exact (uri old.node).trans (inv.uris other before old was)
    · exact inv.uris other before entry was
  · intro index entry at_index waits
    rw [starts, List.append_nil] at waits
    rcases exists_of_getElem?_modify at_index with ⟨rfl, old, -, rfl⟩ | ⟨other_index, was⟩
    · rcases settles with begun | settled
      · exact ⟨test, .inl begun, rfl⟩
      · obtain ⟨unmarked, shown⟩ := settled old.node
        rcases waits with testing | ⟨-, hidden⟩
        · exact absurd (unmarked.symm.trans testing) Bool.false_ne_true
        · exact absurd shown hidden
    · obtain ⟨known, before, at_known⟩ := inv.waiting index entry was waits
      refine ⟨known, .inr ⟨before, ?_⟩, at_known⟩
      rw [its_test]
      rintro same
      exact other_index (Option.some.inj same ▸ at_known.symm)
  · intro entry there
    obtain ⟨index, at_index⟩ := List.mem_iff_getElem?.mp there
    rcases exists_of_getElem?_modify at_index with ⟨rfl, old, was, rfl⟩ | ⟨-, was⟩
    · exact own old.node (inv.uris test under old was) (inv.own old (List.mem_of_getElem? was))
    · exact inv.own entry (List.mem_of_getElem? was)
  · rw [edit, same_idents]
    exact inv.edits

theorem OwnResult.updateLatency {finished : List (String × ℤ)} {node : Node} {rtt : ℤ}
    (result : (node.uri, rtt) ∈ finished) :
    OwnResult finished (node.updateLatency unreachable rtt) where
  latency latency shows := by
    simp only [Node.updateLatency, Option.mem_def, Option.ite_none_right_eq_some,
      Option.some.injEq] at shows
    obtain ⟨reached, rfl⟩ := shows
    exact ⟨reached, result⟩
  error shows := by
    simp only [Node.updateLatency] at shows
    split at shows
    · rename_i failed
      exact ⟨rtt, failed, result⟩
    · cases shows

theorem shows_updateLatency (node : Node) (rtt : ℤ) :
    Shows (node.updateLatency unreachable rtt) := by
  simp only [Shows, Node.updateLatency]
  by_cases reached : 0 ≤ rtt
  · exact .inl (by rw [if_pos reached]; rfl)
  · exact .inr (by rw [if_pos (by omega : rtt < 0)]; rfl)

/-- A list which is written as it was read, by an edit which spares the tests -/
theorem inv_write (inv : state.Inv) (found : state.tasks[place]? = some task)
    (spared : state.Spared task.change) :
    (state.writeTask unreachable place task.change state.nodes).Inv := by
  cases change : task.change with
  | add node => exact change ▸ inv_add inv found change spared
  | update index node => exact change ▸ inv_update inv found change spared
  | remove index => exact change ▸ inv_remove inv found change spared
  | markAll locked => exact change ▸ inv_markAll inv found change
  | mark test =>
      rw [← change]
      refine inv.write_modify found Node.updateTesting test ?_ ?_ ?_ ?_ ?_
        (fun _ => rfl) (fun node _ own => ⟨own.latency, own.error⟩) (.inl ?_)
      all_goals rw [change]
      · rfl
      · rfl
      · rfl
      · exact fun other begun => List.mem_singleton.mp begun
      · rfl
      · exact List.mem_singleton_self test
  | result test rtt =>
      have known : (test.uri, rtt) ∈ state.finished := by
        refine inv.results test rtt (change ▸ ?_)
        exact List.mem_map_of_mem (List.mem_of_getElem? found)
      rw [← change]
      refine inv.write_modify found (Node.updateLatency unreachable rtt) test ?_ ?_ ?_ ?_ ?_
        (fun _ => rfl) (fun node same _ => .updateLatency (same ▸ known))
        (.inr fun node => ⟨rfl, shows_updateLatency node rtt⟩)
      all_goals rw [change]
      · rfl
      · rfl
      · rfl
      · nofun
      · rfl

end Writing

/-! ## All runs -/

section Runs

variable {unreachable : String}

theorem inv_initial (stored : List NodeStore.Node) : (initial stored).Inv where
  distinct := by
    have keys : (initial stored).nodes.map Entry.key = List.range stored.length := by
      apply List.ext_getElem
      · simp [initial]
      · intro place _ _
        simp [initial]
    rw [keys]
    exact List.nodup_range
  keys entry there := by
    obtain ⟨place, inside, rfl⟩ := List.mem_mapIdx.mp there
    exact inside
  started := nofun
  uris := nofun
  waiting place entry found waits := by
    obtain ⟨index, inside, rfl⟩ := List.mem_mapIdx.mp (List.mem_of_getElem? found)
    rcases waits with testing | ⟨begun, -⟩
    · cases testing
    · cases begun
  own entry there := by
    obtain ⟨place, inside, rfl⟩ := List.mem_mapIdx.mp there
    exact .ofStored _ _
  results := nofun
  edits := rfl

theorem inv_step {state : Testing} (inv : state.Inv) {event : TestingEvent}
    (undisturbed : state.Undisturbed event) : (state.step unreachable event).Inv := by
  cases event with
  | addNode node => exact inv_launch inv nofun nofun
  | updateNode index node => exact inv_launch inv nofun nofun
  | removeNode index => exact inv_launch inv nofun nofun
  | testNode index => exact inv_testNode inv index
  | testAllNodes => exact inv_launch inv nofun nofun
  | testAllNodesDetailed => exact inv_launch inv nofun nofun
  | read place =>
      rw [step]
      cases found : state.tasks[place]? with
      | none => exact inv
      | some task => exact inv_readTask inv found
  | write place =>
      rw [step]
      cases found : state.tasks[place]? with
      | none => exact inv
      | some task =>
          rw [Option.elim_some]
          cases read : task.snapshot with
          | none => exact inv
          | some list =>
              obtain ⟨rfl, spared⟩ := undisturbed task found list read
              exact inv_write inv found spared
  | finish place rtt =>
      rw [step]
      cases found : state.tests[place]? with
      | none => exact inv
      | some test => exact inv_finishTest inv found rtt

/-- In a run in which nothing is disturbed, the results are right whenever all is done. -/
theorem results_right_of_undisturbed (unreachable : String) (stored : List NodeStore.Node)
    (events : List TestingEvent)
    (undisturbed : Along (step unreachable) Undisturbed (initial stored) events) :
    Throughout (step unreachable) (fun state => state.Quiet → state.Sound) (initial stored)
      events :=
  throughout_of_along Inv (fun inv => inv.sound) (fun inv met => inv_step inv met) undisturbed
    (inv_initial stored)

/-- Two nodes under test while a third one is added, and the last one is taken away again. -/
theorem results_right_of_edits :
    Throughout (step "unreachable") (fun state => state.Quiet → state.Sound)
      (initial [⟨"mirage://a", "a"⟩, ⟨"mirage://b", "b"⟩])
      [.testAllNodes, .read 0, .write 0, .addNode ⟨"mirage://c", "c"⟩, .read 0, .write 0,
        .finish 1 20, .removeNode 2, .read 1, .write 1, .finish 0 (-1), .read 0, .write 0, .read 0,
        .write 0] :=
  results_right_of_undisturbed "unreachable" _ _ (by decide +kernel)

/--
Two tests of all nodes end at the same time: one result is lost, and its node
stays marked.  And a node which is taken away during its test, under the mutex,
leaves its result to the next one.
-/
theorem not_results_right :
    let first : NodeStore.Node := ⟨"mirage://a", "a"⟩
    let second : NodeStore.Node := ⟨"mirage://b", "b"⟩
    let lost := run (step "unreachable") (initial [first, second])
      [.testAllNodes, .read 0, .write 0, .finish 0 10, .finish 0 20, .read 0, .read 1, .write 0,
        .write 0]
    let moved := run (step "unreachable") (initial [first, second])
      [.testAllNodesDetailed, .read 0, .write 0, .removeNode 0, .read 0, .write 0, .finish 0 10,
        .finish 0 20, .read 0, .write 0, .read 0, .write 0]
    (lost.Quiet ∧ ¬lost.Sound) ∧ moved.Quiet ∧ ¬moved.Sound := by
  intro first second lost moved
  have marked : lost.nodes = [⟨0, ⟨"mirage://a", "a", none, true, none⟩⟩,
      ⟨1, ⟨"mirage://b", "b", some 20, false, none⟩⟩] := by decide +kernel
  have shown : moved.nodes = [⟨1, ⟨"mirage://b", "b", some 10, false, none⟩⟩] := by decide +kernel
  have results : moved.finished = [("mirage://a", 10), ("mirage://b", 20)] := by decide +kernel
  refine ⟨⟨by decide +kernel, fun sound => ?_⟩, by decide +kernel, fun sound => ?_⟩
  · have unmarked := sound.unmarked
    rw [marked] at unmarked
    exact absurd (unmarked _ List.mem_cons_self) (by decide)
  · have own := sound.own
    rw [shown, results] at own
    exact absurd ((own _ List.mem_cons_self).latency 10 rfl).2 (by decide)

/-! ### Under the mutex alone -/

/-- Tests end, and their results are written. -/
def OnlyResults : TestingEvent → Prop
  | .read _ | .write _ | .finish _ _ => True
  | .addNode _ | .updateNode _ _ | .removeNode _ | .testNode _ | .testAllNodes
  | .testAllNodesDetailed => False

/-- Every coroutine writes a result under the mutex, and the one which holds it is up to date. -/
structure Exclusive (state : Testing) : Prop where
  tests : ∀ test ∈ state.tests, test.locked = true
  locked : ∀ task ∈ state.tasks, task.change.locked = true
  alone : ∀ (place other : ℕ) (first second : Task), state.tasks[place]? = some first →
    state.tasks[other]? = some second → first.snapshot.isSome → second.snapshot.isSome →
      place = other
  current : ∀ task ∈ state.tasks, ∀ list ∈ task.snapshot, list = state.nodes

theorem begins_of_locked {change : Change} (locked : change.locked = true) (list : List Entry) :
    change.begins list = [] := by
  cases change with
  | result test rtt => rfl
  | _ => cases locked

theorem Exclusive.undisturbed {state : Testing} (exclusive : state.Exclusive)
    {event : TestingEvent} (only : OnlyResults event) : state.Undisturbed event := by
  cases event with
  | write place =>
      intro task found list read
      have there := List.mem_of_getElem? found
      refine ⟨exclusive.current task there list read, ?_⟩
      have locked := exclusive.locked task there
      cases same : task.change with
      | result test rtt => trivial
      | _ =>
          rw [same] at locked
          cases locked
  | _ => trivial

theorem Exclusive.readTask {state : Testing} (exclusive : state.Exclusive) {place : ℕ}
    {task : Task} (found : state.tasks[place]? = some task) :
    (state.readTask place task).Exclusive := by
  unfold Testing.readTask
  split
  · rename_i enabled
    have locked := exclusive.locked task (List.mem_of_getElem? found)
    rw [locked, Bool.true_and, Bool.and_eq_true, Bool.not_eq_true'] at enabled
    have unread : ∀ other ∈ state.tasks, ¬other.snapshot.isSome := by
      intro other there read
      have held := List.any_eq_false.mp enabled.2 other there
      rw [exclusive.locked other there, read] at held
      exact held rfl
    constructor
    · exact exclusive.tests
    · intro other there
      obtain ⟨index, at_index⟩ := List.mem_iff_getElem?.mp there
      rcases getElem?_set_cases at_index with ⟨-, rfl⟩ | ⟨-, old⟩
      · exact locked
      · exact exclusive.locked other (List.mem_of_getElem? old)
    · intro index other first second at_index at_other read also_read
      rcases getElem?_set_cases at_index with ⟨here, -⟩ | ⟨-, old⟩
      · rcases getElem?_set_cases at_other with ⟨there, -⟩ | ⟨-, old⟩
        · exact here.symm.trans there
        · exact absurd also_read (unread second (List.mem_of_getElem? old))
      · exact absurd read (unread first (List.mem_of_getElem? old))
    · intro other there list read
      obtain ⟨index, at_index⟩ := List.mem_iff_getElem?.mp there
      rcases getElem?_set_cases at_index with ⟨-, rfl⟩ | ⟨-, old⟩
      · exact (Option.some.inj read).symm
      · exact absurd (Option.isSome_of_mem read) (unread other (List.mem_of_getElem? old))
  · exact exclusive

theorem Exclusive.writeTask {state : Testing} (exclusive : state.Exclusive) {place : ℕ}
    {task : Task} (found : state.tasks[place]? = some task) (read : task.snapshot.isSome)
    (list : List Entry) : (state.writeTask unreachable place task.change list).Exclusive := by
  have unread : ∀ other ∈ state.tasks.eraseIdx place, ¬other.snapshot.isSome := by
    intro other there also_read
    obtain ⟨index, elsewhere, at_index⟩ := List.mem_eraseIdx_iff_getElem?.mp there
    exact elsewhere (exclusive.alone index place other task at_index found also_read read)
  constructor
  · intro test there
    rw [Testing.writeTask, begins_of_locked (exclusive.locked task (List.mem_of_getElem? found)),
      List.append_nil] at there
    exact exclusive.tests test there
  · exact fun other there => exclusive.locked other (List.mem_of_mem_eraseIdx there)
  · intro index other first second at_index _ also_read _
    exact absurd also_read (unread first (List.mem_of_getElem? at_index))
  · intro other there list also_read
    exact absurd (Option.isSome_of_mem also_read) (unread other there)

theorem Exclusive.finishTest {state : Testing} (exclusive : state.Exclusive) {place : ℕ}
    {test : Test} (found : state.tests[place]? = some test) (rtt : ℤ) :
    (state.finishTest place test rtt).Exclusive := by
  have unread : ∀ (index : ℕ) (task : Task),
      (state.finishTest place test rtt).tasks[index]? = some task →
        task.snapshot.isSome → state.tasks[index]? = some task := by
    intro index task at_index read
    rcases getElem?_concat_cases at_index with old | ⟨-, rfl⟩
    · exact old
    · cases read
  constructor
  · exact fun other there => exclusive.tests other (List.mem_of_mem_eraseIdx there)
  · intro other there
    rcases List.mem_append.mp there with old | new
    · exact exclusive.locked other old
    · rw [List.mem_singleton.mp new]
      exact exclusive.tests test (List.mem_of_getElem? found)
  · intro index other first second at_index at_other read also_read
    exact exclusive.alone index other first second (unread index first at_index read)
      (unread other second at_other also_read) read also_read
  · intro other there list read
    obtain ⟨index, at_index⟩ := List.mem_iff_getElem?.mp there
    have old := unread index other at_index (Option.isSome_of_mem read)
    exact exclusive.current other (List.mem_of_getElem? old) list read

theorem Exclusive.step {state : Testing} (exclusive : state.Exclusive) {event : TestingEvent}
    (only : OnlyResults event) : (state.step unreachable event).Exclusive := by
  cases event with
  | read place =>
      rw [Testing.step]
      cases found : state.tasks[place]? with
      | none => exact exclusive
      | some task => exact exclusive.readTask found
  | write place =>
      rw [Testing.step]
      cases found : state.tasks[place]? with
      | none => exact exclusive
      | some task =>
          rw [Option.elim_some]
          cases read : task.snapshot with
          | none => exact exclusive
          | some list => exact exclusive.writeTask found (by rw [read]; rfl) list
  | finish place rtt =>
      rw [Testing.step]
      cases found : state.tests[place]? with
      | none => exact exclusive
      | some test => exact exclusive.finishTest found rtt
  | _ => cases only

theorem exclusive_of_no_tasks {state : Testing} (tests : ∀ test ∈ state.tests, test.locked = true)
    (no_tasks : state.tasks = []) : state.Exclusive := by
  constructor
  case tests => exact tests
  all_goals rw [no_tasks]
  case locked => exact fun task there => absurd there List.not_mem_nil
  case current => exact fun task there => absurd there List.not_mem_nil
  case alone =>
    intro place other first second found
    cases found

/-- The mutex is enough where nothing but the results of such tests changes the list. -/
theorem undisturbed_of_locked (unreachable : String) (stored : List NodeStore.Node)
    (events : List TestingEvent) (only : ∀ event ∈ events, OnlyResults event) :
    Along (Testing.step unreachable) Undisturbed (initial stored)
      ([.testAllNodesDetailed, .read 0, .write 0] ++ events) := by
  refine Along.append.mpr ⟨⟨trivial, trivial, ?_, trivial⟩, ?_⟩
  · intro task found list read
    obtain rfl : _ = task := Option.some.inj found
    obtain rfl : _ = list := Option.some.inj read
    exact ⟨rfl, trivial⟩
  · refine Along.of_invariant Exclusive (fun exclusive met => exclusive.undisturbed met)
      (fun exclusive met => exclusive.step met) (along_iff_forall_mem.mpr only) ?_
    refine exclusive_of_no_tasks (fun test there => ?_) rfl
    obtain ⟨place, inside, rfl⟩ := List.mem_mapIdx.mp there
    rfl

end Runs

end Testing

end Mirage.Shell.NodeLists
