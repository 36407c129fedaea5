import Mathlib.Data.List.InsertIdx
import Mirage.Foundations.Run
import Mirage.Shell.NodeLink
import Mirage.Shell.NodeStore

/-!
# Two stores of the nodes

The nodes and the index of the selected one are kept in the preferences, where
`NodeStore` reads them each time, and in the memory of `NodeRepository`, which
writes them to the preferences too and reads them again when it is told to.
Each of the two can change the list: the repository does not learn what
`NodeStore` has changed, and writes its own list over it.
-/

namespace Mirage.Shell

open Mirage.Foundations
open NodeStore (NodePrefs)

namespace NodeLists

/-- `data.model.Node`: a node, and what is shown of its tests -/
structure Node where
  uri : String
  name : String
  latencyMs : Option ℤ
  isTesting : Bool
  testError : Option String
  deriving DecidableEq, Repr

/-- A node as it is read from the preferences -/
def Node.ofStored (node : NodeStore.Node) : Node :=
  ⟨node.uri, node.name, none, false, none⟩

/-- What the preferences keep of a node -/
def Node.stored (node : Node) : NodeStore.Node :=
  ⟨node.uri, node.name⟩

structure NodeRepository where
  nodes : List Node
  selectedIndex : ℤ
  testMethod : String
  isAutoSelect : Bool
  poolSize : ℤ
  deriving DecidableEq, Repr

end NodeLists

/-- `autoSelect` is a further value of the same preferences. -/
structure NodeLists where
  prefs : NodePrefs
  autoSelect : Option Bool
  repository : NodeLists.NodeRepository
  deriving DecidableEq, Repr

namespace NodeLists

section Loading

variable (data : CharacterData)

/-- A test node of an old version, which is removed when the list is loaded -/
def isLeaked (node : Node) : Bool :=
  "Speedtest-HK".toList.isPrefixOf node.name.toList &&
    Node.sni data (units node.uri) == units "speedtest.net"

def saveNodes (prefs : NodePrefs) (list : List Node) : NodePrefs :=
  NodeStore.saveNodes prefs (list.map Node.stored)

/-- The list as it is stored, and what is left of it -/
def loadedNodes (prefs : NodePrefs) : List Node :=
  (NodeStore.getNodes prefs).map Node.ofStored

def finalNodes (prefs : NodePrefs) : List Node :=
  (loadedNodes prefs).filter fun node => !isLeaked data node

/-- The index is looked up in the list which is left. -/
def targetIdx (list : List Node) (savedIdx : ℤ) : ℤ :=
  if list = [] then -1 else if InIndices list savedIdx then savedIdx else 0

def loadData (prefs : NodePrefs) (autoSelect : Option Bool) : NodeLists :=
  let final := finalNodes data prefs
  let hadLeakedNode := final.length ≠ (loadedNodes prefs).length
  let target := targetIdx final (prefs.selectedIndex.getD 0)
  let pool := prefs.poolSize.getD 16
  let written := NodeStore.setPoolSize (NodeStore.setSelected prefs target) pool
  { prefs := if hadLeakedNode then saveNodes written final else written
    autoSelect
    repository :=
      { nodes := final
        selectedIndex := target
        testMethod := prefs.testMethod.getD "tcp"
        isAutoSelect := autoSelect.getD false
        poolSize := pool } }

end Loading

section Operations

variable (lists : NodeLists)

/-- The repository takes on a list, and stores it. -/
def publish (list : List Node) : NodeLists :=
  { lists with
    prefs := saveNodes lists.prefs list
    repository := { lists.repository with nodes := list } }

/-- An index which is neither `-1` nor one of the list is ignored. -/
def setSelected (index : ℤ) : NodeLists :=
  if InIndices lists.repository.nodes index ∨ index = -1 then
    { lists with
      prefs := NodeStore.setSelected lists.prefs index
      repository := { lists.repository with selectedIndex := index } }
  else lists

def addNode (node : Node) : NodeLists :=
  let added := lists.publish (lists.repository.nodes ++ [node])
  if lists.repository.selectedIndex = -1 then added.setSelected lists.repository.nodes.length
  else added

def updateNode (index : ℤ) (node : Node) : NodeLists :=
  if InIndices lists.repository.nodes index then
    lists.publish (lists.repository.nodes.set index.toNat node)
  else lists

/-- The index of the selected node is moved only where it is past the end of the list. -/
def removeNode (index : ℤ) : NodeLists :=
  if InIndices lists.repository.nodes index then
    let rest := lists.repository.nodes.eraseIdx index.toNat
    let sel := lists.repository.selectedIndex
    if rest = [] then (lists.publish rest).setSelected (-1)
    else if rest.length ≤ sel then (lists.publish rest).setSelected (rest.length - 1)
    else lists.publish rest
  else lists

end Operations

/-- An operation of `NodeStore` or of the repository -/
inductive NodeOp where
  | storeAdd (node : NodeStore.Node)
  | storeUpdate (index : ℤ) (node : NodeStore.Node)
  | storeRemove (index : ℤ)
  | storeSelect (index : ℤ)
  | add (node : Node)
  | update (index : ℤ) (node : Node)
  | remove (index : ℤ)
  | select (index : ℤ)
  | reload
  deriving DecidableEq, Repr

def step (data : CharacterData) (lists : NodeLists) : NodeOp → NodeLists
  | .storeAdd node => { lists with prefs := NodeStore.addNode lists.prefs node }
  | .storeUpdate index node => { lists with prefs := NodeStore.updateNode lists.prefs index node }
  | .storeRemove index => { lists with prefs := NodeStore.removeNode lists.prefs index }
  | .storeSelect index => { lists with prefs := NodeStore.setSelected lists.prefs index }
  | .add node => lists.addNode node
  | .update index node => lists.updateNode index node
  | .remove index => lists.removeNode index
  | .select index => lists.setSelected index
  | .reload => loadData data lists.prefs lists.autoSelect

/-! ## What is selected -/

/-- What the preferences say is selected, by the URIs -/
def storeView (lists : NodeLists) : Selection String :=
  ⟨(NodeStore.getNodes lists.prefs).map NodeStore.Node.uri, NodeStore.getSelected lists.prefs⟩

def repositoryView (lists : NodeLists) : Selection String :=
  ⟨lists.repository.nodes.map Node.uri, lists.repository.selectedIndex⟩

structure Legal (lists : NodeLists) : Prop where
  store : lists.storeView.Legal
  repository : lists.repositoryView.Legal

/-- The selection which an operation finds; to load means to take on that of the preferences. -/
def NodeOp.before (op : NodeOp) (lists : NodeLists) : Selection String :=
  match op with
  | .storeAdd _ | .storeUpdate _ _ | .storeRemove _ | .storeSelect _ | .reload => lists.storeView
  | .add _ | .update _ _ | .remove _ | .select _ => lists.repositoryView

/-- The selection which an operation leaves -/
def NodeOp.after (op : NodeOp) (lists : NodeLists) : Selection String :=
  match op with
  | .storeAdd _ | .storeUpdate _ _ | .storeRemove _ | .storeSelect _ => lists.storeView
  | .add _ | .update _ _ | .remove _ | .select _ | .reload => lists.repositoryView

section Following

variable (data : CharacterData) (lists : NodeLists)

/-- The node which is selected in the preferences -/
def storedSelection : Option Node :=
  (NodeStore.getSelectedNode lists.prefs).map Node.ofStored

/-- The operation selects nothing, and leaves the node which is selected in the list. -/
def Spares : NodeOp → Prop
  | .storeAdd _ | .add _ => True
  | .storeUpdate index _ | .storeRemove index => index ≠ NodeStore.getSelected lists.prefs
  | .update index _ | .remove index => index ≠ lists.repository.selectedIndex
  | .storeSelect _ | .select _ => False
  | .reload => ∀ node ∈ lists.storedSelection, isLeaked data node = false

/--
The selection follows the node: it stays with a node which an operation spares,
and is none or a node of the list in any case.
-/
structure Follows (op : NodeOp) : Prop where
  legal : (lists.step data op).Legal
  kept : (op.before lists).selected.isSome → lists.Spares data op →
    (op.after (lists.step data op)).selected = (op.before lists).selected

/--
The condition on an operation.  A node is taken away only behind the selected one,
or where the selected one is the last of the list; a list is not written over one
which has its selected node further behind; and nothing which was leaked stands in
front of the selected node when the list is loaded.  Equal URIs are no different.
-/
def Keeps : NodeOp → Prop
  | .storeAdd _ | .storeUpdate _ _ => True
  | .storeRemove index =>
      let list := NodeStore.getNodes lists.prefs
      let sel := NodeStore.getSelected lists.prefs
      InIndices list index →
        (index = sel ∨ lists.storeView.Unmoved index.toNat) ∧ (list.length = 1 → sel = -1)
  | .storeSelect index => index = -1 ∨ InIndices (NodeStore.getNodes lists.prefs) index
  | .add _ =>
      lists.repository.selectedIndex = -1 ∨
        NodeStore.getSelected lists.prefs < lists.repository.nodes.length + 1
  | .update index _ =>
      InIndices lists.repository.nodes index →
        NodeStore.getSelected lists.prefs < lists.repository.nodes.length
  | .remove index =>
      let size := lists.repository.nodes.length
      let sel := lists.repository.selectedIndex
      InIndices lists.repository.nodes index →
        (index = sel ∨ lists.repositoryView.Unmoved index.toNat) ∧
          (size ≤ 1 ∨ size ≤ sel + 1 ∨ NodeStore.getSelected lists.prefs + 1 < size)
  | .select index =>
      InIndices lists.repository.nodes index → index < (NodeStore.getNodes lists.prefs).length
  | .reload =>
      let final := finalNodes data lists.prefs
      let sel := NodeStore.getSelected lists.prefs
      ∀ node ∈ lists.storedSelection, isLeaked data node = false →
        final[sel.toNat]?.map Node.uri = some node.uri ∨
          final.length ≤ sel ∧ final.head?.map Node.uri = some node.uri

end Following

section Views

variable {data : CharacterData} {lists : NodeLists} {index : ℤ}

theorem getNodes_saveNodes (prefs : NodePrefs) (list : List Node) :
    (NodeStore.getNodes (saveNodes prefs list)).map NodeStore.Node.uri = list.map Node.uri := by
  rw [saveNodes, NodeStore.getNodes_saveNodes, List.map_map]
  rfl

theorem storeView_publish (lists : NodeLists) (list : List Node) :
    (lists.publish list).storeView = ⟨list.map Node.uri, NodeStore.getSelected lists.prefs⟩ :=
  congrArg (Selection.mk · _) (getNodes_saveNodes _ _)

theorem repositoryView_publish (lists : NodeLists) (list : List Node) :
    (lists.publish list).repositoryView =
      ⟨list.map Node.uri, lists.repository.selectedIndex⟩ :=
  rfl

theorem nodes_setSelected (lists : NodeLists) (index : ℤ) :
    (lists.setSelected index).repository.nodes = lists.repository.nodes := by
  unfold setSelected
  split <;> rfl

theorem setSelected_views (lists : NodeLists)
    (known : InIndices lists.repository.nodes index ∨ index = -1) :
    (lists.setSelected index).storeView = ⟨lists.storeView.entries, index⟩ ∧
      (lists.setSelected index).repositoryView = ⟨lists.repositoryView.entries, index⟩ := by
  rw [setSelected, if_pos known]
  exact ⟨rfl, rfl⟩

section Removal

variable (legal : lists.repositoryView.Legal) (inside : InIndices lists.repository.nodes index)

include inside

theorem length_rest : ((lists.repository.nodes.eraseIdx index.toNat).length : ℤ) =
    lists.repository.nodes.length - 1 := by
  obtain ⟨low, high⟩ := inside
  rw [List.length_eraseIdx_of_lt (by omega)]
  omega

theorem erase_repositoryView : lists.repositoryView.erase index.toNat =
    ⟨(lists.repository.nodes.eraseIdx index.toNat).map Node.uri,
      if lists.repository.nodes.length ≤ lists.repository.selectedIndex + 1 then
        (lists.repository.nodes.length : ℤ) - 1 - 1
      else lists.repository.selectedIndex⟩ := by
  simp only [Selection.erase, repositoryView, List.eraseIdx_map, List.length_map,
    length_rest inside, sub_le_iff_le_add]

include legal in
/-- The index is moved, and stored, in the way in which `erase` moves it. -/
theorem removeNode_eq : lists.removeNode index =
    if lists.repository.nodes.length ≤ 1 ∨
        lists.repository.nodes.length ≤ lists.repository.selectedIndex + 1 then
      (lists.publish (lists.repository.nodes.eraseIdx index.toNat)).setSelected
        (lists.repositoryView.erase index.toNat).index
    else lists.publish (lists.repository.nodes.eraseIdx index.toNat) := by
  have length := length_rest inside
  have low : -1 ≤ lists.repository.selectedIndex := legal.low
  rw [removeNode, if_pos inside, erase_repositoryView inside]
  dsimp only
  by_cases none_left : lists.repository.nodes.eraseIdx index.toNat = []
  · rw [none_left, List.length_nil] at length
    have cleared : (if (lists.repository.nodes.length : ℤ) ≤ lists.repository.selectedIndex + 1
        then (lists.repository.nodes.length : ℤ) - 1 - 1
        else lists.repository.selectedIndex) = -1 := by
      split <;> omega
    rw [if_pos none_left, if_pos (.inl (by omega)), cleared]
  · have some_left := List.length_pos_iff.mpr none_left
    rw [if_neg none_left, length]
    by_cases past : (lists.repository.nodes.length : ℤ) ≤ lists.repository.selectedIndex + 1
    · rw [if_pos (by omega), if_pos (.inr past), if_pos past]
    · rw [if_neg (by omega), if_neg (by omega)]

include legal in
theorem repositoryView_removeNode :
    (lists.removeNode index).repositoryView = lists.repositoryView.erase index.toNat := by
  have erased := erase_repositoryView inside
  have known := Selection.legal_erase legal index.toNat
  rw [removeNode_eq legal inside]
  split
  · rw [erased] at known ⊢
    exact (setSelected_views _ (known.symm.imp_left (inIndices_map Node.uri).mp)).2
  · rename_i moved
    rw [erased, repositoryView_publish, if_neg fun past => moved (.inr past)]

include legal in
/-- The index of the preferences stays where that of the repository does. -/
theorem storeView_removeNode : (lists.removeNode index).storeView =
    ⟨(lists.repositoryView.erase index.toNat).entries,
      if lists.repository.nodes.length ≤ 1 ∨
          lists.repository.nodes.length ≤ lists.repository.selectedIndex + 1 then
        (lists.repositoryView.erase index.toNat).index
      else NodeStore.getSelected lists.prefs⟩ := by
  have erased := erase_repositoryView inside
  have known := Selection.legal_erase legal index.toNat
  rw [removeNode_eq legal inside]
  split
  · rw [erased] at known ⊢
    rw [(setSelected_views _ (known.symm.imp_left (inIndices_map Node.uri).mp)).1,
      storeView_publish]
  · rw [erased, storeView_publish]

end Removal

theorem storeView_addNode (node : NodeStore.Node) : (lists.step data (.storeAdd node)).storeView =
    ⟨lists.storeView.entries ++ [node.uri], lists.storeView.index⟩ := by
  simp only [step, storeView, NodeStore.getNodes_addNode, List.map_append, List.map_singleton]
  rfl

theorem storeView_updateNode (node : NodeStore.Node)
    (inside : InIndices (NodeStore.getNodes lists.prefs) index) :
    (lists.step data (.storeUpdate index node)).storeView =
      ⟨lists.storeView.entries.set index.toNat node.uri, lists.storeView.index⟩ := by
  simp only [step, storeView, NodeStore.updateNode, if_pos inside, NodeStore.getNodes_saveNodes,
    List.map_set]
  rfl

/-- Where the last node is taken away while it is selected, the index is left at 0. -/
theorem storeView_storeRemove (data : CharacterData) (legal : lists.storeView.Legal)
    (inside : InIndices (NodeStore.getNodes lists.prefs) index) :
    (lists.step data (.storeRemove index)).storeView =
      ⟨(lists.storeView.erase index.toNat).entries,
        if (NodeStore.getNodes lists.prefs).length = 1 ∧ NodeStore.getSelected lists.prefs = 0
        then 0 else (lists.storeView.erase index.toNat).index⟩ := by
  have low : -1 ≤ NodeStore.getSelected lists.prefs := legal.low
  have high : NodeStore.getSelected lists.prefs <
      ((NodeStore.getNodes lists.prefs).map NodeStore.Node.uri).length := legal.lt_length
  have length : (((NodeStore.getNodes lists.prefs).eraseIdx index.toNat).length : ℤ) =
      (NodeStore.getNodes lists.prefs).length - 1 := by
    obtain ⟨low, high⟩ := inside
    rw [List.length_eraseIdx_of_lt (by omega)]
    omega
  rw [List.length_map] at high
  have stored := NodeStore.getNodes_saveNodes lists.prefs
    ((NodeStore.getNodes lists.prefs).eraseIdx index.toNat)
  have removed : NodeStore.removeNode lists.prefs index =
      let saved := NodeStore.saveNodes lists.prefs
        ((NodeStore.getNodes lists.prefs).eraseIdx index.toNat)
      if (NodeStore.getNodes lists.prefs).length - 1 ≤ NodeStore.getSelected lists.prefs then
        NodeStore.setSelected saved (max ((NodeStore.getNodes lists.prefs).length - 1 - 1) 0)
      else saved := by
    rw [NodeStore.removeNode, if_pos inside]
    dsimp only
    rw [length]
    rfl
  simp only [step, storeView, Selection.erase, List.eraseIdx_map, List.length_map, length,
    Selection.mk.injEq]
  dsimp only at removed
  rw [removed]
  split
  · refine ⟨congrArg (List.map NodeStore.Node.uri) stored, ?_⟩
    change max _ 0 = _
    split <;> omega
  · refine ⟨congrArg (List.map NodeStore.Node.uri) stored, ?_⟩
    change NodeStore.getSelected lists.prefs = _
    split <;> omega

theorem loadData_views (data : CharacterData) (prefs : NodePrefs) (autoSelect : Option Bool) :
    (loadData data prefs autoSelect).storeView = (loadData data prefs autoSelect).repositoryView ∧
      (loadData data prefs autoSelect).repositoryView =
        ⟨(finalNodes data prefs).map Node.uri,
          targetIdx (finalNodes data prefs) (prefs.selectedIndex.getD 0)⟩ := by
  refine ⟨?_, rfl⟩
  simp only [storeView, repositoryView, loadData, Selection.mk.injEq]
  split
  · exact ⟨getNodes_saveNodes _ _, rfl⟩
  · rename_i unchanged
    have same : finalNodes data prefs = loadedNodes prefs :=
      List.filter_sublist.eq_of_length (not_not.mp unchanged)
    rw [same, loadedNodes, List.map_map]
    exact ⟨rfl, rfl⟩

theorem legal_targetIdx (list : List Node) (savedIdx : ℤ) :
    (⟨list.map Node.uri, targetIdx list savedIdx⟩ : Selection String).Legal := by
  unfold targetIdx
  split
  · exact .inl rfl
  · rename_i some_node
    have length := List.length_pos_iff.mpr some_node
    split
    · rename_i inside
      exact .inr ((inIndices_map Node.uri).mpr inside)
    · have first : InIndices list 0 := ⟨le_rfl, by omega⟩
      exact .inr ((inIndices_map Node.uri).mpr first)

theorem legal_loadData (data : CharacterData) (prefs : NodePrefs) (autoSelect : Option Bool) :
    (loadData data prefs autoSelect).Legal := by
  have views := loadData_views data prefs autoSelect
  have target := legal_targetIdx (finalNodes data prefs) (prefs.selectedIndex.getD 0)
  rw [← views.2] at target
  exact ⟨by rw [views.1]; exact target, target⟩

theorem selected_targetIdx (list : List Node) (place : ℕ) :
    (⟨list.map Node.uri, targetIdx list place⟩ : Selection String).selected =
      if place < list.length then list[place]?.map Node.uri else list.head?.map Node.uri := by
  unfold targetIdx
  by_cases none_left : list = []
  · rw [if_pos none_left, none_left]
    rfl
  · rw [if_neg none_left]
    by_cases inside : place < list.length
    · rw [if_pos ⟨by omega, by omega⟩, if_pos inside, Selection.selected_natCast, List.getElem?_map]
    · have first : (⟨list.map Node.uri, 0⟩ : Selection String).selected =
          (list.map Node.uri)[0]? := rfl
      rw [if_neg fun there => inside (by have := there.2; omega), if_neg inside, first,
        List.getElem?_map, List.head?_eq_getElem?]

theorem selected_storeView (lists : NodeLists) :
    lists.storeView.selected = lists.storedSelection.map Node.uri := by
  by_cases low : 0 ≤ NodeStore.getSelected lists.prefs
  · have selected : lists.storeView.selected = ((NodeStore.getNodes lists.prefs).map
        NodeStore.Node.uri)[(NodeStore.getSelected lists.prefs).toNat]? := if_pos low
    have node : NodeStore.getSelectedNode lists.prefs =
        (NodeStore.getNodes lists.prefs)[(NodeStore.getSelected lists.prefs).toNat]? := if_pos low
    rw [selected, storedSelection, node, List.getElem?_map, Option.map_map]
    rfl
  · have selected : lists.storeView.selected = none := if_neg low
    have node : NodeStore.getSelectedNode lists.prefs = none := if_neg low
    rw [selected, storedSelection, node]
    rfl

/-- Where a node is selected in the preferences, they have an index. -/
theorem getSelected_of_storedSelection {node : Node} (found : lists.storedSelection = some node) :
    ∃ place : ℕ, NodeStore.getSelected lists.prefs = place ∧
      lists.prefs.selectedIndex.getD 0 = place ∧
      (loadedNodes lists.prefs)[place]? = some node := by
  unfold storedSelection NodeStore.getSelectedNode NodeStore.atIndex at found
  split at found
  · rename_i low
    obtain ⟨place, same⟩ := Int.eq_ofNat_of_zero_le low
    refine ⟨place, same, ?_, ?_⟩
    · unfold NodeStore.getSelected at same
      cases stored : lists.prefs.selectedIndex with
      | none =>
          rw [stored, Option.getD_none] at same
          omega
      | some index => rwa [stored] at same
    · rw [loadedNodes, List.getElem?_map]
      rwa [same, Int.toNat_natCast] at found
  · cases found

/-- No leaked node in front of the selected one: it keeps its place. -/
theorem getElem?_finalNodes {prefs : NodePrefs} {place : ℕ} {node : Node}
    (found : (loadedNodes prefs)[place]? = some node) (honest : isLeaked data node = false)
    (before : ∀ other ∈ (loadedNodes prefs).take place, isLeaked data other = false) :
    (finalNodes data prefs)[place]? = some node := by
  refine getElem?_filter found (by rw [honest, Bool.not_false]) fun other there => ?_
  rw [before other there, Bool.not_false]

end Views

/-! ## One operation -/

section Operation

variable {data : CharacterData} {lists : NodeLists}

theorem follows_reload_iff (lists : NodeLists) :
    lists.Follows data .reload ↔ lists.Keeps data .reload := by
  have views := loadData_views data lists.prefs lists.autoSelect
  have loaded : (lists.step data .reload).Legal := legal_loadData data lists.prefs lists.autoSelect
  have before : (NodeOp.reload.before lists).selected = lists.storedSelection.map Node.uri :=
    selected_storeView lists
  cases found : lists.storedSelection with
  | none =>
      rw [found] at before
      refine iff_of_true ⟨loaded, fun some => ?_⟩ fun node there => ?_
      · rw [before] at some
        cases some
      · rw [found] at there
        cases there
  | some node =>
      obtain ⟨place, stored, saved, -⟩ := getSelected_of_storedSelection found
      have after : (NodeOp.reload.after (lists.step data .reload)).selected =
          if place < (finalNodes data lists.prefs).length then
            (finalNodes data lists.prefs)[place]?.map Node.uri
          else (finalNodes data lists.prefs).head?.map Node.uri := by
        rw [← selected_targetIdx, ← saved, ← views.2]
        rfl
      have same : (NodeOp.reload.after (lists.step data .reload)).selected = some node.uri ↔
          (finalNodes data lists.prefs)[place]?.map Node.uri = some node.uri ∨
            (finalNodes data lists.prefs).length ≤ place ∧
              (finalNodes data lists.prefs).head?.map Node.uri = some node.uri := by
        rw [after]
        by_cases inside : place < (finalNodes data lists.prefs).length
        · rw [if_pos inside, or_iff_left fun past => absurd past.1 (by omega)]
        · rw [if_neg inside, List.getElem?_eq_none (by omega), Option.map_none,
            or_iff_right (by nofun), and_iff_right (by omega)]
      have spares : lists.Spares data .reload ↔ isLeaked data node = false := by
        rw [Spares, found]
        simp
      have keeps : lists.Keeps data .reload ↔ (isLeaked data node = false →
          (finalNodes data lists.prefs)[place]?.map Node.uri = some node.uri ∨
            (finalNodes data lists.prefs).length ≤ place ∧
              (finalNodes data lists.prefs).head?.map Node.uri = some node.uri) := by
        rw [Keeps, found, stored]
        simp
      rw [keeps, ← same]
      rw [found, Option.map_some] at before
      constructor
      · intro follows honest
        exact (follows.kept (by rw [before]; rfl) (spares.mpr honest)).trans before
      · intro stays
        exact ⟨loaded, fun _ spared => (stays (spares.mp spared)).trans before.symm⟩

/-- The list may be loaded where no node in front of the selected one was leaked. -/
theorem keeps_reload (honest : ∀ other ∈ (loadedNodes lists.prefs).take
    (NodeStore.getSelected lists.prefs).toNat, isLeaked data other = false) :
    lists.Keeps data .reload := by
  intro node there kept
  obtain ⟨place, stored, -, found⟩ := getSelected_of_storedSelection there
  rw [stored, Int.toNat_natCast] at honest
  left
  rw [stored, Int.toNat_natCast, getElem?_finalNodes found kept honest, Option.map_some]

variable (legal : lists.Legal)

include legal

theorem follows_storeAdd (node : NodeStore.Node) : lists.Follows data (.storeAdd node) where
  legal :=
    { store := by
        rw [storeView_addNode]
        exact Selection.legal_of_length_le legal.store (List.sublist_append_left _ _).length_le
      repository := legal.repository }
  kept _ _ := by
    change (lists.step data (.storeAdd node)).storeView.selected = lists.storeView.selected
    rw [storeView_addNode]
    exact Selection.selected_append legal.store _

theorem follows_storeUpdate (index : ℤ) (node : NodeStore.Node) :
    lists.Follows data (.storeUpdate index node) := by
  by_cases inside : InIndices (NodeStore.getNodes lists.prefs) index
  · refine ⟨⟨?_, legal.repository⟩, fun _ other => ?_⟩
    · rw [storeView_updateNode node inside]
      exact Selection.legal_of_length_le legal.store List.length_set.ge
    · change (lists.step data (.storeUpdate index node)).storeView.selected =
        lists.storeView.selected
      change index ≠ lists.storeView.index at other
      rw [storeView_updateNode node inside]
      refine Selection.selected_set ?_ _
      rw [Int.toNat_of_nonneg inside.1]
      exact other.symm
  · have same : lists.step data (.storeUpdate index node) = lists := by
      rw [step, NodeStore.updateNode, if_neg inside]
    exact ⟨by rwa [same], fun _ _ => by rw [same]; rfl⟩

theorem follows_storeRemove_iff (index : ℤ) :
    lists.Follows data (.storeRemove index) ↔ lists.Keeps data (.storeRemove index) := by
  by_cases inside : InIndices (NodeStore.getNodes lists.prefs) index
  · have after := storeView_storeRemove data legal.store inside
    have low : -1 ≤ NodeStore.getSelected lists.prefs := legal.store.low
    have high : NodeStore.getSelected lists.prefs <
        ((NodeStore.getNodes lists.prefs).map NodeStore.Node.uri).length := legal.store.lt_length
    rw [List.length_map] at high
    have kept := Selection.kept_erase_iff legal.store
      ((inIndices_map NodeStore.Node.uri).mpr inside)
    split at after
    · rename_i lone
      refine iff_of_false (fun follows => ?_) fun keeps => ?_
      · have illegal := follows.legal.store.lt_length
        have none_left : (lists.storeView.erase index.toNat).entries.length = 0 := by
          obtain ⟨_, below⟩ := inside
          change (((NodeStore.getNodes lists.prefs).map _).eraseIdx index.toNat).length = 0
          rw [List.length_eraseIdx_of_lt (by rw [List.length_map]; omega), List.length_map, lone.1]
        rw [after, none_left] at illegal
        exact absurd illegal (lt_irrefl 0)
      · have none_selected := (keeps inside).2 lone.1
        omega
    · rename_i others
      constructor
      · intro follows _
        refine ⟨kept.mp fun some other => ?_, fun one => by omega⟩
        exact (congrArg Selection.selected after).symm.trans (follows.kept some other)
      · intro keeps
        refine ⟨⟨?_, legal.repository⟩, fun some other => ?_⟩
        · rw [after]
          exact Selection.legal_erase legal.store _
        · exact (congrArg Selection.selected after).trans (kept.mpr (keeps inside).1 some other)
  · have same : lists.step data (.storeRemove index) = lists := by
      rw [step, NodeStore.removeNode, if_neg inside]
    exact iff_of_true ⟨by rwa [same], fun _ _ => by rw [same]; rfl⟩ fun there => absurd there inside

theorem follows_storeSelect_iff (index : ℤ) :
    lists.Follows data (.storeSelect index) ↔ lists.Keeps data (.storeSelect index) := by
  have stored : (lists.step data (.storeSelect index)).storeView.Legal ↔
      lists.Keeps data (.storeSelect index) := by
    rw [Selection.Legal, Keeps]
    exact or_congr_right (inIndices_map _)
  exact ⟨fun follows => stored.mp follows.legal.store,
    fun keeps => ⟨⟨stored.mpr keeps, legal.repository⟩, fun _ spared => spared.elim⟩⟩

theorem follows_add_iff (node : Node) :
    lists.Follows data (.add node) ↔ lists.Keeps data (.add node) := by
  have low : -1 ≤ NodeStore.getSelected lists.prefs := legal.store.low
  by_cases none_selected : lists.repository.selectedIndex = -1
  · have known : InIndices (lists.repository.nodes ++ [node]) lists.repository.nodes.length :=
      ⟨Int.natCast_nonneg _, by rw [List.length_append, List.length_singleton]; omega⟩
    have after : lists.step data (.add node) =
        (lists.publish (lists.repository.nodes ++ [node])).setSelected
          lists.repository.nodes.length := if_pos none_selected
    have views := setSelected_views (lists.publish (lists.repository.nodes ++ [node])) (.inl known)
    have last : InIndices ((lists.repository.nodes ++ [node]).map Node.uri)
        lists.repository.nodes.length := (inIndices_map Node.uri).mpr known
    refine iff_of_true ⟨⟨?_, ?_⟩, fun found => ?_⟩ (.inl none_selected)
    · rw [after, views.1, storeView_publish]
      exact .inr last
    · rw [after, views.2]
      exact .inr last
    · have nothing : lists.repositoryView.selected = none := by
        rw [repositoryView, none_selected, Selection.selected_none]
      change lists.repositoryView.selected.isSome at found
      rw [nothing] at found
      cases found
  · have after : lists.step data (.add node) =
        lists.publish (lists.repository.nodes ++ [node]) := if_neg none_selected
    have stored : (lists.step data (.add node)).storeView.Legal ↔
        lists.Keeps data (.add node) := by
      rw [after, storeView_publish, Selection.legal_iff_lt low, List.length_map, List.length_append,
        List.length_singleton, Keeps]
      simp only [none_selected, false_or, Nat.cast_add, Nat.cast_one]
    constructor
    · exact fun follows => stored.mp follows.legal.store
    · intro keeps
      refine ⟨⟨stored.mpr keeps, ?_⟩, fun _ _ => ?_⟩
      · rw [after, repositoryView_publish, List.map_append]
        exact Selection.legal_of_length_le legal.repository
          (List.sublist_append_left _ _).length_le
      · change (lists.step data (.add node)).repositoryView.selected =
          lists.repositoryView.selected
        rw [after, repositoryView_publish, List.map_append]
        exact Selection.selected_append legal.repository _

theorem follows_update_iff (index : ℤ) (node : Node) :
    lists.Follows data (.update index node) ↔ lists.Keeps data (.update index node) := by
  by_cases inside : InIndices lists.repository.nodes index
  · have after : lists.step data (.update index node) =
        lists.publish (lists.repository.nodes.set index.toNat node) := if_pos inside
    have low : -1 ≤ NodeStore.getSelected lists.prefs := legal.store.low
    have stored : (lists.step data (.update index node)).storeView.Legal ↔
        lists.Keeps data (.update index node) := by
      rw [after, storeView_publish, Selection.legal_iff_lt low, List.length_map, List.length_set]
      exact ⟨fun fits _ => fits, fun keeps => keeps inside⟩
    constructor
    · exact fun follows => stored.mp follows.legal.store
    · intro keeps
      refine ⟨⟨stored.mpr keeps, ?_⟩, fun _ other => ?_⟩
      · rw [after, repositoryView_publish]
        refine Selection.legal_of_length_le legal.repository (le_of_eq ?_)
        rw [List.length_map, List.length_map, List.length_set]
      · change (lists.step data (.update index node)).repositoryView.selected =
          lists.repositoryView.selected
        change index ≠ lists.repositoryView.index at other
        rw [after, repositoryView_publish, List.map_set]
        refine Selection.selected_set ?_ _
        rw [Int.toNat_of_nonneg inside.1]
        exact other.symm
  · have same : lists.step data (.update index node) = lists := if_neg inside
    exact iff_of_true ⟨by rwa [same], fun _ _ => by rw [same]; rfl⟩ fun there => absurd there inside

theorem follows_remove_iff (index : ℤ) :
    lists.Follows data (.remove index) ↔ lists.Keeps data (.remove index) := by
  by_cases inside : InIndices lists.repository.nodes index
  · have repository := repositoryView_removeNode legal.repository inside
    have store := storeView_removeNode legal.repository inside
    have low : -1 ≤ NodeStore.getSelected lists.prefs := legal.store.low
    have erased := Selection.legal_erase legal.repository index.toNat
    have kept := Selection.kept_erase_iff legal.repository ((inIndices_map Node.uri).mpr inside)
    have stored : (lists.removeNode index).storeView.Legal ↔
        lists.repository.nodes.length ≤ 1 ∨
          lists.repository.nodes.length ≤ lists.repository.selectedIndex + 1 ∨
            NodeStore.getSelected lists.prefs + 1 < lists.repository.nodes.length := by
      rw [store, ← or_assoc]
      split
      · rename_i moved
        exact iff_of_true erased (.inl moved)
      · rename_i stays
        have length : ((lists.repositoryView.erase index.toNat).entries.length : ℤ) =
            lists.repository.nodes.length - 1 := by
          rw [erase_repositoryView inside, List.length_map, length_rest inside]
        rw [Selection.legal_iff_lt low, length, or_iff_right stays]
        omega
    constructor
    · intro follows _
      refine ⟨kept.mp fun some other => ?_, stored.mp follows.legal.store⟩
      exact (congrArg Selection.selected repository).symm.trans (follows.kept some other)
    · intro keeps
      refine ⟨⟨stored.mpr (keeps inside).2, ?_⟩, fun some other => ?_⟩
      · change (lists.removeNode index).repositoryView.Legal
        rw [repository]
        exact erased
      · exact (congrArg Selection.selected repository).trans (kept.mpr (keeps inside).1 some other)
  · have same : lists.step data (.remove index) = lists := if_neg inside
    exact iff_of_true ⟨by rwa [same], fun _ _ => by rw [same]; rfl⟩ fun there => absurd there inside

theorem follows_select_iff (index : ℤ) :
    lists.Follows data (.select index) ↔ lists.Keeps data (.select index) := by
  by_cases known : InIndices lists.repository.nodes index ∨ index = -1
  · have after := setSelected_views lists known
    have stored : (lists.setSelected index).storeView.Legal ↔
        (InIndices lists.repository.nodes index →
          index < (NodeStore.getNodes lists.prefs).length) := by
      rw [after.1, Selection.legal_iff_lt (by rcases known with ⟨low, _⟩ | rfl <;> omega)]
      change index < ((NodeStore.getNodes lists.prefs).map _).length ↔ _
      rw [List.length_map]
      refine ⟨fun below _ => below, fun below => ?_⟩
      rcases known with inside | rfl
      · exact below inside
      · omega
    refine ⟨fun follows => stored.mp follows.legal.store, fun keeps =>
      ⟨⟨stored.mpr keeps, ?_⟩, fun _ spared => spared.elim⟩⟩
    change (lists.setSelected index).repositoryView.Legal
    rw [after.2]
    exact known.symm.imp_right (inIndices_map Node.uri).mpr
  · have same : lists.step data (.select index) = lists := if_neg known
    exact iff_of_true ⟨by rwa [same], fun _ spared => spared.elim⟩
      fun there => absurd (.inl there) known

theorem follows_iff (op : NodeOp) : lists.Follows data op ↔ lists.Keeps data op := by
  cases op with
  | storeAdd node => exact iff_of_true (follows_storeAdd legal node) trivial
  | storeUpdate index node => exact iff_of_true (follows_storeUpdate legal index node) trivial
  | storeRemove index => exact follows_storeRemove_iff legal index
  | storeSelect index => exact follows_storeSelect_iff legal index
  | add node => exact follows_add_iff legal node
  | update index node => exact follows_update_iff legal index node
  | remove index => exact follows_remove_iff legal index
  | select index => exact follows_select_iff legal index
  | reload => exact follows_reload_iff lists

/-! ## The repository alone -/

omit legal

/-- An operation of the repository -/
def NodeOp.inRepository : NodeOp → Bool
  | .storeAdd _ | .storeUpdate _ _ | .storeRemove _ | .storeSelect _ => false
  | .add _ | .update _ _ | .remove _ | .select _ | .reload => true

theorem same_publish (same : lists.storeView = lists.repositoryView) (list : List Node) :
    (lists.publish list).storeView = (lists.publish list).repositoryView := by
  have index : NodeStore.getSelected lists.prefs = lists.repository.selectedIndex :=
    congrArg Selection.index same
  rw [storeView_publish, repositoryView_publish, index]

theorem same_setSelected (same : lists.storeView = lists.repositoryView) (index : ℤ) :
    (lists.setSelected index).storeView = (lists.setSelected index).repositoryView := by
  by_cases known : InIndices lists.repository.nodes index ∨ index = -1
  · have views := setSelected_views lists known
    rw [views.1, views.2, same]
  · rwa [setSelected, if_neg known]

/-- While nothing but the repository is used, the preferences tell the same as it does. -/
theorem same_step (same : lists.storeView = lists.repositoryView) {op : NodeOp}
    (own : op.inRepository = true) :
    (lists.step data op).storeView = (lists.step data op).repositoryView := by
  cases op with
  | storeAdd node => cases own
  | storeUpdate index node => cases own
  | storeRemove index => cases own
  | storeSelect index => cases own
  | add node =>
      simp only [step, addNode]
      split
      · exact same_setSelected (same_publish same _) _
      · exact same_publish same _
  | update index node =>
      simp only [step, updateNode]
      split
      · exact same_publish same _
      · exact same
  | remove index =>
      simp only [step, removeNode]
      split_ifs
      · exact same_setSelected (same_publish same _) _
      · exact same_setSelected (same_publish same _) _
      · exact same_publish same _
      · exact same
  | select index => exact same_setSelected same index
  | reload => exact (loadData_views data lists.prefs lists.autoSelect).1

/-- Then only a removal can fail, and what is loaded again. -/
theorem keeps_of_same (legal : lists.Legal) (same : lists.storeView = lists.repositoryView)
    {op : NodeOp} (own : op.inRepository = true) (loads : op ≠ .reload)
    (behind : ∀ index, op = .remove index → InIndices lists.repository.nodes index →
      index = lists.repository.selectedIndex ∨ lists.repositoryView.Unmoved index.toNat) :
    lists.Keeps data op := by
  have index : NodeStore.getSelected lists.prefs = lists.repository.selectedIndex :=
    congrArg Selection.index same
  have high : lists.repository.selectedIndex < (lists.repository.nodes.map Node.uri).length :=
    legal.repository.lt_length
  rw [List.length_map] at high
  cases op with
  | storeAdd node => cases own
  | storeUpdate index node => cases own
  | storeRemove index => cases own
  | storeSelect index => cases own
  | add node => exact .inr (by omega)
  | update place node => exact fun _ => by omega
  | remove place =>
      refine fun inside => ⟨behind place rfl inside, ?_⟩
      omega
  | select place =>
      intro inside
      have entries : ((NodeStore.getNodes lists.prefs).map NodeStore.Node.uri).length =
          (lists.repository.nodes.map Node.uri).length :=
        congrArg (fun view => view.entries.length) same
      rw [List.length_map, List.length_map] at entries
      rw [entries]
      exact inside.2
  | reload => exact absurd rfl loads

end Operation

/-! ## All operations -/

/--
From any preferences and through any operations, the selection follows the node
exactly as long as every operation meets the condition.
-/
theorem selection_follows_iff (data : CharacterData) (prefs : NodePrefs)
    (autoSelect : Option Bool) (ops : List NodeOp) :
    let opened := loadData data prefs autoSelect
    opened.Legal ∧
      (Along (step data) (Follows data) opened ops ↔
        Along (step data) (Keeps data) opened ops) := by
  refine ⟨legal_loadData data prefs autoSelect, ?_⟩
  exact along_congr Legal (fun legal => follows_iff legal _)
    (fun legal keeps => ((follows_iff legal _).mpr keeps).legal)
    (legal_loadData data prefs autoSelect)

/-- Of three nodes the second is selected and the first is taken away: now the third is selected. -/
theorem not_follows_removal_before :
    let node (uri : String) : NodeStore.NodeJson := ⟨some uri, some ""⟩
    let prefs : NodePrefs := ⟨some [node "mirage://a", node "mirage://b", node "mirage://c"],
      some 1, none, none⟩
    let opened := loadData .latin1 prefs none
    opened.repositoryView.selected = some "mirage://b" ∧
      (opened.step .latin1 (.remove 0)).repositoryView.selected = some "mirage://c" ∧
      ¬Along (step .latin1) (Follows .latin1) opened [.remove 0] := by
  intro node prefs opened
  have before : opened.repositoryView.selected = some "mirage://b" := by decide +kernel
  have after : (opened.step .latin1 (.remove 0)).repositoryView.selected = some "mirage://c" := by
    decide +kernel
  have spared : opened.Spares .latin1 (.remove 0) := by
    change (0 : ℤ) ≠ opened.repository.selectedIndex
    decide +kernel
  refine ⟨before, after, fun along => ?_⟩
  have kept := along.1.kept (by
    change opened.repositoryView.selected.isSome
    rw [before]
    rfl) spared
  change (opened.step .latin1 (.remove 0)).repositoryView.selected =
    opened.repositoryView.selected at kept
  rw [before, after] at kept
  exact absurd kept (by decide)

end NodeLists

end Mirage.Shell
