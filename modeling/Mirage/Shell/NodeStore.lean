import Mathlib.Data.List.Basic
import Mirage.Foundations.Selection
import Mirage.Foundations.Splitting
import Mirage.Foundations.Text

/-!
# The store of the nodes

The nodes are stored as a JSON array, next to the index of the selected one.
-/

namespace Mirage.Shell

open Mirage.Foundations

namespace NodeStore

structure Node where
  uri : String
  name : String
  deriving DecidableEq, Repr

structure NodeJson where
  uri : Option String
  name : Option String
  deriving DecidableEq, Repr

/-- `mirage_nodes`; `nodesJson` is `none` where no array is stored. -/
structure NodePrefs where
  nodesJson : Option (List NodeJson)
  selectedIndex : Option ℤ
  testMethod : Option String
  poolSize : Option ℤ
  deriving DecidableEq, Repr

def NodeJson.read (item : NodeJson) : Option Node :=
  item.uri.map fun uri => ⟨uri, item.name.getD ""⟩

def Node.toJson (node : Node) : NodeJson :=
  ⟨some node.uri, some node.name⟩

/-- An entry without a URI fails the whole list. -/
def parseNodesJson (items : List NodeJson) : List Node :=
  (items.mapM NodeJson.read).getD []

def getNodes (prefs : NodePrefs) : List Node :=
  parseNodesJson (prefs.nodesJson.getD [])

def saveNodes (prefs : NodePrefs) (list : List Node) : NodePrefs :=
  { prefs with nodesJson := some (list.map Node.toJson) }

def addNode (prefs : NodePrefs) (node : Node) : NodePrefs :=
  saveNodes prefs (getNodes prefs ++ [node])

def getSelected (prefs : NodePrefs) : ℤ :=
  prefs.selectedIndex.getD (-1)

def setSelected (prefs : NodePrefs) (index : ℤ) : NodePrefs :=
  { prefs with selectedIndex := some index }

def updateNode (prefs : NodePrefs) (index : ℤ) (node : Node) : NodePrefs :=
  let list := getNodes prefs
  if InIndices list index then saveNodes prefs (list.set index.toNat node) else prefs

/-- The index of the selected node is moved only where it is past the end of the list. -/
def removeNode (prefs : NodePrefs) (index : ℤ) : NodePrefs :=
  let list := getNodes prefs
  if InIndices list index then
    let rest := list.eraseIdx index.toNat
    let saved := saveNodes prefs rest
    if rest.length ≤ getSelected saved then setSelected saved (max (rest.length - 1) 0) else saved
  else prefs

/-- The entry of a list at an index of the platform, which may be negative -/
def atIndex (nodes : List Node) (index : ℤ) : Option Node :=
  if 0 ≤ index then nodes[index.toNat]? else none

def getSelectedNode (prefs : NodePrefs) : Option Node :=
  atIndex (getNodes prefs) (getSelected prefs)

def getSelectedUri (prefs : NodePrefs) : String :=
  ((getSelectedNode prefs).map Node.uri).getD ""

def getTestMethod (prefs : NodePrefs) : String :=
  prefs.testMethod.getD "tcp"

def getPoolSize (prefs : NodePrefs) : ℤ :=
  prefs.poolSize.getD 16

def setPoolSize (prefs : NodePrefs) (size : ℤ) : NodePrefs :=
  { prefs with poolSize := some size }

/-- The name which a URI gives a node -/
def defaultName (uri : String) : String :=
  let rest := (splitWord "mirage://".toList uri.toList).elim uri.toList Prod.snd
  let authority := (splitFirst '@' rest).elim rest Prod.snd
  let core := (splitFirst '?' authority).elim authority Prod.fst
  let host := (splitFirst ':' core).elim core Prod.fst
  let opened := if host.head? = some '[' then host.tail else host
  String.ofList (if opened.getLast? = some ']' then opened.dropLast else opened)

theorem getNodes_saveNodes (prefs : NodePrefs) (list : List Node) :
    getNodes (saveNodes prefs list) = list := by
  have read : NodeJson.read ∘ Node.toJson = pure := rfl
  have items : (list.map Node.toJson).mapM NodeJson.read = some list := by
    rw [List.mapM_map, read, List.mapM_pure, List.map_id']
    rfl
  simp only [getNodes, saveNodes, Option.getD_some, parseNodesJson, items]

theorem getNodes_addNode (prefs : NodePrefs) (node : Node) :
    getNodes (addNode prefs node) = getNodes prefs ++ [node] :=
  getNodes_saveNodes prefs _

end NodeStore

end Mirage.Shell
