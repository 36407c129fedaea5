import Mirage.Shell.CoreService
import Mirage.Shell.JvmText

/-!
# The current node

The node which the VPN runs on is kept three times.  The kernel holds its URI,
which a start, `setNode` and the switches of the watchdog replace.  The service
holds the URI which it was last told of, for its next start, and a list of nodes.
The user interface holds a list of its own and the index of the selected node;
of a switch it learns by an index into the list of the service.

The list of the interface reaches the service by pushes, and a switch reaches it
by an event which is first checked and then applied, on threads of its own.
-/

namespace Mirage.Shell

/-- A call of `onNodeChanged`; `nodes` is the list in which the service found the index. -/
structure NodeChange where
  index : ℕ
  uri : String
  nodes : List String
  deriving DecidableEq, Repr

/--
The nodes of the interface, by their URIs.  `shown` is the URI of the last switch
which it was told of, as long as the user has not chosen another node, or edited
or removed this one.
-/
structure NodeRepository where
  nodes : List String
  selectedIndex : Option ℕ
  shown : Option String
  deriving DecidableEq, Repr

namespace NodeRepository

def getSelectedNode (repo : NodeRepository) : Option String :=
  repo.selectedIndex.bind fun index => repo.nodes[index]?

/-- An index out of range is ignored. -/
def setSelected (repo : NodeRepository) (index : ℕ) : NodeRepository :=
  if index < repo.nodes.length then { repo with selectedIndex := some index } else repo

def selectNode (repo : NodeRepository) (index : ℕ) : NodeRepository :=
  if index < repo.nodes.length then { repo with selectedIndex := some index, shown := none }
  else repo

def addNode (repo : NodeRepository) (uri : String) : NodeRepository :=
  let added := { repo with nodes := repo.nodes ++ [uri] }
  if repo.selectedIndex = none then added.setSelected repo.nodes.length else added

/-- What is shown once the user has edited or removed the node at the index. -/
def shownWithout (repo : NodeRepository) (index : ℕ) : Option String :=
  if repo.selectedIndex = some index then none else repo.shown

def updateNode (repo : NodeRepository) (index : ℕ) (uri : String) : NodeRepository :=
  if index < repo.nodes.length then
    { repo with nodes := repo.nodes.set index uri, shown := repo.shownWithout index }
  else repo

/-- The index of the selected node is moved only where it is past the end of the list. -/
def removeNode (repo : NodeRepository) (index : ℕ) : NodeRepository :=
  if index < repo.nodes.length then
    let rest := repo.nodes.eraseIdx index
    { repo with
      nodes := rest
      selectedIndex :=
        if rest.isEmpty then none
        else repo.selectedIndex.map fun selected =>
          if rest.length ≤ selected then rest.length - 1 else selected
      shown := repo.shownWithout index }
  else repo

/-- The node is selected by its index; the URI is not looked at. -/
def onNodeChanged (repo : NodeRepository) (change : NodeChange) : NodeRepository :=
  { repo.setSelected change.index with shown := some change.uri }

end NodeRepository

/--
`start` is the URI which `startLocked` has read, while it holds the lock of the
state.  `probing` are the nodes which a watchdog is about to switch to, `switched`
the events of its switches, and `honored` those of them which were found in the
state `Running`.  `calls` are the calls of `setNode` which have not reached the
kernel yet.
-/
structure Nodes where
  serviceState : ServiceState
  start : Option String
  restarts : ℕ
  serviceUri : String
  serviceNodes : List String
  kernelRunning : Bool
  kernelUri : Option String
  kernelNodes : List String
  probing : List String
  switched : List String
  honored : List String
  calls : List String
  ui : NodeRepository
  pushes : List (List String)
  changed : List NodeChange
  deriving DecidableEq, Repr

/--
`stored` is what the process of the service reads from the store of the nodes,
which may be out of date, and `builds` tells whether an engine can be built.  A
teardown is not followed: it may stop the kernel, and end, at any time.
-/
inductive NodeEvent where
  | onStartCommand (uri : Option String) (stored : String)
  | startFails
  | nativeStart (stored : List String) (builds : Bool)
  | stopInternal
  | nativeStop
  | stopEnds
  | restartRequested
  | restart (stored : String)
  | probe (uri : String)
  | switchEngine (index : ℕ) (builds : Bool)
  | checkSwitched (index : ℕ)
  | applySwitched (index : ℕ) (stored : List String)
  | setNode (uri : String)
  | nativeSetNode (index : ℕ)
  | selectNode (index : ℕ)
  | addNode (uri : String)
  | updateNode (index : ℕ) (uri : String)
  | removeNode (index : ℕ)
  | pushNodes
  | updateNodes (index : ℕ)
  | onNodeChanged (index : ℕ)
  deriving DecidableEq, Repr

namespace Nodes

def new : Nodes where
  serviceState := .stopped
  start := none
  restarts := 0
  serviceUri := ""
  serviceNodes := []
  kernelRunning := false
  kernelUri := none
  kernelNodes := []
  probing := []
  switched := []
  honored := []
  calls := []
  ui := ⟨[], none, none⟩
  pushes := []
  changed := []

/-- The lock of the state is held by `startInternal`. -/
def locked (nodes : Nodes) : Bool := nodes.start.isSome

/-- The URI which `startLocked` connects to. -/
def startUri (nodes : Nodes) (uriOverride stored : String) : String :=
  if !isBlank uriOverride then uriOverride
  else if !isBlank nodes.serviceUri then nodes.serviceUri
  else stored

/-- The verdict of `startInternal`, and the first lines of its body. -/
def enter (nodes : Nodes) (uriOverride stored : String) : Nodes :=
  if StateMachine.verdictForStart nodes.serviceState nodes.kernelRunning = .proceed then
    { nodes with serviceState := .starting, start := some (nodes.startUri uriOverride stored) }
  else nodes

/-- A command, which `failAndStop` ends where the start is refused. -/
def onStartCommand (nodes : Nodes) (uri : Option String) (stored : String) : Nodes :=
  let serviceUri := uri.getD nodes.serviceUri
  if StateMachine.acceptsStartCommand nodes.serviceState then
    if nodes.serviceState = .stopping then { nodes with serviceUri, serviceState := .stopped }
    else { nodes with serviceUri }.enter serviceUri stored
  else nodes

/-- The end of a start which has failed; whatever runs is stopped. -/
def failStart (nodes : Nodes) : Nodes :=
  { nodes with
    start := none
    serviceState := StateMachine.stateAfterStart (-1)
    kernelRunning := false }

def finishStart (nodes : Nodes) : Nodes :=
  { nodes with
    start := none
    serviceState := StateMachine.stateAfterStart 0
    kernelRunning := true }

section Parsing

variable (parses : String → Bool)

/--
`NodeUri::parse` asks for a scheme, so that it accepts nothing blank; what else
it asks for is `parses`.
-/
def accepts (uri : String) : Bool := !isBlank uri && parses uri

/-- The rest of `startLocked`; the kernel is sent the stored list before it starts. -/
def nativeStart (nodes : Nodes) (stored : List String) (builds : Bool) (uri : String) : Nodes :=
  if uri.isEmpty then nodes.failStart
  else
    let resent := { nodes with serviceNodes := stored, kernelNodes := stored }
    if nodes.kernelRunning then resent.finishStart
    else if accepts parses uri then
      let written := { resent with kernelUri := some uri }
      if builds then written.finishStart else written.failStart
    else resent.failStart

/-- `switch_engine_to`; where it fails, the kernel asks for a restart instead. -/
def switchEngine (nodes : Nodes) (builds : Bool) (uri : String) : Nodes :=
  if accepts parses uri && builds then
    { nodes with kernelUri := some uri, switched := nodes.switched ++ [uri] }
  else nodes

/-- `setNode` of the kernel, which is called only if the kernel runs. -/
def nativeSetNode (nodes : Nodes) (uri : String) : Nodes :=
  if nodes.kernelRunning && accepts parses uri then { nodes with kernelUri := some uri }
  else nodes

/-- The second half of `dispatchFailoverEvent` is not reached in another state. -/
def checkSwitched (nodes : Nodes) (uri : String) : Nodes :=
  if shouldHonorEvent nodes.serviceState then { nodes with honored := nodes.honored ++ [uri] }
  else nodes

/-- A node which is not in the list is not passed on: a wrong index shows another node. -/
def onKernelSwitched (nodes : Nodes) (stored : List String) (uri : String) : Nodes :=
  if isBlank uri then nodes
  else
    let known := if nodes.serviceNodes.isEmpty then stored else nodes.serviceNodes
    { nodes with
      serviceUri := uri
      changed := nodes.changed ++ ((known.idxOf? uri).map (⟨·, uri, known⟩)).toList }

def step (nodes : Nodes) : NodeEvent → Nodes
  | .onStartCommand uri stored => nodes.onStartCommand uri stored
  | .startFails => if nodes.locked then nodes.failStart else nodes
  | .nativeStart stored builds => nodes.start.elim nodes (nodes.nativeStart parses stored builds)
  | .stopInternal =>
      if !nodes.locked && StateMachine.shouldRunStop nodes.serviceState then
        { nodes with serviceState := .stopping }
      else nodes
  | .nativeStop => { nodes with kernelRunning := false }
  | .stopEnds => if nodes.locked then nodes else { nodes with serviceState := .stopped }
  | .restartRequested =>
      if !nodes.locked && shouldHonorEvent nodes.serviceState then
        { nodes with kernelRunning := false, restarts := nodes.restarts + 1 }
      else nodes
  | .restart stored =>
      if nodes.locked || nodes.restarts == 0 then nodes
      else { nodes with restarts := nodes.restarts - 1 }.enter "" stored
  | .probe uri =>
      if nodes.kernelRunning && decide (uri ∈ nodes.kernelNodes) && nodes.kernelUri != some uri then
        { nodes with probing := nodes.probing ++ [uri] }
      else nodes
  | .switchEngine index builds =>
      nodes.probing[index]?.elim nodes
        ({ nodes with probing := nodes.probing.eraseIdx index }.switchEngine parses builds)
  | .checkSwitched index =>
      if nodes.locked then nodes
      else
        nodes.switched[index]?.elim nodes
          { nodes with switched := nodes.switched.eraseIdx index }.checkSwitched
  | .applySwitched index stored =>
      nodes.honored[index]?.elim nodes
        ({ nodes with honored := nodes.honored.eraseIdx index }.onKernelSwitched stored)
  -- the service takes the URI before it is known whether the kernel does
  | .setNode uri => { nodes with serviceUri := uri, calls := nodes.calls ++ [uri] }
  | .nativeSetNode index =>
      nodes.calls[index]?.elim nodes
        ({ nodes with calls := nodes.calls.eraseIdx index }.nativeSetNode parses)
  | .selectNode index => { nodes with ui := nodes.ui.selectNode index }
  | .addNode uri => { nodes with ui := nodes.ui.addNode uri }
  | .updateNode index uri => { nodes with ui := nodes.ui.updateNode index uri }
  | .removeNode index => { nodes with ui := nodes.ui.removeNode index }
  | .pushNodes => { nodes with pushes := nodes.pushes ++ [nodes.ui.nodes] }
  | .updateNodes index =>
      nodes.pushes[index]?.elim nodes fun list =>
        { nodes with
          pushes := nodes.pushes.eraseIdx index
          serviceNodes := list
          kernelNodes := list }
  | .onNodeChanged index =>
      nodes.changed[index]?.elim nodes fun change =>
        { nodes with changed := nodes.changed.eraseIdx index, ui := nodes.ui.onNodeChanged change }

end Parsing

end Nodes

end Mirage.Shell
