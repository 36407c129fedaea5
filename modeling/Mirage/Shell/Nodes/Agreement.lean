import Mirage.Foundations.Run
import Mirage.Shell.Nodes

/-!
# Agreement on the current node

While the VPN runs, the URI of the service runs behind that of the kernel by the
switches which are still under way, or the other way round by the calls of
`setNode`.  The two meet again if every such call is for a URI which the kernel
takes and for the one that is under way besides, and if the newest switch is not
overtaken by an older one.

The interface shows the node of a switch exactly if its list has that node where
the list of the service has it.
-/

namespace Mirage.Shell

open Mirage.Foundations

namespace NodeRepository

/-- The node of the last switch is the selected one. -/
def Shows (repo : NodeRepository) : Prop :=
  ∀ uri ∈ repo.shown, repo.getSelectedNode = some uri

/-- The node at the index can be removed without another one being selected for it. -/
def Removable (repo : NodeRepository) (index : ℕ) : Prop :=
  ∀ _ ∈ repo.shown, ∀ selected ∈ repo.selectedIndex,
    index < selected → selected + 1 = repo.nodes.length

instance (repo : NodeRepository) (index : ℕ) : Decidable (repo.Removable index) :=
  inferInstanceAs (Decidable (∀ _ ∈ repo.shown, _))

instance (repo : NodeRepository) : Decidable repo.Shows :=
  inferInstanceAs (Decidable (∀ uri ∈ repo.shown, _))

variable {repo : NodeRepository}

theorem shows_of_none (hidden : repo.shown = none) : repo.Shows := by
  simp [Shows, hidden]

/-- Where a switch is shown, its node is selected by an index in the list. -/
theorem Shows.selected {uri : String} (shows : repo.Shows) (shown : repo.shown = some uri) :
    ∃ selected, repo.selectedIndex = some selected ∧ repo.nodes[selected]? = some uri :=
  Option.bind_eq_some_iff.mp (shows uri shown)

theorem getSelectedNode_of_selected {selected : ℕ} {uri : String}
    (index : repo.selectedIndex = some selected) (found : repo.nodes[selected]? = some uri) :
    repo.getSelectedNode = some uri := by
  rw [getSelectedNode, index, Option.bind_some, found]

theorem shows_selectNode (index : ℕ) (shows : repo.Shows) : (repo.selectNode index).Shows := by
  unfold selectNode
  split
  · exact shows_of_none rfl
  · exact shows

theorem shows_addNode (added : String) (shows : repo.Shows) : (repo.addNode added).Shows := by
  cases index : repo.selectedIndex with
  | none =>
      apply shows_of_none
      cases shown : repo.shown with
      | none =>
          simp only [addNode, setSelected, if_pos index]
          split <;> exact shown
      | some uri =>
          rcases shows.selected shown with ⟨selected, here, _⟩
          rw [index] at here
          cases here
  | some selected =>
      intro uri shown
      have appended : repo.addNode added = { repo with nodes := repo.nodes ++ [added] } := by
        simp [addNode, index]
      rw [appended] at shown ⊢
      rcases shows.selected shown with ⟨here, same, found⟩
      refine getSelectedNode_of_selected same ?_
      rw [List.getElem?_append_left (List.getElem?_eq_some_iff.mp found).1, found]

theorem shown_of_shownWithout {index : ℕ} {uri : String}
    (shown : repo.shownWithout index = some uri) : repo.shown = some uri := by
  unfold shownWithout at shown
  split at shown
  · cases shown
  · exact shown

/-- After an edit or a removal only a node at another index is still shown. -/
theorem Shows.selected_of_shownWithout {index : ℕ} {uri : String} (shows : repo.Shows)
    (shown : repo.shownWithout index = some uri) :
    ∃ selected, selected ≠ index ∧ repo.selectedIndex = some selected ∧
      repo.nodes[selected]? = some uri := by
  unfold shownWithout at shown
  split at shown
  · cases shown
  · rename_i different
    rcases shows.selected shown with ⟨selected, same, found⟩
    refine ⟨selected, ?_, same, found⟩
    rintro rfl
    exact different same

theorem shows_updateNode (index : ℕ) (updated : String) (shows : repo.Shows) :
    (repo.updateNode index updated).Shows := by
  unfold updateNode
  split
  · intro uri shown
    rcases shows.selected_of_shownWithout shown with ⟨selected, different, same, found⟩
    refine getSelectedNode_of_selected same ?_
    rw [List.getElem?_set_ne different.symm, found]
  · exact shows

theorem shows_removeNode {index : ℕ} (shows : repo.Shows) (removable : repo.Removable index) :
    (repo.removeNode index).Shows := by
  unfold removeNode
  split
  · rename_i inside
    intro uri shown
    rcases shows.selected_of_shownWithout shown with ⟨selected, different, same, found⟩
    have within := (List.getElem?_eq_some_iff.mp found).1
    have rest : (repo.nodes.eraseIdx index).length = repo.nodes.length - 1 :=
      List.length_eraseIdx_of_lt inside
    have nonempty : ¬ (repo.nodes.eraseIdx index).isEmpty = true := by
      rw [List.isEmpty_iff_length_eq_zero, rest]
      omega
    dsimp only
    rw [if_neg nonempty, same, Option.map_some, rest]
    rcases Nat.lt_or_gt_of_ne different with before | after
    · rw [if_neg (by omega)]
      refine getSelectedNode_of_selected rfl ?_
      rw [List.getElem?_eraseIdx_of_lt before, found]
    · have last := removable uri (shown_of_shownWithout shown) selected same after
      have place : repo.nodes.length - 1 - 1 + 1 = selected := by omega
      rw [if_pos (by omega)]
      refine getSelectedNode_of_selected rfl ?_
      rw [List.getElem?_eraseIdx_of_ge (by omega), place, found]
  · exact shows

theorem shows_onNodeChanged {change : NodeChange}
    (found : repo.nodes[change.index]? = some change.uri) : (repo.onNodeChanged change).Shows := by
  have inside := (List.getElem?_eq_some_iff.mp found).1
  unfold onNodeChanged setSelected
  rw [if_pos inside]
  rintro uri ⟨⟩
  exact found

end NodeRepository

namespace Nodes

/-- Nothing is under way between the kernel, the service and the interface. -/
def Quiescent (nodes : Nodes) : Prop :=
  nodes.start = none ∧ nodes.restarts = 0 ∧ nodes.probing = [] ∧ nodes.switched = [] ∧
    nodes.honored = [] ∧ nodes.calls = [] ∧ nodes.pushes = [] ∧ nodes.changed = []

instance (nodes : Nodes) : Decidable nodes.Quiescent := inferInstanceAs (Decidable (_ ∧ _))

def Live (nodes : Nodes) : Prop :=
  nodes.serviceState = .running ∧ nodes.kernelRunning = true

instance (nodes : Nodes) : Decidable nodes.Live := inferInstanceAs (Decidable (_ ∧ _))

/-- The URIs agree at rest, and the interface shows the node of the last switch. -/
def Agrees (nodes : Nodes) : Prop :=
  (nodes.Quiescent → nodes.Live → nodes.kernelUri = some nodes.serviceUri) ∧
    nodes.ui.Shows

instance (nodes : Nodes) : Decidable nodes.Agrees := inferInstanceAs (Decidable (_ ∧ _))

/-- The URIs which the service is about to take, the newest last. -/
def pending (nodes : Nodes) : List String := nodes.honored ++ nodes.switched

/-- The URIs which are on their way from the kernel to the service, or back. -/
def underWay (nodes : Nodes) : List String := nodes.pending ++ nodes.calls

/--
The kernel starts with the URI of the service, or runs with it, and so is
everything which is still under way.
-/
def StartsWith (nodes : Nodes) (parses : String → Bool) (builds : Bool) (uri : String) : Prop :=
  (nodes.kernelRunning = true → nodes.kernelUri = some uri) ∧
    (nodes.kernelRunning = true ∨ accepts parses uri = true ∧ builds = true →
      uri = nodes.serviceUri ∧ ∀ other ∈ nodes.underWay, other = uri)

instance (nodes : Nodes) (parses : String → Bool) (builds : Bool) (uri : String) :
    Decidable (nodes.StartsWith parses builds uri) :=
  inferInstanceAs (Decidable (_ ∧ _))

def Orderly (parses : String → Bool) (nodes : Nodes) : NodeEvent → Prop
  | .nativeStart _ builds => ∀ uri ∈ nodes.start, nodes.StartsWith parses builds uri
  | .switchEngine index builds =>
      nodes.Live → ∀ uri ∈ nodes.probing[index]?, (accepts parses uri && builds) = true →
        ∀ call ∈ nodes.calls, call = uri
  | .checkSwitched index => nodes.Live → index + 1 = nodes.switched.length → index = 0
  | .applySwitched index _ =>
      nodes.Live → nodes.switched = [] → index + 1 = nodes.honored.length → index = 0
  | .setNode uri => nodes.Live → ∀ other ∈ nodes.underWay, other = uri
  | .nativeSetNode index =>
      nodes.Live → ∀ uri ∈ nodes.calls[index]?, accepts parses uri = true
  | .removeNode index => nodes.ui.Removable index
  | .onNodeChanged index =>
      ∀ change ∈ nodes.changed[index]?,
        nodes.ui.nodes[change.index]? = change.nodes[change.index]?
  | _ => True

instance decidableOrderly (parses : String → Bool) (nodes : Nodes) :
    ∀ event, Decidable (nodes.Orderly parses event)
  | .nativeStart _ builds =>
      inferInstanceAs (Decidable (∀ uri ∈ nodes.start, nodes.StartsWith parses builds uri))
  | .switchEngine index builds =>
      inferInstanceAs (Decidable (nodes.Live → ∀ uri ∈ nodes.probing[index]?,
        (accepts parses uri && builds) = true → ∀ call ∈ nodes.calls, call = uri))
  | .checkSwitched index =>
      inferInstanceAs (Decidable (nodes.Live → index + 1 = nodes.switched.length → index = 0))
  | .applySwitched index _ =>
      inferInstanceAs (Decidable (nodes.Live → nodes.switched = [] →
        index + 1 = nodes.honored.length → index = 0))
  | .setNode uri =>
      inferInstanceAs (Decidable (nodes.Live → ∀ other ∈ nodes.underWay, other = uri))
  | .nativeSetNode index =>
      inferInstanceAs (Decidable (nodes.Live → ∀ uri ∈ nodes.calls[index]?,
        accepts parses uri = true))
  | .removeNode index => inferInstanceAs (Decidable (nodes.ui.Removable index))
  | .onNodeChanged index =>
      inferInstanceAs (Decidable (∀ change ∈ nodes.changed[index]?,
        nodes.ui.nodes[change.index]? = change.nodes[change.index]?))
  | .onStartCommand _ _ | .startFails | .stopInternal | .nativeStop | .stopEnds
  | .restartRequested | .restart _ | .probe _ | .selectNode _ | .addNode _ | .updateNode _ _
  | .pushNodes | .updateNodes _ => .isTrue trivial

/-- While a call is under way, everything that is under way is for the URI of the service. -/
structure Synced (nodes : Nodes) : Prop where
  settled : nodes.Live → nodes.calls = [] →
    nodes.kernelUri = some (nodes.pending.getLast?.getD nodes.serviceUri)
  calling : nodes.Live → nodes.calls ≠ [] → ∀ uri ∈ nodes.underWay, uri = nodes.serviceUri

/--
The events which are still under way carry the URI of a node, and the callbacks
the index of one.
-/
structure Announced (nodes : Nodes) : Prop where
  named : ∀ uri ∈ nodes.pending, isBlank uri = false
  found : ∀ change ∈ nodes.changed, change.nodes[change.index]? = some change.uri
  shows : nodes.ui.Shows

variable {nodes : Nodes}

theorem synced_of_not_live (stopped : ¬ nodes.Live) : nodes.Synced :=
  ⟨fun live => absurd live stopped, fun live => absurd live stopped⟩

/-- Where everything under way is for the URI of the kernel and the service, they are in step. -/
theorem synced_of_same (kernel : nodes.kernelUri = some nodes.serviceUri)
    (same : ∀ uri ∈ nodes.underWay, uri = nodes.serviceUri) : nodes.Synced where
  settled _ _ := by
    rw [kernel]
    cases newest : nodes.pending.getLast? with
    | none => rfl
    | some uri =>
        have there := List.mem_of_getLast? newest
        rw [same uri (List.mem_append_left _ there)]
        rfl
  calling _ _ := same

theorem synced_enter (uriOverride stored : String) (synced : nodes.Synced) :
    (nodes.enter uriOverride stored).Synced := by
  unfold enter
  split
  · exact synced_of_not_live (by simp [Live])
  · exact synced

theorem synced_onStartCommand (uri : Option String) (stored : String) (synced : nodes.Synced) :
    (nodes.onStartCommand uri stored).Synced := by
  unfold onStartCommand
  dsimp only
  split
  · rename_i accepted
    split
    · exact synced_of_not_live (by simp [Live])
    · apply synced_enter
      apply synced_of_not_live
      rintro ⟨state, _⟩
      rw [StateMachine.acceptsStartCommand] at accepted
      dsimp only at state
      rw [state] at accepted
      exact absurd accepted (by decide)
  · exact synced

section Parsing

variable {parses : String → Bool}

theorem synced_failStart : nodes.failStart.Synced :=
  synced_of_not_live (by simp [Live, failStart])

theorem synced_nativeStart {stored : List String} {builds : Bool} {uri : String}
    (starts : nodes.StartsWith parses builds uri) :
    (nodes.nativeStart parses stored builds uri).Synced := by
  rcases starts with ⟨again, same⟩
  unfold nativeStart
  split
  · exact synced_failStart
  · dsimp only
    split
    · rename_i running
      rcases same (Or.inl running) with ⟨here, others⟩
      rw [here] at again others
      exact synced_of_same (again running) others
    · split
      · rename_i accepted
        split
        · rename_i built
          rcases same (Or.inr ⟨accepted, built⟩) with ⟨rfl, others⟩
          exact synced_of_same rfl others
        · exact synced_failStart
      · exact synced_failStart

/-- The kernel is ahead of the service by one more event. -/
theorem synced_switchEngine {builds : Bool} {uri : String} (synced : nodes.Synced)
    (alone : nodes.Live → (accepts parses uri && builds) = true →
      ∀ call ∈ nodes.calls, call = uri) :
    (nodes.switchEngine parses builds uri).Synced := by
  unfold switchEngine
  split
  · rename_i switches
    refine ⟨fun live idle => ?_, fun live busy => ?_⟩
    · simp [pending]
    · have same := synced.calling live busy
      rcases List.exists_mem_of_ne_nil _ busy with ⟨call, there⟩
      have called : uri = nodes.serviceUri := by
        rw [← alone live switches call there]
        exact same call (List.mem_append_right _ there)
      intro other under
      simp only [underWay, pending, List.mem_append, List.mem_singleton] at under same
      rcases under with (honored | switched | rfl) | calls
      · exact same other (Or.inl (Or.inl honored))
      · exact same other (Or.inl (Or.inr switched))
      · exact called
      · exact same other (Or.inr calls)
  · exact synced

theorem synced_checkSwitched {index : ℕ} {uri : String} (synced : nodes.Synced)
    (found : nodes.switched[index]? = some uri)
    (newest : nodes.Live → index + 1 = nodes.switched.length → index = 0) :
    ({ nodes with switched := nodes.switched.eraseIdx index }.checkSwitched uri).Synced := by
  unfold checkSwitched
  split
  · refine ⟨fun live idle => ?_, fun live busy => ?_⟩
    · have before := synced.settled live idle
      simp only [pending, List.getLast?_append, List.getLast?_singleton] at before ⊢
      rw [← getLast?_eraseIdx_or found (newest live), Option.or_assoc] at before
      exact before
    · have same := synced.calling live busy
      intro other under
      simp only [underWay, pending, List.mem_append, List.mem_singleton] at under same
      rcases under with ((honored | rfl) | rest) | calls
      · exact same other (Or.inl (Or.inl honored))
      · exact same other (Or.inl (Or.inr (List.mem_of_getElem? found)))
      · exact same other (Or.inl (Or.inr (List.mem_of_mem_eraseIdx rest)))
      · exact same other (Or.inr calls)
  · rename_i ignored
    apply synced_of_not_live
    rintro ⟨state, _⟩
    dsimp only at state ignored
    rw [state] at ignored
    exact ignored rfl

theorem synced_onKernelSwitched {index : ℕ} {uri : String} (stored : List String)
    (synced : nodes.Synced) (found : nodes.honored[index]? = some uri)
    (named : isBlank uri = false)
    (newest : nodes.Live → nodes.switched = [] → index + 1 = nodes.honored.length → index = 0) :
    ({ nodes with
      honored := nodes.honored.eraseIdx index }.onKernelSwitched stored uri).Synced := by
  unfold onKernelSwitched
  rw [if_neg (Bool.eq_false_iff.mp named)]
  refine ⟨fun live idle => ?_, fun live busy => ?_⟩
  · have before := synced.settled live idle
    simp only [pending, List.getLast?_append] at before ⊢
    rw [before]
    cases behind : nodes.switched.getLast? with
    | some last => rfl
    | none =>
        have last := newest live (List.getLast?_eq_none_iff.mp behind)
        simp only [Option.none_or]
        rw [← getLast?_eraseIdx_or found last]
        cases (nodes.honored.eraseIdx index).getLast? <;> rfl
  · have same := synced.calling live busy
    have here : uri = nodes.serviceUri := by
      apply same
      exact List.mem_append_left _ (List.mem_append_left _ (List.mem_of_getElem? found))
    intro other under
    simp only [underWay, pending, List.mem_append] at under same
    dsimp only
    rw [here]
    rcases under with (rest | switched) | calls
    · exact same other (Or.inl (Or.inl (List.mem_of_mem_eraseIdx rest)))
    · exact same other (Or.inl (Or.inr switched))
    · exact same other (Or.inr calls)

theorem synced_setNode {uri : String}
    (alone : nodes.Live → ∀ other ∈ nodes.underWay, other = uri) :
    { nodes with serviceUri := uri, calls := nodes.calls ++ [uri] }.Synced := by
  refine ⟨fun _ idle => ?_, fun live _ other under => ?_⟩
  · exact absurd idle (by simp)
  · simp only [underWay, pending, List.mem_append, List.mem_singleton] at under alone
    rcases under with before | calls | rfl
    · exact alone live other (Or.inl before)
    · exact alone live other (Or.inr calls)
    · rfl

theorem synced_nativeSetNode {index : ℕ} {uri : String} (synced : nodes.Synced)
    (found : nodes.calls[index]? = some uri) (accepted : nodes.Live → accepts parses uri = true) :
    ({ nodes with calls := nodes.calls.eraseIdx index }.nativeSetNode parses uri).Synced := by
  unfold nativeSetNode
  by_cases live : nodes.Live
  · have there := List.mem_of_getElem? found
    have same := synced.calling live (List.ne_nil_of_mem there)
    have here : uri = nodes.serviceUri := same uri (List.mem_append_right _ there)
    rw [if_pos (by rw [live.2, accepted live, Bool.and_self])]
    refine synced_of_same (congrArg some here) ?_
    intro other under
    simp only [underWay, pending, List.mem_append] at under same
    rcases under with before | rest
    · exact same other (Or.inl before)
    · exact same other (Or.inr (List.mem_of_mem_eraseIdx rest))
  · split <;> exact synced_of_not_live live

theorem synced_step {event : NodeEvent} (synced : nodes.Synced) (announced : nodes.Announced)
    (orderly : nodes.Orderly parses event) : (nodes.step parses event).Synced := by
  cases event with
  | onStartCommand uri stored => exact synced_onStartCommand uri stored synced
  | startFails =>
      simp only [step]
      split
      · exact synced_failStart
      · exact synced
  | nativeStart stored builds =>
      simp only [step]
      cases start : nodes.start with
      | none => exact synced
      | some uri => exact synced_nativeStart (orderly uri start)
  | stopInternal | restartRequested =>
      simp only [step]
      split
      · exact synced_of_not_live (by simp [Live])
      · exact synced
  | nativeStop => exact synced_of_not_live (by simp [Live, step])
  | stopEnds =>
      simp only [step]
      split
      · exact synced
      · exact synced_of_not_live (by simp [Live])
  | restart stored =>
      simp only [step]
      split
      · exact synced
      · exact synced_enter "" stored ⟨synced.settled, synced.calling⟩
  | probe uri =>
      simp only [step]
      split
      · exact ⟨synced.settled, synced.calling⟩
      · exact synced
  | switchEngine index builds =>
      simp only [step]
      cases found : nodes.probing[index]? with
      | none => exact synced
      | some uri =>
          refine synced_switchEngine ⟨synced.settled, synced.calling⟩ ?_
          exact fun live => orderly live uri found
  | checkSwitched index =>
      simp only [step]
      split
      · exact synced
      · cases found : nodes.switched[index]? with
        | none => exact synced
        | some uri => exact synced_checkSwitched synced found orderly
  | applySwitched index stored =>
      simp only [step]
      cases found : nodes.honored[index]? with
      | none => exact synced
      | some uri =>
          have named := announced.named uri (List.mem_append_left _ (List.mem_of_getElem? found))
          exact synced_onKernelSwitched stored synced found named orderly
  | setNode uri => exact synced_setNode orderly
  | nativeSetNode index =>
      simp only [step]
      cases found : nodes.calls[index]? with
      | none => exact synced
      | some uri => exact synced_nativeSetNode synced found fun live => orderly live uri found
  | updateNodes index =>
      simp only [step]
      cases nodes.pushes[index]? with
      | none => exact synced
      | some list => exact ⟨synced.settled, synced.calling⟩
  | onNodeChanged index =>
      simp only [step]
      cases nodes.changed[index]? with
      | none => exact synced
      | some change => exact ⟨synced.settled, synced.calling⟩
  | selectNode _ | addNode _ | updateNode _ _ | removeNode _ | pushNodes =>
      exact ⟨synced.settled, synced.calling⟩

/-- What a step leaves alone where it announces nothing. -/
theorem Announced.of_same {other : Nodes} (announced : nodes.Announced)
    (same : other.pending = nodes.pending ∧ other.changed = nodes.changed ∧
      other.ui = nodes.ui) : other.Announced := by
  rcases same with ⟨pending, changed, ui⟩
  refine ⟨?_, ?_, ?_⟩
  · rw [pending]
    exact announced.named
  · rw [changed]
    exact announced.found
  · rw [ui]
    exact announced.shows

theorem announced_enter (uriOverride stored : String) (announced : nodes.Announced) :
    (nodes.enter uriOverride stored).Announced := by
  apply announced.of_same
  unfold enter
  split <;> exact ⟨rfl, rfl, rfl⟩

theorem announced_nativeStart (stored : List String) (builds : Bool) (uri : String)
    (announced : nodes.Announced) : (nodes.nativeStart parses stored builds uri).Announced := by
  apply announced.of_same
  simp only [nativeStart]
  split
  · exact ⟨rfl, rfl, rfl⟩
  · split
    · exact ⟨rfl, rfl, rfl⟩
    · split
      · split <;> exact ⟨rfl, rfl, rfl⟩
      · exact ⟨rfl, rfl, rfl⟩

theorem announced_switchEngine (builds : Bool) (uri : String) (announced : nodes.Announced) :
    (nodes.switchEngine parses builds uri).Announced := by
  unfold switchEngine
  split
  · rename_i taken
    refine ⟨?_, announced.found, announced.shows⟩
    simp only [accepts, Bool.and_eq_true, Bool.not_eq_true'] at taken
    intro other there
    simp only [pending, List.mem_append, List.mem_singleton] at there
    rcases there with honored | switched | rfl
    · exact announced.named other (List.mem_append_left _ honored)
    · exact announced.named other (List.mem_append_right _ switched)
    · exact taken.1.1
  · exact announced

theorem announced_checkSwitched {index : ℕ} {uri : String} (announced : nodes.Announced)
    (found : nodes.switched[index]? = some uri) :
    ({ nodes with switched := nodes.switched.eraseIdx index }.checkSwitched uri).Announced := by
  have fewer : ∀ other, other ∈ nodes.honored ∨ other = uri ∨
      other ∈ nodes.switched.eraseIdx index → isBlank other = false := by
    rintro other (honored | rfl | rest)
    · exact announced.named other (List.mem_append_left _ honored)
    · exact announced.named other (List.mem_append_right _ (List.mem_of_getElem? found))
    · exact announced.named other (List.mem_append_right _ (List.mem_of_mem_eraseIdx rest))
  unfold checkSwitched
  split
  · refine ⟨fun other there => fewer other ?_, announced.found, announced.shows⟩
    simpa [pending] using there
  · refine ⟨fun other there => fewer other ?_, announced.found, announced.shows⟩
    rcases List.mem_append.mp there with honored | rest
    · exact Or.inl honored
    · exact Or.inr (Or.inr rest)

/-- The service passes on an index only where it has found the node. -/
theorem announced_onKernelSwitched {index : ℕ} (stored : List String) (uri : String)
    (announced : nodes.Announced) :
    ({ nodes with honored := nodes.honored.eraseIdx index }.onKernelSwitched stored
      uri).Announced := by
  have named : ∀ other ∈ nodes.honored.eraseIdx index ++ nodes.switched,
      isBlank other = false := by
    intro other there
    apply announced.named
    rcases List.mem_append.mp there with rest | switched
    · exact List.mem_append_left _ (List.mem_of_mem_eraseIdx rest)
    · exact List.mem_append_right _ switched
  unfold onKernelSwitched
  split
  · exact ⟨named, announced.found, announced.shows⟩
  · refine ⟨named, ?_, announced.shows⟩
    intro change there
    simp only [List.mem_append, Option.mem_toList, Option.map_eq_some_iff] at there
    rcases there with before | ⟨place, known, rfl⟩
    · exact announced.found change before
    · rcases List.idxOf?_eq_some_iff.mp known with ⟨inside, same, _⟩
      exact List.getElem?_eq_some_iff.mpr ⟨inside, same⟩

theorem announced_step {event : NodeEvent} (announced : nodes.Announced)
    (orderly : nodes.Orderly parses event) : (nodes.step parses event).Announced := by
  cases event with
  | onStartCommand uri stored =>
      simp only [step, onStartCommand]
      split
      · split
        · exact announced.of_same ⟨rfl, rfl, rfl⟩
        · exact announced_enter _ _ (announced.of_same ⟨rfl, rfl, rfl⟩)
      · exact announced
  | nativeStart stored builds =>
      simp only [step]
      cases nodes.start with
      | none => exact announced
      | some uri => exact announced_nativeStart stored builds uri announced
  | restart stored =>
      simp only [step]
      split
      · exact announced
      · exact announced_enter _ _ (announced.of_same ⟨rfl, rfl, rfl⟩)
  | startFails | stopInternal | restartRequested | probe _ =>
      simp only [step]
      split
      · exact announced.of_same ⟨rfl, rfl, rfl⟩
      · exact announced
  | stopEnds =>
      simp only [step]
      split
      · exact announced
      · exact announced.of_same ⟨rfl, rfl, rfl⟩
  | switchEngine index builds =>
      simp only [step]
      cases nodes.probing[index]? with
      | none => exact announced
      | some uri => exact announced_switchEngine builds uri (announced.of_same ⟨rfl, rfl, rfl⟩)
  | checkSwitched index =>
      simp only [step]
      split
      · exact announced
      · cases found : nodes.switched[index]? with
        | none => exact announced
        | some uri => exact announced_checkSwitched announced found
  | applySwitched index stored =>
      simp only [step]
      cases nodes.honored[index]? with
      | none => exact announced
      | some uri => exact announced_onKernelSwitched stored uri announced
  | nativeStop | setNode _ | pushNodes => exact announced.of_same ⟨rfl, rfl, rfl⟩
  | nativeSetNode index =>
      simp only [step]
      cases nodes.calls[index]? with
      | none => exact announced
      | some uri =>
          simp only [Option.elim, nativeSetNode]
          split <;> exact announced.of_same ⟨rfl, rfl, rfl⟩
  | updateNodes index =>
      simp only [step]
      cases nodes.pushes[index]? with
      | none => exact announced
      | some list => exact announced.of_same ⟨rfl, rfl, rfl⟩
  | selectNode index =>
      refine ⟨announced.named, announced.found, ?_⟩
      exact NodeRepository.shows_selectNode index announced.shows
  | addNode uri =>
      refine ⟨announced.named, announced.found, ?_⟩
      exact NodeRepository.shows_addNode uri announced.shows
  | updateNode index uri =>
      refine ⟨announced.named, announced.found, ?_⟩
      exact NodeRepository.shows_updateNode index uri announced.shows
  | removeNode index =>
      refine ⟨announced.named, announced.found, ?_⟩
      exact NodeRepository.shows_removeNode announced.shows orderly
  | onNodeChanged index =>
      simp only [step]
      cases here : nodes.changed[index]? with
      | none => exact announced
      | some change =>
          refine ⟨announced.named, fun other there => ?_, ?_⟩
          · exact announced.found other (List.mem_of_mem_eraseIdx there)
          · apply NodeRepository.shows_onNodeChanged
            rw [orderly change here]
            exact announced.found change (List.mem_of_getElem? here)

end Parsing

theorem agrees_of_synced (synced : nodes.Synced) (announced : nodes.Announced) :
    nodes.Agrees := by
  refine ⟨?_, announced.shows⟩
  rintro ⟨_, _, _, switched, honored, calls, _, _⟩ live
  have settled := synced.settled live calls
  rw [pending, honored, switched] at settled
  exact settled

end Nodes

/--
At rest the service knows the URI of the kernel, and the interface shows the
node of the last switch, in every run which keeps to the order.
-/
theorem nodes_agree (parses : String → Bool) (events : List NodeEvent)
    (orderly : Along (Nodes.step parses) (Nodes.Orderly parses) Nodes.new events) :
    Throughout (Nodes.step parses) Nodes.Agrees Nodes.new events := by
  refine throughout_of_along (fun nodes => nodes.Synced ∧ nodes.Announced) ?_ ?_ orderly ?_
  · exact fun kept => Nodes.agrees_of_synced kept.1 kept.2
  · intro nodes event kept met
    exact ⟨Nodes.synced_step kept.1 kept.2 met, Nodes.announced_step kept.2 met⟩
  · refine ⟨Nodes.synced_of_not_live (by decide), ?_, ?_, ?_⟩
    · simp [Nodes.pending, Nodes.new]
    · simp [Nodes.new]
    · exact NodeRepository.shows_of_none rfl

/-- Two nodes; the watchdog switches to the second, and the user back to the first. -/
theorem nodes_agree_back_and_forth :
    let first := "mirage://p@a:1?sni=s"
    let second := "mirage://p@b:1?sni=s"
    Throughout (Nodes.step [first, second].contains) Nodes.Agrees Nodes.new
      [.addNode first, .addNode second, .pushNodes, .onStartCommand (some first) "",
        .nativeStart [first, second] true, .updateNodes 0, .probe second, .switchEngine 0 true,
        .checkSwitched 0, .applySwitched 0 [], .onNodeChanged 0, .selectNode 0, .setNode first,
        .nativeSetNode 0] :=
  nodes_agree _ _ (by decide +kernel)

/--
A call of `setNode` which fails, an index into a list from which a node has been
removed since, and a call which overtakes the event of a switch.
-/
theorem nodes_disagree :
    let first := "mirage://p@a:1?sni=s"
    let second := "mirage://p@b:1?sni=s"
    let third := "mirage://p@c:1?sni=s"
    let step := Nodes.step [first, second, third].contains
    let failed := run step Nodes.new
      [.onStartCommand (some first) "", .nativeStart [first] true, .setNode "mirage://x",
        .nativeSetNode 0]
    let stale := run step Nodes.new
      [.addNode first, .addNode second, .addNode third, .selectNode 2, .pushNodes,
        .onStartCommand (some third) "", .nativeStart [first, second, third] true, .updateNodes 0,
        .removeNode 0, .probe second, .switchEngine 0 true, .checkSwitched 0, .applySwitched 0 [],
        .onNodeChanged 0]
    let crossed := run step Nodes.new
      [.addNode first, .addNode second, .onStartCommand (some first) "",
        .nativeStart [first, second] true, .probe second, .switchEngine 0 true, .setNode third,
        .nativeSetNode 0, .checkSwitched 0, .applySwitched 0 [], .onNodeChanged 0]
    failed.kernelUri = some first ∧ failed.serviceUri = "mirage://x" ∧ ¬ failed.Agrees ∧
      stale.ui.shown = some second ∧ stale.ui.getSelectedNode = some third ∧ ¬ stale.Agrees ∧
      crossed.kernelUri = some third ∧ crossed.serviceUri = second ∧ ¬ crossed.Agrees := by
  decide +kernel

end Mirage.Shell
