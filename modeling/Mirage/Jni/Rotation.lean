import Mathlib.Data.List.Chain
import Mirage.Jni

/-!
# Which nodes the watchdog goes through

In any mode but `best` the watchdog takes the first node of the list which is not the current
one.  As the choice starts again at the head of the list each time, it goes back and forth
between the first two nodes, and no other node of a longer list is ever reached.
-/

namespace Mirage.Jni

open Mirage.Failover Mirage.Foundations

/-- The first candidate: the node at the head of the list which is not the current one. -/
def firstCandidate (nodes : List String) (current : Option String) : Option String :=
  nodes.find? fun uri => some uri != current

/-- A switch from one node, if any, to the next one. -/
def SwitchedFrom (parses : String → Bool) (nodes : List String) (previous next : Option String) :
    Prop :=
  ∃ uri, next = some uri ∧ firstCandidate nodes previous = some uri ∧ parses uri = true

/-- The node of a switch which was successful. -/
def Deed.switchedTo (deed : Deed) : Option String :=
  match deed.act with
  | .emitted .switched uri => some uri
  | _ => none

namespace Kernel

def switches (kernel : Kernel) : List String :=
  kernel.deeds.filterMap Deed.switchedTo

/-- The watchdog at `index` is the only one which runs, and it is at the top of its loop. -/
structure Begins (nodes : List String) (index : ℕ) (kernel : Kernel) : Prop where
  nodes_eq : kernel.nodes = nodes
  ordered : kernel.policy.mode ≠ "best"
  atTop : ∀ watchdog ∈ kernel.watchdogs[index]?, watchdog.phase = .top
  alone : ∀ other watchdog, other ≠ index → kernel.watchdogs[other]? = some watchdog →
    watchdog.phase = .exited

/--
The list and the order mode stay, only the watchdog changes the current URI, no other watchdog
is spawned, and no node is healthy when it is looked at.
-/
structure Undisturbed (parses : String → Bool) (nodes : List String) (kernel : Kernel)
    (event : KernelEvent) : Prop where
  nodes_eq : (kernel.step parses event).nodes = nodes
  ordered : (kernel.step parses event).policy.mode ≠ "best"
  own : (∃ index reading, event = .watch index reading ∧ reading.healthy = false) ∨
    (kernel.step parses event).currentNodeUri = kernel.currentNodeUri ∧
      (kernel.step parses event).watchdogs = kernel.watchdogs

end Kernel

/-- In every such run, as many switches one after another as there are nodes reach all nodes. -/
def CoversList (parses : String → Bool) (nodes : List String) : Prop :=
  ∀ earlier index events,
    let begun := run (Kernel.step parses) .new earlier
    begun.Begins nodes index →
      Along (Kernel.step parses) (Kernel.Undisturbed parses nodes) begun events →
        ∀ window, window <:+:
            (run (Kernel.step parses) begun events).switches.drop begun.switches.length →
          window.length = nodes.length → ∀ node ∈ nodes, node ∈ window

/-! ## What a run goes through -/

section

variable {parses : String → Bool} {nodes : List String} {kernel : Kernel} {index : ℕ}
  {watchdog : Watchdog}

/-- How a watchdog stands to the current URI; `last` is the node it has switched to last. -/
def Watchdog.Follows (parses : String → Bool) (nodes : List String)
    (last current : Option String) (watchdog : Watchdog) : Prop :=
  match watchdog.phase with
  | .top | .delaying _ | .emitting .restartRequested _ => current = last
  | .sleeping _ | .woken | .attached | .acting => current = last ∧ watchdog.policy.mode ≠ "best"
  | .probing _ _ => False
  | .switching uri => current = last ∧ firstCandidate nodes last = some uri
  | .built uri | .swapped uri => current = last ∧ SwitchedFrom parses nodes last (some uri)
  | .emitting .switched uri => current = some uri ∧ SwitchedFrom parses nodes last (some uri)
  | .exited => True

/-- The URI which the next step of the watchdog makes the current one. -/
def WatchPhase.written : WatchPhase → Option String
  | .swapped uri => some uri
  | _ => none

/-- The node which the next step of the watchdog reports as switched to. -/
def WatchPhase.reported : WatchPhase → Option String
  | .emitting .switched uri => some uri
  | _ => none

/-- What a step of the watchdog leaves of the current URI and of the record of the switches. -/
theorem Kernel.perform_records (kernel : Kernel) (watchdog : Watchdog) :
    (kernel.perform watchdog).currentNodeUri =
        watchdog.phase.written.or kernel.currentNodeUri ∧
      (kernel.perform watchdog).switches =
        kernel.switches ++ watchdog.phase.reported.toList ∧
      (kernel.perform watchdog).nodes = kernel.nodes := by
  rcases phase : watchdog.phase with
    _ | _ | _ | _ | _ | _ | _ | _ | uri | uri | ⟨kind, uri⟩ | _
  case built =>
    cases state : watchdog.state <;>
      simp [perform, Watchdog.act?, phase, state, apply, record, setEngine, switches,
        WatchPhase.written, WatchPhase.reported, Deed.switchedTo]
  case emitting =>
    cases kind <;>
      simp [perform, Watchdog.act?, phase, apply, record, switches, WatchPhase.written,
        WatchPhase.reported, Deed.switchedTo]
  all_goals
    simp [perform, Watchdog.act?, phase, apply, record, writeCurrent, switches,
      WatchPhase.written, WatchPhase.reported, Deed.switchedTo]

theorem Watchdog.follows_judge {last current : Option String} (same : current = last)
    (ordered : watchdog.policy.mode ≠ "best") (round : Round) :
    (watchdog.judge round).Follows parses nodes last current := by
  unfold judge
  split
  · exact same
  · split
    · exact same
    · split
      · exact same
      · split
        · exact same
        · exact ⟨same, ordered⟩

/-- In the order mode the first candidate is chosen, if there is one. -/
theorem Watchdog.follows_choose {current : Option String}
    (ordered : watchdog.policy.mode ≠ "best") :
    (watchdog.choose nodes current).Follows parses nodes current current := by
  have first : firstCandidate nodes current =
      (nodes.filter fun uri => some uri != current).head? := List.head?_filter.symm
  unfold choose
  split
  · exact rfl
  · rename_i uri rest candidates
    rw [if_neg ordered]
    exact ⟨rfl, by rw [first, candidates]; rfl⟩

/-- The watchdog after its next step, while the node which it follows is the last one. -/
theorem Watchdog.Follows.next {last : Option String} (nodes_eq : kernel.nodes = nodes)
    (ordered : kernel.policy.mode ≠ "best")
    (follows : watchdog.Follows parses nodes last kernel.currentNodeUri) (reading : Reading) :
    (kernel.next parses reading watchdog).Follows parses nodes
      (watchdog.phase.reported.or last)
      (watchdog.phase.written.or kernel.currentNodeUri) := by
  rcases phase : watchdog.phase with
    _ | _ | _ | _ | _ | ⟨candidates, current⟩ | uri | uri | uri | uri | ⟨kind, uri⟩ | _
  all_goals simp only [Follows, phase] at follows
  all_goals
    simp only [Kernel.next, phase, WatchPhase.written, WatchPhase.reported, Option.none_or,
      Option.some_or]
  case exited => simp only [Follows, phase]
  case top => exact ⟨follows, ordered⟩
  case sleeping =>
    split
    · exact follows
    · trivial
  case woken =>
    cases kernel.runtime with
    | none => trivial
    | some session => exact follows
  case attached => exact follows_judge follows.1 follows.2 _
  case acting =>
    rw [nodes_eq, ← follows.1]
    exact follows_choose follows.2
  case delaying => exact follows
  case switching =>
    simp only [build]
    split
    · rename_i builds
      rw [Bool.and_eq_true] at builds
      exact ⟨follows.1, uri, rfl, follows.2, builds.1⟩
    · exact follows.1
  case built => exact follows
  case swapped => exact ⟨rfl, follows.2⟩
  case emitting =>
    cases kind with
    | switched => exact follows.1
    | restartRequested => exact follows

theorem Watchdog.Follows.switchedFrom {last current : Option String} {uri : String}
    (follows : watchdog.Follows parses nodes last current)
    (reported : watchdog.phase.reported = some uri) :
    SwitchedFrom parses nodes last (some uri) := by
  rcases phase : watchdog.phase with
    _ | _ | _ | _ | _ | _ | _ | _ | _ | _ | ⟨kind, node⟩ | _
  all_goals rw [phase] at reported
  case emitting =>
    cases kind with
    | switched =>
        cases reported
        simp only [Follows, phase] at follows
        exact follows.2
    | restartRequested => cases reported
  all_goals cases reported

/--
The switches since the beginning of the run: each is made from the node of the one before,
the first from the URI which was current at the beginning.
-/
structure Rotating (parses : String → Bool) (nodes : List String) (index : ℕ) (begun : Kernel)
    (kernel : Kernel) : Prop where
  nodes_eq : kernel.nodes = nodes
  ordered : kernel.policy.mode ≠ "best"
  alone : ∀ other watchdog, other ≠ index → kernel.watchdogs[other]? = some watchdog →
    watchdog.phase = .exited
  trail : ∃ news last, kernel.switches = begun.switches ++ news ∧
    (begun.currentNodeUri :: news.map some).IsChain (SwitchedFrom parses nodes) ∧
    (begun.currentNodeUri :: news.map some).getLast? = some last ∧
    ∀ watchdog ∈ kernel.watchdogs[index]?,
      watchdog.Follows parses nodes last kernel.currentNodeUri

theorem Rotating.start (begins : kernel.Begins nodes index) :
    Rotating parses nodes index kernel kernel := by
  refine ⟨begins.nodes_eq, begins.ordered, begins.alone, [], kernel.currentNodeUri, ?_, ?_, rfl, ?_⟩
  · rw [List.append_nil]
  · exact .singleton _
  · intro watchdog there
    simp only [Watchdog.Follows, begins.atTop watchdog there]

/-- A call leaves the record of the switches alone. -/
theorem Kernel.step_switches (event : KernelEvent)
    (call : ∀ index reading, event ≠ .watch index reading) :
    (kernel.step parses event).switches = kernel.switches := by
  cases event with
  | watch index reading => exact absurd rfl (call index reading)
  | advance index succeeds =>
      simp only [step, switches]
      cases kernel.calls[index]? with
      | none => rfl
      | some call => exact congrArg _ (kernel.advance_frame parses index succeeds call).2
  | _ => rfl

/-- A switch, if one is reported, goes on from the last node. -/
theorem chain_reported {begun last reported : Option String} {news : List String}
    (chain : (begun :: news.map some).IsChain (SwitchedFrom parses nodes))
    (last_eq : (begun :: news.map some).getLast? = some last)
    (onward : ∀ uri, reported = some uri → SwitchedFrom parses nodes last (some uri)) :
    (begun :: (news ++ reported.toList).map some).IsChain (SwitchedFrom parses nodes) ∧
      (begun :: (news ++ reported.toList).map some).getLast? = some (reported.or last) := by
  cases reported with
  | none =>
      rw [Option.toList_none, List.append_nil]
      exact ⟨chain, last_eq⟩
  | some uri =>
      rw [Option.toList_some, List.map_append, ← List.cons_append]
      refine ⟨List.isChain_append.mpr ⟨chain, .singleton _, ?_⟩, List.getLast?_concat ..⟩
      intro previous previous_eq next next_eq
      rw [last_eq] at previous_eq
      cases previous_eq
      cases next_eq
      exact onward uri rfl

/-- The watchdog takes a step. -/
theorem Rotating.watch {begun : Kernel} (rotating : Rotating parses nodes index begun kernel)
    (found : kernel.watchdogs[index]? = some watchdog) (reading : Reading) :
    Rotating parses nodes index begun (kernel.watch parses index reading watchdog) := by
  rcases rotating with ⟨nodes_eq, ordered, alone, news, last, recorded, chain, last_eq, follows⟩
  unfold Kernel.watch
  split
  · exact ⟨nodes_eq, ordered, alone, news, last, recorded, chain, last_eq, follows⟩
  · rcases kernel.perform_records watchdog with ⟨current_eq, switches_eq, same_nodes⟩
    rcases kernel.perform_frame watchdog with ⟨same_policy, -, -, same_watchdogs⟩
    have next := Watchdog.Follows.next nodes_eq ordered (follows watchdog found) reading
    have inside : index < kernel.watchdogs.length := (List.getElem?_eq_some_iff.mp found).1
    constructor
    · exact same_nodes.trans nodes_eq
    · change (kernel.perform watchdog).policy.mode ≠ "best"
      rw [same_policy]
      exact ordered
    · intro other found different there
      change ((kernel.perform watchdog).watchdogs.set index _)[other]? = _ at there
      rw [same_watchdogs, List.getElem?_set_ne (Ne.symm different)] at there
      exact alone other found different there
    · have extended := chain_reported chain last_eq fun uri reported =>
        (follows watchdog found).switchedFrom reported
      refine ⟨news ++ watchdog.phase.reported.toList, watchdog.phase.reported.or last, ?_,
        extended.1, extended.2, ?_⟩
      · change (kernel.perform watchdog).switches = _
        rw [switches_eq, recorded, List.append_assoc]
      · intro after there
        change after ∈ ((kernel.perform watchdog).watchdogs.set index _)[index]? at there
        rw [same_watchdogs, List.getElem?_set_self inside] at there
        cases there
        change Watchdog.Follows parses nodes _ (kernel.perform watchdog).currentNodeUri _
        rw [current_eq]
        exact next

theorem Rotating.step {begun : Kernel} {event : KernelEvent}
    (rotating : Rotating parses nodes index begun kernel)
    (undisturbed : kernel.Undisturbed parses nodes event) :
    Rotating parses nodes index begun (kernel.step parses event) := by
  by_cases watches : ∃ other reading, event = .watch other reading
  · rcases watches with ⟨other, reading, rfl⟩
    simp only [Kernel.step]
    cases found : kernel.watchdogs[other]? with
    | none => exact rotating
    | some watchdog =>
        by_cases same : other = index
        · subst same
          exact rotating.watch found reading
        · have exited := rotating.alone other watchdog same found
          rw [Option.elim_some, Kernel.watch, if_pos (by rw [Watchdog.exited, exited]; rfl)]
          exact rotating
  · rcases undisturbed.own with ⟨other, reading, rfl, -⟩ | ⟨same_current, same_watchdogs⟩
    · exact absurd ⟨other, reading, rfl⟩ watches
    · have same_switches := @Kernel.step_switches parses kernel event
        fun other reading same => watches ⟨other, reading, same⟩
      rcases rotating.trail with ⟨news, last, recorded, chain, last_eq, follows⟩
      refine ⟨undisturbed.nodes_eq, undisturbed.ordered, ?_, news, last, ?_, chain, last_eq, ?_⟩
      · rw [same_watchdogs]
        exact rotating.alone
      · rw [same_switches, recorded]
      · rw [same_watchdogs, same_current]
        exact follows

/-- The switches of a run go from each node to the first candidate after it. -/
theorem switches_chain {begun : Kernel} {events : List KernelEvent}
    (begins : begun.Begins nodes index)
    (undisturbed : Along (Kernel.step parses) (Kernel.Undisturbed parses nodes) begun events) :
    (begun.currentNodeUri ::
      ((run (Kernel.step parses) begun events).switches.drop begun.switches.length).map
        some).IsChain (SwitchedFrom parses nodes) := by
  rcases (run_invariant_along (fun met rotating => rotating.step met) undisturbed
    (Rotating.start begins)).trail with ⟨news, last, recorded, chain, -, -⟩
  rw [recorded, List.drop_left]
  exact chain

/-- A part of the switches has a node before it, too. -/
theorem chain_window {current : Option String} {switched window : List String}
    (chain : (current :: switched.map some).IsChain (SwitchedFrom parses nodes))
    (part : window <:+: switched) :
    ∃ previous, (previous :: window.map some).IsChain (SwitchedFrom parses nodes) := by
  rcases part with ⟨before, after, rfl⟩
  rw [List.map_append, List.map_append, ← List.cons_append] at chain
  have upTo := chain.left_of_append
  rcases List.eq_nil_or_concat' before with rfl | ⟨earlier, previous, rfl⟩
  · exact ⟨current, upTo⟩
  · refine ⟨some previous, ?_⟩
    rw [List.map_append, List.append_assoc, ← List.cons_append] at upTo
    exact upTo.right_of_append

theorem firstCandidate_mem {current : Option String} {uri : String}
    (first : firstCandidate nodes current = some uri) : uri ∈ nodes :=
  List.mem_of_find?_eq_some first

/-- Two switches one after another, in a list which begins with two different nodes. -/
theorem switched_twice {first second : String} {rest : List String} {previous : Option String}
    {one two : String} (different : first ≠ second)
    (once : SwitchedFrom parses (first :: second :: rest) previous (some one))
    (again : SwitchedFrom parses (first :: second :: rest) (some one) (some two)) :
    (one = first ∧ two = second ∨ one = second ∧ two = first) ∧
      parses one = true ∧ parses two = true := by
  rcases once with ⟨_, same, from_previous, one_parses⟩
  cases same
  rcases again with ⟨_, same, from_one, two_parses⟩
  cases same
  refine ⟨?_, one_parses, two_parses⟩
  simp only [firstCandidate, List.find?_cons] at from_previous from_one
  grind

/-! ## A run back and forth -/

/-- A reading of a node which does not work, where the next one can be built. -/
def unhealthy : Reading := ⟨false, none, true⟩

/-- The steps of the watchdog in two bad rounds, and in the switch after them. -/
def badRounds : List KernelEvent :=
  List.replicate 4 (.watch 0 unhealthy) ++ List.replicate 4 (.watch 0 unhealthy) ++
    List.replicate 2 (.watch 0 unhealthy) ++ List.replicate 3 (.watch 0 unhealthy)

def orderFields : FailoverFields := ⟨some "order", none, none, none, some true⟩

/-- A session is started on a node, with a list, a network and a policy of order. -/
def startInOrder (nodes : List String) (uri : String) : List KernelEvent :=
  [.setNodeList (some nodes), .setPolicy (some orderFields), .onNetworkChanged true, .start uri] ++
    List.replicate 6 (.advance 0 true)

/-- The kernel of a session which was started so, while its watchdog runs. -/
def watched (nodes : List String) (current : String) (engines : List String) (deeds : List Deed)
    (watchdog : Watchdog) : Kernel where
  runtime := some 0
  currentNodeUri := some current
  started := true
  watchdogGen := 1
  policy := orderFields.policy
  hasInternet := true
  nodes
  engines
  calls := [.returned]
  watchdogs := [watchdog]
  deeds
  panicked := false

/-- The watchdog, after it has read the policy once. -/
def inOrder (failures : ℕ) (state : Option ℕ) (phase : WatchPhase) (rounds : List Round) :
    Watchdog :=
  ⟨1, 0, orderFields.policy, failures, 0, state, phase, rounds⟩

theorem startInOrder_eq {uri : String} (valid : parses uri = true) :
    run (Kernel.step parses) .new (startInOrder nodes uri) =
      watched nodes uri [uri] [] (.new 1 0) := by
  simp [startInOrder, run, List.replicate, Kernel.step, Kernel.new, Kernel.start, Kernel.call,
    Kernel.advance, Kernel.setCall, valid, Kernel.writeCurrent, Kernel.install,
    Kernel.spawnWatchdog, Failover.setNodeList, Failover.setPolicy, watched]

section Rounds

variable (nodes) (current next : String) (engines : List String) (deeds : List Deed)
  (policy : FailoverPolicy) (rounds : List Round)

theorem run_firstRound :
    run (Kernel.step parses)
        (watched nodes current engines deeds ⟨1, 0, policy, 0, 0, none, .top, rounds⟩)
        (List.replicate 4 (.watch 0 unhealthy)) =
      watched nodes current engines deeds
        (inOrder 1 none .top (⟨true, true, false⟩ :: rounds)) := by
  rfl

theorem run_secondRound :
    run (Kernel.step parses) (watched nodes current engines deeds (inOrder 1 none .top rounds))
        (List.replicate 4 (.watch 0 unhealthy)) =
      watched nodes current engines deeds
        (inOrder 0 (some 0) .acting (⟨true, true, false⟩ :: rounds)) := by
  rfl

theorem run_chosen (chosen : firstCandidate nodes (some current) = some next)
    (valid : parses next = true) :
    run (Kernel.step parses)
        (watched nodes current engines deeds (inOrder 0 (some 0) .acting rounds))
        (List.replicate 2 (.watch 0 unhealthy)) =
      watched nodes current engines deeds (inOrder 0 (some 0) (.built next) rounds) := by
  rw [firstCandidate, ← List.head?_filter] at chosen
  have choice : (Kernel.step parses (watched nodes current engines deeds
        (inOrder 0 (some 0) .acting rounds)) (.watch 0 unhealthy)) =
      watched nodes current engines deeds (inOrder 0 (some 0) (.switching next) rounds) := by
    change Kernel.update _ 0 _ (Watchdog.choose _ nodes (some current)) = _
    rw [Watchdog.choose, List.eq_cons_of_mem_head? chosen]
    rfl
  rw [List.replicate_succ, run_cons, choice]
  change Kernel.update _ 0 _ (Watchdog.build _ next (parses next && true)) = _
  rw [valid]
  rfl

theorem run_built :
    run (Kernel.step parses)
        (watched nodes current engines deeds (inOrder 0 (some 0) (.built next) rounds))
        (List.replicate 3 (.watch 0 unhealthy)) =
      watched nodes next (engines.set 0 next)
        (deeds ++ [⟨.swapped 0 next, 0, some 0, true, rounds⟩] ++
          [⟨.wroteCurrent next, 0, some 0, true, rounds⟩] ++
          [⟨.emitted .switched next, 0, some 0, true, rounds⟩])
        (inOrder 0 none .top rounds) := by
  rfl

end Rounds

/-- The watchdog is at the top of its loop, and `switched` are the nodes it has switched to. -/
def Loops (nodes : List String) (current : String) (switched : List String) (kernel : Kernel) :
    Prop :=
  ∃ engines deeds policy rounds,
    kernel = watched nodes current engines deeds ⟨1, 0, policy, 0, 0, none, .top, rounds⟩ ∧
      deeds.filterMap Deed.switchedTo = switched

/-- Two bad rounds make the first candidate the current node. -/
theorem Loops.badRounds {current next : String} {switched : List String}
    (loops : Loops nodes current switched kernel)
    (chosen : firstCandidate nodes (some current) = some next) (valid : parses next = true) :
    Loops nodes next (switched ++ [next]) (run (Kernel.step parses) kernel badRounds) := by
  rcases loops with ⟨engines, deeds, policy, rounds, rfl, made⟩
  rw [Jni.badRounds, run_append, run_append, run_append, run_firstRound, run_secondRound,
    run_chosen nodes current next engines deeds _ chosen valid, run_built]
  refine ⟨_, _, _, _, rfl, ?_⟩
  simp only [List.filterMap_append, made, List.filterMap_cons, List.filterMap_nil, Deed.switchedTo,
    List.append_nil]

/-- The run goes back and forth between the first two nodes. -/
theorem loops_count {first second : String} {rest : List String}
    (first_parses : parses first = true) (second_parses : parses second = true)
    (different : first ≠ second) (count : ℕ) :
    ∃ current switched,
      Loops (first :: second :: rest) current switched
          (run (Kernel.step parses)
            (watched (first :: second :: rest) first [first] [] (.new 1 0))
            (List.replicate count badRounds).flatten) ∧
        (current = first ∨ current = second) ∧ switched.length = count ∧
        ∀ uri ∈ switched, uri = first ∨ uri = second := by
  induction count with
  | zero => exact ⟨first, [], ⟨_, _, _, _, rfl, rfl⟩, Or.inl rfl, rfl, by simp⟩
  | succ count ih =>
      rcases ih with ⟨current, switched, loops, back, length_eq, two⟩
      have onward : ∃ next, firstCandidate (first :: second :: rest) (some current) = some next ∧
          (next = first ∨ next = second) := by
        rcases back with rfl | rfl
        · exact ⟨second, by simp [firstCandidate, different.symm], Or.inr rfl⟩
        · exact ⟨first, by simp [firstCandidate, different], Or.inl rfl⟩
      rcases onward with ⟨next, chosen, next_eq⟩
      have valid : parses next = true := by
        rcases next_eq with rfl | rfl
        · exact first_parses
        · exact second_parses
      refine ⟨next, switched ++ [next], ?_, next_eq, ?_, ?_⟩
      · rw [List.replicate_succ', List.flatten_append, List.flatten_singleton, run_append]
        exact loops.badRounds chosen valid
      · rw [List.length_append, length_eq, List.length_singleton]
      · intro uri there
        rcases List.mem_append.mp there with earlier | now
        · exact two uri earlier
        · rw [List.mem_singleton.mp now]
          exact next_eq

theorem undisturbed_watch {events : List KernelEvent} (nodes_eq : kernel.nodes = nodes)
    (ordered : kernel.policy.mode ≠ "best")
    (watching : ∀ event ∈ events, event = .watch 0 unhealthy) :
    Along (Kernel.step parses) (Kernel.Undisturbed parses nodes) kernel events := by
  induction events generalizing kernel with
  | nil => trivial
  | cons event events ih =>
      have watches := watching event List.mem_cons_self
      subst watches
      have kept : (kernel.step parses (.watch 0 unhealthy)).nodes = nodes ∧
          (kernel.step parses (.watch 0 unhealthy)).policy = kernel.policy := by
        simp only [Kernel.step]
        cases kernel.watchdogs[0]? with
        | none => exact ⟨nodes_eq, rfl⟩
        | some watchdog =>
            rw [Option.elim_some, Kernel.watch]
            split
            · exact ⟨nodes_eq, rfl⟩
            · exact ⟨(kernel.perform_records watchdog).2.2.trans nodes_eq,
                (kernel.perform_frame watchdog).1⟩
      rw [← kept.2] at ordered
      exact ⟨⟨kept.1, ordered, Or.inl ⟨0, unhealthy, rfl, rfl⟩⟩,
        ih kept.1 ordered fun event there => watching event (List.mem_cons_of_mem _ there)⟩

/-- With three nodes, of which the first two parse, there is a run which misses the third. -/
theorem not_coversList {first second third : String} {rest : List String}
    (distinct : (first :: second :: third :: rest).Nodup) (first_parses : parses first = true)
    (second_parses : parses second = true) :
    ¬ CoversList parses (first :: second :: third :: rest) := by
  intro covers
  have different : first ≠ second := by
    rintro rfl
    simp at distinct
  rcases @loops_count parses first second (third :: rest) first_parses second_parses different
    (first :: second :: third :: rest).length with ⟨current, switched, loops, -, length_eq, two⟩
  have covered := covers (startInOrder (first :: second :: third :: rest) first) 0
    (List.replicate (first :: second :: third :: rest).length badRounds).flatten
  rw [startInOrder_eq first_parses] at covered
  have switches_eq : (run (Kernel.step parses)
      (watched (first :: second :: third :: rest) first [first] [] (.new 1 0))
      (List.replicate (first :: second :: third :: rest).length badRounds).flatten).switches =
        switched := by
    rcases loops with ⟨engines, deeds, policy, rounds, state, made⟩
    rw [state]
    exact made
  have begins : (watched (first :: second :: third :: rest) first [first] []
      (.new 1 0)).Begins (first :: second :: third :: rest) 0 := by
    refine ⟨rfl, (show orderFields.policy.mode ≠ "best" by decide), ?_, ?_⟩
    · rintro watchdog there
      cases there
      rfl
    · intro other watchdog elsewhere there
      rw [watched, List.getElem?_singleton, if_neg elsewhere] at there
      cases there
  have missed := covered begins (undisturbed_watch rfl begins.ordered ?_) switched
    (by rw [switches_eq]; exact List.infix_refl _) length_eq third (by simp)
  · rcases two third missed with same | same <;> simp [same] at distinct
  · intro event there
    simp [badRounds] at there
    exact there

/-- Two nodes are both reached; if there are more, one of the first two does not parse. -/
theorem mem_window {first second node : String} {rest window : List String}
    {previous : Option String} (different : first ≠ second)
    (chain : (previous :: window.map some).IsChain (SwitchedFrom parses (first :: second :: rest)))
    (length_eq : window.length = (first :: second :: rest).length)
    (short : rest = [] ∨ parses first = false ∨ parses second = false)
    (node_mem : node ∈ first :: second :: rest) : node ∈ window := by
  rcases window with _ | ⟨one, _ | ⟨two, window⟩⟩
  · simp at length_eq
  · simp at length_eq
  · rcases List.isChain_cons_cons.mp chain with ⟨once, chain⟩
    rcases switched_twice different once (List.isChain_cons_cons.mp chain).1 with
      ⟨pair, one_parses, two_parses⟩
    rcases short with rfl | fails
    · grind
    · -- Both of the first two nodes were switched to, so that they parse.
      exfalso
      grind

/--
As many switches as there are nodes reach every node exactly if there are at most two nodes;
or if one of the first two does not parse, in which case there are never as many.
-/
theorem coversList_iff (parses : String → Bool) {nodes : List String} (distinct : nodes.Nodup) :
    CoversList parses nodes ↔
      nodes.length ≤ 2 ∨ ∃ node ∈ nodes.take 2, parses node = false := by
  constructor
  · intro covers
    rcases nodes with _ | ⟨first, _ | ⟨second, _ | ⟨third, rest⟩⟩⟩
    · exact Or.inl (Nat.zero_le _)
    · exact Or.inl (by simp)
    · exact Or.inl le_rfl
    · right
      by_contra all_parse
      simp only [List.take_succ_cons, List.take_zero, List.mem_cons, List.not_mem_nil, or_false,
        exists_eq_or_imp, exists_eq_left, not_or, Bool.not_eq_false] at all_parse
      exact not_coversList distinct all_parse.1 all_parse.2 covers
  · intro short earlier index events begun begins undisturbed window part length_eq node node_mem
    rcases chain_window (switches_chain begins undisturbed) part with ⟨previous, chain⟩
    rcases nodes with _ | ⟨first, _ | ⟨second, rest⟩⟩
    · cases node_mem
    · rcases List.length_eq_one_iff.mp length_eq with ⟨one, rfl⟩
      rcases (List.isChain_cons_cons.mp chain).1 with ⟨_, same, from_previous, -⟩
      cases same
      rw [List.mem_singleton.mp node_mem,
        List.mem_singleton.mp (firstCandidate_mem from_previous)]
      exact List.mem_singleton_self _
    · have different : first ≠ second := by
        rintro rfl
        simp at distinct
      apply mem_window different chain length_eq _ node_mem
      rcases short with few | ⟨bad, bad_mem, fails⟩
      · simp only [List.length_cons] at few
        exact Or.inl (List.length_eq_zero_iff.mp (by omega))
      · have among : bad = first ∨ bad = second := by simpa using bad_mem
        rcases among with rfl | rfl
        · exact Or.inr (Or.inl fails)
        · exact Or.inr (Or.inr fails)

end

theorem coversList_two : CoversList (fun _ => true) ["mirage://a", "mirage://b"] :=
  (coversList_iff (fun _ => true) (by decide)).mpr (Or.inl le_rfl)

theorem not_coversList_three :
    ¬ CoversList (fun _ => true) ["mirage://a", "mirage://b", "mirage://c"] :=
  not_coversList (by decide) rfl rfl

end Mirage.Jni
