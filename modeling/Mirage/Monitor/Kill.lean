import Mirage.Monitor

/-!
# What `close_connection` reaches

A relay which `close_connection` has found is to stop: it has been woken in its
`select!` or has no upload any more, and forwards nothing further.  This holds
throughout a run exactly if every such call finds the relay in its `select!` or
on its way out, and no relay which was woken there takes a transfer first.  A
call between registration and the `select!`, or between two rounds of the mux
loop, returns `true` and is lost.
-/

namespace Mirage.Monitor

open Mirage.Foundations

namespace Relay

theorem obeys_of_not_killed {relay : Relay} (spared : relay.killed = none) : relay.Obeys := by
  intro before killed
  rw [spared] at killed
  cases killed

theorem Obeys.not_killed {relay : Relay} (obeys : relay.Obeys)
    (goesOn : relay.stage.stopping = false) : relay.killed = none := by
  cases killed : relay.killed with
  | none => rfl
  | some before =>
      rw [(obeys before killed).2] at goesOn
      cases goesOn

theorem Obeys.goTo {relay : Relay} (obeys : relay.Obeys) {stage : Stage}
    (stops : stage.stopping = true) : (relay.goTo stage).Obeys := by
  intro before killed
  exact ⟨(obeys before killed).1, stops⟩

@[simp]
theorem goTo_killed (relay : Relay) (stage : Stage) : (relay.goTo stage).killed = relay.killed :=
  rfl

@[simp]
theorem push_killed (relay : Relay) (data : List UInt8) : (relay.push data).killed = relay.killed :=
  rfl

@[simp]
theorem select_killed (relay : Relay) : relay.select.killed = relay.killed :=
  rfl

theorem selectStep_killed (relay : Relay) (notified uploading : Bool) (step : RelayStep) :
    (relay.selectStep notified uploading step).killed = relay.killed := by
  unfold selectStep
  split <;> (try split) <;> (try split) <;> rfl

/-- A relay's own steps never unmark it. -/
theorem act_killed (relay : Relay) (step : RelayStep) :
    (relay.act step).killed = relay.killed := by
  unfold act
  split
  case h_2 => unfold prepared; split <;> (try split) <;> rfl
  case h_3 => unfold prepareFails; split <;> rfl
  case h_6 => exact selectStep_killed ..
  all_goals first | rfl | (split <;> rfl)

/-- Of a killed relay `Obeys` is about what it has forwarded and where it is. -/
theorem obeys_iff_of_killed {relay : Relay} {before : List (List UInt8)}
    (killed : relay.killed = some before) :
    relay.Obeys ↔ relay.forwarded = before ∧ relay.stage.stopping = true := by
  simp [Obeys, killed]

theorem not_obeys_push {relay : Relay} (killed : relay.killed = some relay.forwarded)
    (data : List UInt8) : ¬ (relay.push data).Obeys := by
  intro obeys
  have unchanged := (obeys relay.forwarded killed).1
  simp [push] at unchanged

/-- The woken `select!` is left towards the end by every branch but the transfers. -/
theorem obeys_selectStep_iff {relay : Relay} {uploading : Bool}
    (killed : relay.killed = some relay.forwarded) (here : relay.stage = .selecting true uploading)
    (step : RelayStep) :
    (relay.selectStep true uploading step).Obeys ↔ relay.transfers step = false := by
  have obeys : relay.Obeys := (obeys_iff_of_killed killed).mpr ⟨rfl, by rw [here]; rfl⟩
  have leaves {stage : Stage} : (relay.goTo stage).Obeys ↔ stage.stopping = true := by
    rw [obeys_iff_of_killed (by rw [goTo_killed, killed])]
    exact and_iff_right rfl
  cases step with
  | forward data =>
      simp only [selectStep, transfers, here]
      cases uploading && relay.forwards data with
      | false => exact iff_of_true obeys rfl
      | true => exact iff_of_false (not_obeys_push killed data) (by simp)
  | receive payload framed =>
      simp only [selectStep, transfers, here, select]
      by_cases mux : relay.kind = .mux
      · cases framed <;> simp [mux, leaves, Stage.stopping]
      · simp [mux, obeys]
  | uploadEnds =>
      simp only [selectStep, transfers, here]
      cases relay.kind <;> simp [leaves, Stage.stopping, obeys]
  | downloadEnds =>
      simp only [selectStep, transfers, here]
      cases relay.kind.isTcp <;> simp [leaves, Stage.stopping, obeys]
  | ends =>
      simp only [selectStep, transfers, here]
      split <;> simp [leaves, Stage.stopping, obeys]
  | aborted => simp [selectStep, transfers, here, leaves, Stage.stopping]
  | abandoned | prepared prefetched | prepareFails | initialWritten | initialFails | sent succeeds
  | drained =>
      simp [selectStep, transfers, here, obeys]

/-- A killed relay which is on its way out stays there unless it takes a transfer. -/
theorem obeys_act_iff {relay : Relay} (obeys : relay.Obeys) (step : RelayStep) :
    (relay.act step).Obeys ↔ (relay.killed.isSome = true → relay.transfers step = false) := by
  cases killed : relay.killed with
  | none => exact iff_of_true (obeys_of_not_killed (by rw [act_killed, killed])) (by simp)
  | some before =>
      rcases obeys before killed with ⟨rfl, stopping⟩
      simp only [Option.isSome_some, forall_const]
      cases here : relay.stage with
      | selecting notified uploading =>
          have woken : notified = true := by simpa [here, Stage.stopping] using stopping
          subst woken
          simp only [act, here]
          exact obeys_selectStep_iff killed here step
      | drainingDown =>
          have left : (relay.goTo .closing).Obeys := obeys.goTo rfl
          cases step <;> simp [act, transfers, here, obeys, left]
      | closing | done => simp [act, transfers, here, obeys]
      | unregistered | preparing | sendingInitial | sending | drainingUp | fallingBack =>
          simp [here, Stage.stopping] at stopping

theorem obeys_notify {relay : Relay} (obeys : relay.Obeys) : relay.notify.Obeys := by
  unfold notify
  split
  · exact obeys.goTo rfl
  · exact obeys

/-- The call stops the relay exactly if it comes while the relay hears it. -/
theorem obeys_kill_iff {relay : Relay} (obeys : relay.Obeys) :
    relay.kill.Obeys ↔ relay.stage.hears = true := by
  have forwarded : relay.notify.forwarded = relay.forwarded := by
    unfold notify
    split <;> rfl
  have stopping : relay.notify.stage.stopping = relay.stage.hears := by
    unfold notify
    split
    · simp_all [goTo, Stage.stopping, Stage.hears]
    · cases here : relay.stage <;> simp_all [Stage.stopping, Stage.hears]
  cases killed : relay.killed with
  | none =>
      have marked : relay.kill.killed = some relay.forwarded := by simp [kill, killed]
      rw [obeys_iff_of_killed marked]
      simp [kill, forwarded, stopping]
  | some before =>
      have marked : relay.kill.killed = some before := by simp [kill, killed]
      rw [obeys_iff_of_killed marked]
      simp [kill, forwarded, stopping, (obeys before killed).1]

/-- How many steps of its own a relay which is to stop has still to take. -/
def remaining (relay : Relay) : ℕ :=
  match relay.stage with
  | .selecting _ true => 4
  | .selecting _ false => 3
  | .drainingDown => 2
  | .closing => 1
  | _ => 0

theorem remaining_goTo {relay : Relay} {stage : Stage} (here : relay.stage = stage) :
    relay.goTo stage = relay := by
  subst here
  rfl

/-- In the woken `select!` every step but a transfer brings the relay nearer to its end. -/
theorem selectStep_remaining {relay : Relay} {uploading : Bool}
    (here : relay.stage = .selecting true uploading) {step : RelayStep}
    (stays : relay.transfers step = false) :
    relay.selectStep true uploading step = relay ∨
      (relay.selectStep true uploading step).remaining < relay.remaining := by
  have inSelect : 3 ≤ relay.remaining := by
    cases uploading <;> simp [remaining, here]
  have nearer {stage : Stage} (less : (relay.goTo stage).remaining < 3) :
      relay.goTo stage = relay ∨ (relay.goTo stage).remaining < relay.remaining :=
    Or.inr (Nat.lt_of_lt_of_le less inSelect)
  cases step with
  | forward data =>
      simp only [transfers, here] at stays
      simp [selectStep, stays]
  | receive payload framed =>
      simp only [transfers, here, beq_eq_false_iff_ne] at stays
      simp [selectStep, stays]
  | uploadEnds =>
      simp only [selectStep]
      split
      · exact nearer (by simp [remaining, goTo])
      · exact nearer (by simp [remaining, goTo])
      · cases uploading with
        | true => right; simp [remaining, goTo, here]
        | false => exact Or.inl (remaining_goTo here)
      · cases uploading with
        | true => right; simp [remaining, goTo, here]
        | false => exact Or.inl (remaining_goTo here)
      all_goals exact Or.inl rfl
  | downloadEnds =>
      simp only [transfers, here] at stays
      simp [selectStep, stays]
  | ends =>
      simp only [selectStep]
      split
      · exact nearer (by simp [remaining, goTo])
      · exact Or.inl rfl
  | aborted => exact nearer (by simp [remaining, goTo])
  | abandoned | prepared | prepareFails | initialWritten | initialFails | sent | drained =>
      exact Or.inl rfl

/-- A relay which is to stop takes at most four more steps of its own. -/
theorem act_remaining {relay : Relay} (stops : relay.stage.stopping = true) {step : RelayStep}
    (stays : relay.transfers step = false) :
    relay.act step = relay ∨ (relay.act step).remaining < relay.remaining := by
  cases here : relay.stage with
  | selecting notified uploading =>
      have woken : notified = true := by simpa [here, Stage.stopping] using stops
      subst woken
      simp only [act, here]
      exact selectStep_remaining here stays
  | drainingDown => cases step <;> simp [act, here, remaining, goTo]
  | closing | done => simp [act, here]
  | unregistered | preparing | sendingInitial | sending | drainingUp | fallingBack =>
      simp [here, Stage.stopping] at stops

/-- A relay which is to stop can go on until its entry is the only thing left. -/
theorem exists_act_remaining {relay : Relay} (stops : relay.stage.stopping = true)
    (goesOn : relay.stage ≠ .done) :
    relay.stage = .closing ∨ ∃ step, relay.transfers step = false ∧
      (relay.act step).remaining < relay.remaining := by
  cases here : relay.stage with
  | selecting notified uploading =>
      have woken : notified = true := by simpa [here, Stage.stopping] using stops
      subst woken
      refine Or.inr ⟨.aborted, by simp [transfers, here], ?_⟩
      cases uploading <;> simp [act, here, selectStep, remaining, goTo]
  | drainingDown =>
      exact Or.inr ⟨.drained, by simp [transfers, here], by simp [act, here, remaining, goTo]⟩
  | closing => exact Or.inl rfl
  | done => exact absurd here goesOn
  | unregistered | preparing | sendingInitial | sending | drainingUp | fallingBack =>
      simp [here, Stage.stopping] at stops

end Relay

namespace Registry

/--
A call finds its relay in the `select!` or on its way out, and a relay which was
killed there takes no transfer before the branch it was woken for.
-/
def Heeds (registry : Registry) : RegistryEvent → Prop
  | .closeConnection id =>
      ∀ index ∈ registry.active.lookup id, ∀ relay ∈ registry.relays[index]?,
        relay.stage.hears = true
  | .act index step =>
      ∀ relay ∈ registry.relays[index]?, relay.killed.isSome = true → relay.transfers step = false
  | _ => True

/-- Every killed relay is going to stop, and has forwarded nothing since. -/
def Obeyed (registry : Registry) : Prop :=
  ∀ relay ∈ registry.relays, relay.Obeys

instance (registry : Registry) : Decidable registry.Obeyed :=
  inferInstanceAs (Decidable (∀ relay ∈ registry.relays, relay.Obeys))

theorem Obeyed.modify {registry : Registry} (obeyed : registry.Obeyed) {index : ℕ}
    {change : Relay → Relay}
    (changed : ∀ relay ∈ registry.relays[index]?, relay.Obeys → (change relay).Obeys) :
    (registry.modify index change).Obeyed :=
  forall_mem_modify obeyed changed

theorem Obeyed.at {registry : Registry} (obeyed : registry.Obeyed) {index : ℕ} {relay : Relay}
    (found : registry.relays[index]? = some relay) : relay.Obeys :=
  obeyed relay (List.mem_of_getElem? found)

theorem Obeyed.of_modify {registry : Registry} {index : ℕ} {change : Relay → Relay}
    (obeyed : (registry.modify index change).Obeyed) {relay : Relay}
    (found : registry.relays[index]? = some relay) : (change relay).Obeys :=
  obeyed _ (mem_modify_of_getElem? found change)

theorem obeyed_recordConnStart {registry : Registry} (obeyed : registry.Obeyed) (index : ℕ) :
    (registry.recordConnStart index).Obeyed := by
  unfold recordConnStart
  split
  · rename_i here
    apply forall_mem_modify obeyed
    intro relay found obeys
    have unregistered : relay.stage = .unregistered := by simpa [found] using here
    exact Relay.obeys_of_not_killed (obeys.not_killed (by rw [unregistered]; rfl))
  · exact obeyed

theorem obeyed_recordConnClose {registry : Registry} (obeyed : registry.Obeyed) (index : ℕ) :
    (registry.recordConnClose index).Obeyed := by
  unfold recordConnClose
  split
  · exact obeyed
  · rename_i relay found
    split
    · exact forall_mem_modify obeyed fun _ _ obeys => obeys.goTo rfl
    · rename_i here
      have spared := (obeyed.at found).not_killed (by rw [here]; rfl)
      apply forall_mem_modify obeyed
      intro other same _
      rw [found, Option.some.injEq] at same
      subst same
      exact Relay.obeys_of_not_killed spared
    · exact obeyed

theorem obeyed_closeAllConnections {registry : Registry} (obeyed : registry.Obeyed) :
    registry.closeAllConnections.1.Obeyed := by
  unfold closeAllConnections
  generalize registry.active.entries.map Sigma.snd = indices
  induction indices generalizing registry with
  | nil => exact obeyed
  | cons index indices ih =>
      exact ih (obeyed.modify fun _ _ obeys => Relay.obeys_notify obeys)

theorem obeyed_step {registry : Registry} {event : RegistryEvent} (obeyed : registry.Obeyed)
    (heeds : registry.Heeds event) : (registry.step event).Obeyed := by
  cases event with
  | start kind initial mayFallBack =>
      intro relay there
      rcases List.mem_append.mp there with old | new
      · exact obeyed relay old
      · rw [List.mem_singleton.mp new]
        exact Relay.obeys_of_not_killed rfl
  | recordConnStart index => exact obeyed_recordConnStart obeyed index
  | act index step =>
      exact obeyed.modify fun relay found obeys =>
        (Relay.obeys_act_iff obeys step).mpr (heeds relay found)
  | recordConnClose index => exact obeyed_recordConnClose obeyed index
  | closeConnection id =>
      simp only [step, closeConnection]
      split
      · rename_i index registered
        exact obeyed.modify fun relay found obeys =>
          (Relay.obeys_kill_iff obeys).mpr (heeds index registered relay found)
      · exact obeyed
  | closeAllConnections => exact obeyed_closeAllConnections obeyed
  | resetSession => exact obeyed

theorem heeds_of_obeyed_step {registry : Registry} {event : RegistryEvent}
    (obeyed : registry.Obeyed) (after : (registry.step event).Obeyed) : registry.Heeds event := by
  cases event with
  | act index step =>
      intro relay found
      exact (Relay.obeys_act_iff (obeyed.at found) step).mp (after.of_modify found)
  | closeConnection id =>
      intro index registered relay found
      have closes : registry.step (.closeConnection id) = registry.modify index Relay.kill := by
        simp only [step, closeConnection]
        rw [Option.mem_def.mp registered]
      rw [closes] at after
      exact (Relay.obeys_kill_iff (obeyed.at found)).mp (after.of_modify found)
  | start | recordConnStart | recordConnClose | closeAllConnections | resetSession => trivial

/-- Every id in use is the id of a relay. -/
def Bound (registry : Registry) : Prop :=
  ∀ id index, registry.active.lookup id = some index → index < registry.relays.length

theorem Bound.erase {registry : Registry} (bound : registry.Bound) {relays : List Relay}
    (same : relays.length = registry.relays.length) (erased : UInt64) :
    Bound { registry with active := registry.active.erase erased, relays := relays } := by
  intro id index registered
  change AList.lookup id (registry.active.erase erased) = some index at registered
  change index < relays.length
  rw [same]
  by_cases equal : id = erased
  · rw [equal, AList.lookup_erase] at registered
    cases registered
  · rw [AList.lookup_erase_ne equal] at registered
    exact bound id index registered

theorem Bound.of_relays {registry : Registry} (bound : registry.Bound) {relays : List Relay}
    (atLeast : registry.relays.length ≤ relays.length) : Bound { registry with relays := relays } :=
  fun id index registered => Nat.lt_of_lt_of_le (bound id index registered) atLeast

theorem Bound.modify {registry : Registry} (bound : registry.Bound) (index : ℕ)
    (change : Relay → Relay) : (registry.modify index change).Bound :=
  bound.of_relays (by rw [List.length_modify])

theorem bound_step {registry : Registry} (event : RegistryEvent) (bound : registry.Bound) :
    (registry.step event).Bound := by
  cases event with
  | start kind initial mayFallBack => exact bound.of_relays (by simp)
  | recordConnStart starting =>
      simp only [step, recordConnStart]
      split
      · rename_i here
        intro id index registered
        change AList.lookup id (registry.active.insert registry.nextConnId starting) =
          some index at registered
        change index < (registry.relays.modify _ _).length
        rw [List.length_modify]
        by_cases new : id = registry.nextConnId
        · rw [new, AList.lookup_insert, Option.some.injEq] at registered
          rcases Option.map_eq_some_iff.mp here with ⟨relay, found, _⟩
          rw [← registered]
          exact (List.getElem?_eq_some_iff.mp found).1
        · rw [AList.lookup_insert_ne new] at registered
          exact bound id index registered
      · exact bound
  | act index step => exact bound.modify index _
  | recordConnClose index =>
      simp only [step, recordConnClose]
      split
      · exact bound
      · split
        · exact bound.erase (List.length_modify ..) _
        · exact bound.erase (List.length_modify ..) _
        · exact bound
  | closeConnection id =>
      simp only [step, closeConnection]
      split
      · exact bound.modify _ _
      · exact bound
  | closeAllConnections =>
      simp only [step, closeAllConnections]
      generalize registry.active.entries.map Sigma.snd = indices
      induction indices generalizing registry with
      | nil => exact bound
      | cons index indices ih => exact ih (bound.modify index _)
  | resetSession => intro id index registered; cases registered

/-- A call which returns `true` has marked the relay which is registered under the id. -/
theorem closeConnection_kills (events : List RegistryEvent) (id : UInt64)
    (closes : ((run step new events).closeConnection id).2 = true) :
    ∃ index relay, (run step new events).active.lookup id = some index ∧
      ((run step new events).closeConnection id).1.relays[index]? = some relay ∧
      relay.killed.isSome = true := by
  have bound : (run step new events).Bound :=
    run_invariant events (fun event bound => bound_step event bound)
      (by intro id index registered; cases registered)
  revert closes bound
  generalize run step new events = registry
  intro closes bound
  unfold closeConnection at closes ⊢
  cases registered : registry.active.lookup id with
  | none => simp [registered] at closes
  | some index =>
      have inside := bound id index registered
      refine ⟨index, registry.relays[index].kill, rfl, ?_, ?_⟩
      · simp [modify, List.getElem?_eq_getElem inside]
      · cases killed : registry.relays[index].killed <;> simp [Relay.kill, killed]

end Registry

/--
`close_connection` is effective throughout a run exactly if each call finds its
relay in the `select!` or on its way out, and no relay which was killed there
takes a transfer first.
-/
theorem kill_effective_iff (events : List RegistryEvent) :
    Throughout Registry.step Registry.Obeyed Registry.new events ↔
      Along Registry.step Registry.Heeds Registry.new events :=
  throughout_iff_along Registry.Obeyed id (fun _ obeyed heeds => Registry.obeyed_step obeyed heeds)
    (fun _ obeyed after => Registry.heeds_of_obeyed_step obeyed after)
    (Along.of_forall fun _ _ => trivial) (by intro relay there; cases there)

/--
`close_connection` returns `true` while a proxy relay prefetches, and while a mux
relay sends a datagram; both go on to forward whatever the client sends.
-/
theorem kill_lost_before_select :
    let proxy : List RegistryEvent := [.start .proxy [] false, .recordConnStart 0]
    let goesOn : List RegistryEvent :=
      [.closeConnection 1, .act 0 (.prepared [7]), .act 0 .initialWritten, .act 0 (.forward [8])]
    let mux : List RegistryEvent :=
      [.start .mux [] false, .recordConnStart 0, .act 0 (.prepared []), .act 0 (.receive [7] true)]
    let sendsOn : List RegistryEvent :=
      [.closeConnection 1, .act 0 (.sent true), .act 0 (.receive [8] true), .act 0 (.sent true)]
    ((run Registry.step Registry.new proxy).closeConnection 1).2 = true ∧
      (run Registry.step Registry.new (proxy ++ goesOn)).relays.map Relay.forwarded =
        [[[7], [8]]] ∧
      ((run Registry.step Registry.new mux).closeConnection 1).2 = true ∧
      (run Registry.step Registry.new (mux ++ sendsOn)).relays.map Relay.forwarded =
        [[[7], [8]]] ∧
      ¬ Throughout Registry.step Registry.Obeyed Registry.new (proxy ++ goesOn) ∧
      ¬ Throughout Registry.step Registry.Obeyed Registry.new (mux ++ sendsOn) := by
  refine ⟨by decide +kernel, by decide +kernel, by decide +kernel, by decide +kernel, ?_, ?_⟩
  · intro obeyed
    exact absurd obeyed.run (by decide +kernel)
  · intro obeyed
    exact absurd obeyed.run (by decide +kernel)

end Mirage.Monitor
