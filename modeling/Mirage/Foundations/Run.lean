import Mathlib.Data.List.Basic
import Mathlib.Data.List.Perm.Subperm

/-!
# Runs of event-driven machines

A machine is given by a total step function.  An event which is not enabled in
a state leaves that state unchanged, so every list of events is a run and a
property of all runs is a property of all interleavings of the events.

Safety is proved from an inductive invariant.  `Along` restricts a run to the
events which meet a guard in the state they are taken from; it is used where an
invariant is preserved only by such events.
-/

namespace Mirage.Foundations

universe u v w

variable {State : Type u} {Event : Type v} {Component : Type w}
  {step : State → Event → State}

/-- The state reached from `state` by a finite run of events. -/
def run (step : State → Event → State) (state : State) (events : List Event) : State :=
  events.foldl step state

@[simp]
theorem run_nil (state : State) : run step state [] = state :=
  rfl

@[simp]
theorem run_cons (state : State) (event : Event) (events : List Event) :
    run step state (event :: events) = run step (step state event) events :=
  rfl

theorem run_append (state : State) (first second : List Event) :
    run step state (first ++ second) = run step (run step state first) second :=
  List.foldl_append

/-- Every event of a run meets `guard` in the state it is taken from. -/
def Along (step : State → Event → State) (guard : State → Event → Prop) :
    State → List Event → Prop
  | _, [] => True
  | state, event :: events => guard state event ∧ Along step guard (step state event) events

instance decidableAlong {guard : State → Event → Prop}
    [decidableGuard : ∀ state event, Decidable (guard state event)] :
    ∀ state events, Decidable (Along step guard state events)
  | _, [] => .isTrue trivial
  | state, event :: events =>
      have : Decidable (Along step guard (step state event) events) := decidableAlong _ _
      inferInstanceAs (Decidable (guard state event ∧ _))

theorem Along.append {guard : State → Event → Prop} {state : State} {first second : List Event} :
    Along step guard state (first ++ second) ↔
      Along step guard state first ∧ Along step guard (run step state first) second := by
  induction first generalizing state with
  | nil => simp [Along]
  | cons event events ih => simp [Along, ih, and_assoc]

theorem run_invariant {invariant : State → Prop} {state : State} (events : List Event)
    (preserved : ∀ {state} event, invariant state → invariant (step state event))
    (initially : invariant state) : invariant (run step state events) := by
  induction events generalizing state with
  | nil => exact initially
  | cons event events ih => exact ih (preserved event initially)

/-- An invariant preserved by guarded events holds after every guarded run. -/
theorem run_invariant_along {guard : State → Event → Prop} {invariant : State → Prop}
    {state : State} {events : List Event}
    (preserved : ∀ {state event}, guard state event → invariant state →
      invariant (step state event))
    (guarded : Along step guard state events) (initially : invariant state) :
    invariant (run step state events) := by
  induction events generalizing state with
  | nil => exact initially
  | cons event events ih =>
      rcases guarded with ⟨enabled, rest⟩
      exact ih rest (preserved enabled initially)

/--
A property which every event keeps exactly when it meets a guard holds after a
run exactly when it held before and every event met the guard.
-/
theorem run_iff_along {guard : State → Event → Prop} {invariant good : State → Prop}
    {state : State} (events : List Event)
    (preserved : ∀ {state} event, invariant state → invariant (step state event))
    (one_step : ∀ {state} event, invariant state →
      (good (step state event) ↔ good state ∧ guard state event))
    (initially : invariant state) :
    good (run step state events) ↔ good state ∧ Along step guard state events := by
  induction events generalizing state with
  | nil => simp [Along]
  | cons event events ih =>
      rw [run_cons, ih (preserved event initially), one_step event initially, Along, and_assoc]

/-- A guard which every event meets is met along every run. -/
theorem Along.of_forall {guard : State → Event → Prop} {state : State} {events : List Event}
    (met : ∀ state event, guard state event) : Along step guard state events := by
  induction events generalizing state with
  | nil => trivial
  | cons event events ih => exact ⟨met state event, ih⟩

theorem Along.and {first second : State → Event → Prop} {state : State} {events : List Event} :
    Along step (fun state event => first state event ∧ second state event) state events ↔
      Along step first state events ∧ Along step second state events := by
  induction events generalizing state with
  | nil => simp [Along]
  | cons event events ih =>
      simp only [Along, ih]
      exact and_and_and_comm

/-- A guard on the events alone. -/
theorem along_iff_forall_mem {guard : Event → Prop} {state : State} {events : List Event} :
    Along step (fun _ event => guard event) state events ↔ ∀ event ∈ events, guard event := by
  induction events generalizing state with
  | nil => simp [Along]
  | cons event events ih => rw [Along, ih, List.forall_mem_cons]

/-- The largest value which something has in the states of a run -/
def peakAlong (step : State → Event → State) (measure : State → ℕ) : State → List Event → ℕ
  | state, [] => measure state
  | state, event :: events =>
      max (measure state) (peakAlong step measure (step state event) events)

theorem le_peakAlong (measure : State → ℕ) (state : State) (events : List Event) :
    measure state ≤ peakAlong step measure state events := by
  cases events with
  | nil => exact Nat.le_refl _
  | cons event events => exact Nat.le_max_left _ _

/-- The values after the events of a run are at most the largest. -/
theorem along_of_peakAlong_le {measure : State → ℕ} {bound : ℕ} {state : State}
    {events : List Event} (within : peakAlong step measure state events ≤ bound) :
    Along step (fun state event => measure (step state event) ≤ bound) state events := by
  induction events generalizing state with
  | nil => trivial
  | cons event events ih =>
      have later := Nat.le_trans (Nat.le_max_right _ _) within
      exact ⟨Nat.le_trans (le_peakAlong measure (step state event) events) later, ih later⟩

/-- The number of events of a run which are of a kind, in the state they are taken from -/
def countAlong (step : State → Event → State) (counted : State → Event → Prop)
    [decidableCounted : ∀ state event, Decidable (counted state event)] : State → List Event → ℕ
  | _, [] => 0
  | state, event :: events =>
      (if counted state event then 1 else 0) + countAlong step counted (step state event) events

theorem countAlong_congr {first second : State → Event → Prop}
    [decidableFirst : ∀ state event, Decidable (first state event)]
    [decidableSecond : ∀ state event, Decidable (second state event)]
    (same : ∀ state event, first state event ↔ second state event) (state : State)
    (events : List Event) :
    countAlong step first state events = countAlong step second state events := by
  induction events generalizing state with
  | nil => rfl
  | cons event events ih => simp only [countAlong, same, ih]

/-- A property of every state of a run, the first one included. -/
def Throughout (step : State → Event → State) (good : State → Prop) : State → List Event → Prop
  | state, [] => good state
  | state, event :: events => good state ∧ Throughout step good (step state event) events

theorem Throughout.here {good : State → Prop} {state : State} {events : List Event}
    (throughout : Throughout step good state events) : good state := by
  cases events with
  | nil => exact throughout
  | cons event events => exact throughout.1

theorem Throughout.run {good : State → Prop} {state : State} {events : List Event}
    (throughout : Throughout step good state events) : good (run step state events) := by
  induction events generalizing state with
  | nil => exact throughout
  | cons event events ih => exact ih throughout.2

/-- What holds throughout a run holds before and after each of its events. -/
theorem Throughout.along {good : State → Prop} {state : State} {events : List Event}
    (throughout : Throughout step good state events) :
    Along step (fun state event => good state ∧ good (step state event)) state events := by
  induction events generalizing state with
  | nil => trivial
  | cons event events ih => exact ⟨⟨throughout.1, throughout.2.here⟩, ih throughout.2⟩

/-- An invariant which the guarded events keep gives a property of every guarded event. -/
theorem Along.of_invariant {guard property : State → Event → Prop} (invariant : State → Prop)
    {state : State} {events : List Event}
    (enough : ∀ {state event}, invariant state → guard state event → property state event)
    (kept : ∀ {state event}, invariant state → guard state event → invariant (step state event))
    (guarded : Along step guard state events) (initially : invariant state) :
    Along step property state events := by
  induction events generalizing state with
  | nil => trivial
  | cons event events ih =>
      rcases guarded with ⟨met, rest⟩
      exact ⟨enough initially met, ih rest (kept initially met)⟩

/-- Two guards which mean the same while an invariant holds are met along the same runs. -/
theorem along_congr {first second : State → Event → Prop} (invariant : State → Prop)
    {state : State} {events : List Event}
    (same : ∀ {state event}, invariant state → (first state event ↔ second state event))
    (kept : ∀ {state event}, invariant state → second state event → invariant (step state event))
    (initially : invariant state) :
    Along step first state events ↔ Along step second state events := by
  induction events generalizing state with
  | nil => exact Iff.rfl
  | cons event events ih =>
      simp only [Along, same initially]
      apply and_congr_right
      intro met
      exact ih (kept initially met)

/-- An invariant which the guarded events keep gives a property of every state of a guarded run. -/
theorem throughout_of_along {guard : State → Event → Prop} (invariant : State → Prop)
    {good : State → Prop} {state : State} {events : List Event}
    (enough : ∀ {state}, invariant state → good state)
    (kept : ∀ {state event}, invariant state → guard state event → invariant (step state event))
    (guarded : Along step guard state events) (initially : invariant state) :
    Throughout step good state events := by
  induction events generalizing state with
  | nil => exact enough initially
  | cons event events ih =>
      rcases guarded with ⟨met, rest⟩
      exact ⟨enough initially, ih rest (kept initially met)⟩

/--
An invariant which gives the property is kept by the events that meet a guard,
and any other event destroys the property: then the property holds throughout
an allowed run exactly if the guard is met along it.
-/
theorem throughout_iff_along {allowed guard : State → Event → Prop} (invariant : State → Prop)
    {good : State → Prop} {state : State} {events : List Event}
    (enough : ∀ {state}, invariant state → good state)
    (kept : ∀ {state event}, allowed state event → invariant state → guard state event →
      invariant (step state event))
    (broken : ∀ {state event}, allowed state event → invariant state →
      good (step state event) → guard state event)
    (permitted : Along step allowed state events) (initially : invariant state) :
    Throughout step good state events ↔ Along step guard state events := by
  induction events generalizing state with
  | nil => exact iff_of_true (enough initially) trivial
  | cons event events ih =>
      rcases permitted with ⟨here, rest⟩
      constructor
      · rintro ⟨_, throughout⟩
        have met := broken here initially throughout.here
        exact ⟨met, (ih rest (kept here initially met)).mp throughout⟩
      · rintro ⟨met, along⟩
        exact ⟨enough initially, (ih rest (kept here initially met)).mpr along⟩

/-- Of the components after a step, one is new and the others were there. -/
theorem getElem?_set_cases {components : List Component} {index other : ℕ}
    {new found : Component} (here : (components.set index new)[other]? = some found) :
    index = other ∧ new = found ∨ index ≠ other ∧ components[other]? = some found := by
  rw [List.getElem?_set] at here
  split at here
  · rename_i same
    split at here
    · exact Or.inl ⟨same, Option.some.inj here⟩
    · cases here
  · rename_i different
    exact Or.inr ⟨different, here⟩

/-- Another component than the one which steps is still there afterwards. -/
theorem mem_set_of_ne {components : List Component} {index : ℕ} {old other : Component}
    (found : components[index]? = some old) (there : other ∈ components)
    (different : other ≠ old) (new : Component) : other ∈ components.set index new := by
  rcases List.mem_iff_getElem?.mp there with ⟨place, at_place⟩
  have elsewhere : index ≠ place := by
    rintro rfl
    rw [at_place, Option.some.injEq] at found
    exact different found
  apply List.mem_of_getElem?
  rw [List.getElem?_set_ne elsewhere, at_place]

/-- One component of a system steps, and its part of the property depends on a condition. -/
theorem forall_mem_set_iff {components : List Component} {index : ℕ} {old new : Component}
    (found : components[index]? = some old) {good : Component → Prop} {condition : Prop}
    (one_step : good new ↔ good old ∧ condition) :
    (∀ component ∈ components.set index new, good component) ↔
      (∀ component ∈ components, good component) ∧ condition := by
  induction components generalizing index with
  | nil => simp at found
  | cons first rest ih =>
      cases index with
      | zero =>
          simp only [List.getElem?_cons_zero, Option.some.injEq] at found
          subst found
          simp only [List.set_cons_zero, List.forall_mem_cons, one_step]
          exact and_right_comm
      | succ index =>
          simp only [List.getElem?_cons_succ] at found
          simp only [List.set_cons_succ, List.forall_mem_cons, ih found, and_assoc]

/-- One component of a system steps, and with it the number of those which pass a test. -/
theorem countP_set_add {components : List Component} {index : ℕ} {old : Component}
    (found : components[index]? = some old) (test : Component → Bool) (new : Component) :
    (components.set index new).countP test + (test old).toNat =
      components.countP test + (test new).toNat := by
  rcases List.getElem?_eq_some_iff.mp found with ⟨inside, rfl⟩
  rw [List.countP_set inside]
  have counted : test components[index] = true → 0 < components.countP test := fun passes =>
    List.countP_pos_iff.mpr ⟨_, List.getElem_mem inside, passes⟩
  cases before : test components[index] with
  | false => cases test new <;> simp
  | true =>
      have positive := counted before
      cases test new <;> simp <;> omega

/-- Where the components which pass a test have their places, there are at most so many. -/
theorem countP_le_length {components : List Component} {test : Component → Bool} {places : List ℕ}
    (found : ∀ index component, components[index]? = some component → test component = true →
      index ∈ places) :
    components.countP test ≤ places.length := by
  have counted : components.countP test =
      ((components.zipIdx.filter fun entry => test entry.1).map Prod.snd).length := by
    conv_lhs => rw [← List.zipIdx_map_fst 0 components]
    rw [List.countP_map, List.countP_eq_length_filter, List.length_map]
    rfl
  have distinct : ((components.zipIdx.filter fun entry => test entry.1).map Prod.snd).Nodup := by
    apply List.Nodup.sublist (List.filter_sublist.map Prod.snd)
    rw [List.zipIdx_map_snd]
    exact List.nodup_range'
  rw [counted]
  apply (List.subperm_of_subset distinct _).length_le
  intro index member
  rcases List.mem_map.mp member with ⟨⟨component, place⟩, kept, rfl⟩
  rw [List.mem_filter] at kept
  exact found place component (List.mem_zipIdx_iff_getElem?.mp kept.1) kept.2

theorem countP_set_le {components : List Component} {index : ℕ} {old new : Component}
    {test : Component → Bool} (found : components[index]? = some old)
    (kept : test new = true → test old = true) :
    (components.set index new).countP test ≤ components.countP test := by
  have counted := countP_set_add found test new
  have fewer : (test new).toNat ≤ (test old).toNat := by
    cases after : test new with
    | false => simp
    | true => simp [kept after]
  omega

/-- The components which pass a test: one of them, and the others. -/
theorem countP_of_getElem? {components : List Component} {index : ℕ} {old : Component}
    (found : components[index]? = some old) (test : Component → Bool) :
    components.countP test = (test old).toNat + (components.eraseIdx index).countP test := by
  rcases List.getElem?_eq_some_iff.mp found with ⟨inside, rfl⟩
  conv_lhs => rw [← List.take_append_drop index components, List.drop_eq_getElem_cons inside]
  rw [List.eraseIdx_eq_take_drop_succ]
  simp only [List.countP_append, List.countP_cons]
  cases test components[index] with
  | false => simp
  | true => simp; omega

/-- Where at most one component passes a test, the others do not. -/
theorem any_eraseIdx_of_countP {components : List Component} {index : ℕ} {old : Component}
    {test : Component → Bool} (found : components[index]? = some old)
    (one : components.countP test ≤ 1) (passes : test old = true) :
    (components.eraseIdx index).any test = false := by
  rw [countP_of_getElem? found, passes, Bool.toNat_true] at one
  have none : (components.eraseIdx index).countP test = 0 := by omega
  rw [List.any_eq_false]
  exact List.countP_eq_zero.mp none

/-- A test of all components: of one of them, and of the others. -/
theorem any_of_getElem? {components : List Component} {index : ℕ} {old : Component}
    (found : components[index]? = some old) (test : Component → Bool) :
    components.any test = (test old || (components.eraseIdx index).any test) := by
  rcases List.getElem?_eq_some_iff.mp found with ⟨inside, rfl⟩
  conv_lhs => rw [← List.take_append_drop index components, List.drop_eq_getElem_cons inside]
  rw [List.eraseIdx_eq_take_drop_succ]
  simp only [List.any_append, List.any_cons]
  exact Bool.or_left_comm _ _ _

/-- A test of all components after one has stepped: of the new one, and of the others. -/
theorem any_set {components : List Component} {index : ℕ} {old : Component}
    (found : components[index]? = some old) (new : Component) (test : Component → Bool) :
    (components.set index new).any test = (test new || (components.eraseIdx index).any test) := by
  have inside := (List.getElem?_eq_some_iff.mp found).1
  rw [List.set_eq_take_append_cons_drop, if_pos inside, List.eraseIdx_eq_take_drop_succ]
  simp only [List.any_append, List.any_cons]
  exact Bool.or_left_comm _ _ _

theorem any_false_of_imp {components : List Component} {test weaker : Component → Bool}
    (none : components.any weaker = false)
    (passes : ∀ component, test component = true → weaker component = true) :
    components.any test = false := by
  rw [List.any_eq_false] at none ⊢
  exact fun component there holds => none component there (passes component holds)

theorem any_set_of_eq {components : List Component} {index : ℕ} {old new : Component}
    {test : Component → Bool} (found : components[index]? = some old) (same : test new = test old) :
    (components.set index new).any test = components.any test := by
  rw [any_set found, any_of_getElem? found, same]

theorem any_set_of_imp {components : List Component} {index : ℕ} {old new : Component}
    {test : Component → Bool} (found : components[index]? = some old)
    (kept : test old = true → test new = true) (before : components.any test = true) :
    (components.set index new).any test = true := by
  rw [any_of_getElem? found, Bool.or_eq_true] at before
  rw [any_set found, Bool.or_eq_true]
  exact before.imp_left kept

theorem set_of_getElem? {components : List Component} {index : ℕ} {old : Component}
    (found : components[index]? = some old) : components.set index old = components := by
  rcases List.getElem?_eq_some_iff.mp found with ⟨inside, rfl⟩
  exact List.set_getElem_self inside

theorem modify_of_getElem? {components : List Component} {index : ℕ} {old : Component}
    (found : components[index]? = some old) (change : Component → Component) :
    components.modify index change = components.set index (change old) := by
  apply List.ext_getElem?
  intro other
  rw [List.getElem?_modify, List.getElem?_set]
  split
  · rename_i same
    subst same
    rw [found, if_pos (List.getElem?_eq_some_iff.mp found).1]
    rfl
  · simp

/-- One component of a system is changed, and the others keep the property. -/
theorem forall_mem_modify {components : List Component} {index : ℕ} {change : Component → Component}
    {good : Component → Prop} (before : ∀ component ∈ components, good component)
    (changed : ∀ component, components[index]? = some component → good component →
      good (change component)) :
    ∀ component ∈ components.modify index change, good component := by
  intro component there
  rcases List.mem_iff_getElem?.mp there with ⟨other, found⟩
  rw [List.getElem?_modify] at found
  split at found
  · rename_i same
    subst same
    rcases Option.map_eq_some_iff.mp found with ⟨old, here, rfl⟩
    exact changed old here (before old (List.mem_of_getElem? here))
  · rw [id_map'] at found
    exact before component (List.mem_of_getElem? found)

theorem mem_modify_of_getElem? {components : List Component} {index : ℕ} {old : Component}
    (found : components[index]? = some old) (change : Component → Component) :
    change old ∈ components.modify index change := by
  apply List.mem_of_getElem?
  rw [List.getElem?_modify_eq, found]
  rfl

/-- Where the components have distinct keys, the others do not have that of one which is taken. -/
theorem ne_of_mem_eraseIdx {Key : Type v} {key : Component → Key} {components : List Component}
    {index : ℕ} {old other : Component} (distinct : (components.map key).Nodup)
    (found : components[index]? = some old) (there : other ∈ components.eraseIdx index) :
    key other ≠ key old := by
  rcases List.mem_eraseIdx_iff_getElem?.mp there with ⟨place, different, at_place⟩
  intro same
  apply different
  have inside : place < (components.map key).length := by
    rw [List.length_map]
    exact (List.getElem?_eq_some_iff.mp at_place).1
  apply (List.getElem?_inj inside distinct).mp
  rw [List.getElem?_map, List.getElem?_map, at_place, found, Option.map_some, Option.map_some, same]

/--
The events of a queue are taken in any order, except that the newest does not
overtake an older one: then it is the newest of those which are left, or else
the one which was taken.
-/
theorem getLast?_eraseIdx_or {components : List Component} {index : ℕ} {old : Component}
    (found : components[index]? = some old) (newest : index + 1 = components.length → index = 0) :
    (components.eraseIdx index).getLast?.or (some old) = components.getLast? := by
  have inside := (List.getElem?_eq_some_iff.mp found).1
  rw [List.getLast?_eq_getElem?, List.getLast?_eq_getElem?,
    List.length_eraseIdx_of_lt inside]
  by_cases last : index + 1 = components.length
  · have first := newest last
    subst first
    have left : (components.eraseIdx 0).length = 0 := by
      rw [List.length_eraseIdx_of_lt inside]
      omega
    rw [List.length_eq_zero_iff.mp left, ← last, found]
    rfl
  · have later : index ≤ components.length - 1 - 1 := by omega
    have place : components.length - 1 - 1 + 1 = components.length - 1 := by omega
    have there : components.length - 1 < components.length := by omega
    rw [List.getElem?_eraseIdx_of_ge later, place, List.getElem?_eq_getElem there, Option.some_or]

end Mirage.Foundations

/-!
# Runs with hidden events

Some events of a machine are hidden from an observer who has a view of its
state.  If what the other events do to the view depends on the view alone, then
a run looks throughout as if its hidden events had not happened exactly if none
of them changes the view where it happens.
-/

namespace Mirage.Foundations

universe u v w

variable {State : Type u} {Event : Type v} {View : Type w}

/-- The events which are not hidden. -/
def shown (hidden : Event → Bool) (events : List Event) : List Event :=
  events.filter fun event => !hidden event

/-- At each point of a run the view is as it would be without the hidden events. -/
def Unnoticed (step : State → Event → State) (hidden : Event → Bool) (view : State → View)
    (state : State) (events : List Event) : Prop :=
  ∀ before, before <+: events →
    view (run step state before) = view (run step state (shown hidden before))

variable {step : State → Event → State} {hidden : Event → Bool} {view : State → View}

/-- The same for a run and one which starts from another state and has no hidden events. -/
theorem same_view_iff_along
    (respects : ∀ first second event, hidden event = false → view first = view second →
      view (step first event) = view (step second event))
    {state other : State} (events : List Event) (same : view state = view other) :
    (∀ before, before <+: events →
        view (run step state before) = view (run step other (shown hidden before))) ↔
      Along step (fun state event => hidden event = true → view (step state event) = view state)
        state events := by
  induction events generalizing state other with
  | nil =>
      refine iff_of_true ?_ trivial
      intro before start
      rw [List.prefix_nil.mp start]
      exact same
  | cons event events ih =>
      cases secret : hidden event with
      | false =>
          have next := respects state other event secret same
          have keeps (before : List Event) :
              shown hidden (event :: before) = event :: shown hidden before := by
            simp [shown, secret]
          rw [Along, and_iff_right (by simp [secret]), ← ih next]
          constructor
          · intro all before start
            have longer := all (event :: before) (List.cons_prefix_cons.mpr ⟨rfl, start⟩)
            rwa [keeps] at longer
          · intro all before start
            cases before with
            | nil => exact same
            | cons first before =>
                rcases List.cons_prefix_cons.mp start with ⟨rfl, rest⟩
                rw [keeps]
                exact all before rest
      | true =>
          have drops (before : List Event) :
              shown hidden (event :: before) = shown hidden before := by
            simp [shown, secret]
          constructor
          · intro all
            have here := all [event] (List.cons_prefix_cons.mpr ⟨rfl, List.nil_prefix⟩)
            rw [drops] at here
            refine ⟨fun _ => here.trans same.symm, (ih here).mp ?_⟩
            intro before start
            have longer := all (event :: before) (List.cons_prefix_cons.mpr ⟨rfl, start⟩)
            rwa [drops] at longer
          · rintro ⟨unchanged, along⟩ before start
            cases before with
            | nil => exact same
            | cons first before =>
                rcases List.cons_prefix_cons.mp start with ⟨rfl, rest⟩
                rw [drops]
                exact (ih ((unchanged secret).trans same)).mpr along before rest

theorem unnoticed_iff_along
    (respects : ∀ first second event, hidden event = false → view first = view second →
      view (step first event) = view (step second event))
    (state : State) (events : List Event) :
    Unnoticed step hidden view state events ↔
      Along step (fun state event => hidden event = true → view (step state event) = view state)
        state events :=
  same_view_iff_along respects events rfl

/-- Guards which agree at every step hold along the same runs. -/
theorem Along.congr {first second : State → Event → Prop}
    (agree : ∀ state event, first state event ↔ second state event) {state : State}
    {events : List Event} : Along step first state events ↔ Along step second state events := by
  induction events generalizing state with
  | nil => exact Iff.rfl
  | cons event events ih => rw [Along, Along, agree, ih]

end Mirage.Foundations
