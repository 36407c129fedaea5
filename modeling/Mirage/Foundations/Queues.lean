import Mathlib.Data.List.DropRight
import Mirage.Foundations.Run

/-!
# Queues with a limit

A queue which is full gives up its oldest item for a new one.  So it holds the
newest items which were put into it and not taken, and what is taken from it comes
in the order in which it was put in.  Nothing is lost as long as there is room.
-/

namespace Mirage.Foundations

universe u v w

variable {Item : Type u} {cap : ℕ} {queue : List Item}

/-- A full queue gives up its oldest item. -/
def pushBounded (cap : ℕ) (queue : List Item) (item : Item) : List Item :=
  (if cap ≤ queue.length then queue.tail else queue) ++ [item]

theorem pushBounded_length_le (some_cap : 0 < cap) (within : queue.length ≤ cap) (item : Item) :
    (pushBounded cap queue item).length ≤ cap := by
  rw [pushBounded]
  split
  · simp only [List.length_append, List.length_tail, List.length_singleton]
    omega
  · simp only [List.length_append, List.length_singleton]
    omega

section Newest

theorem rtake_of_length_le {items : List Item} (short : items.length ≤ cap) :
    items.rtake cap = items := by
  rw [List.rtake, Nat.sub_eq_zero_of_le short, List.drop_zero]

theorem length_rtake (count : ℕ) (items : List Item) :
    (items.rtake count).length = min count items.length := by
  rw [List.rtake, List.length_drop]
  omega

theorem rtake_suffix (count : ℕ) (items : List Item) : items.rtake count <:+ items :=
  List.drop_suffix _ items

end Newest

/-! ## A queue of a machine -/

section Machine

variable {State : Type v} {Event : Type w} {Output : Type u}

/-- What the events of a run put out, in their order -/
def outputs (output : State → Event → List Output) (step : State → Event → State) :
    State → List Event → List Output
  | _, [] => []
  | state, event :: events => output state event ++ outputs output step (step state event) events

theorem outputs_of_events (output : Event → List Output) (step : State → Event → State)
    (state : State) (events : List Event) :
    outputs (fun _ => output) step state events = events.flatMap output := by
  induction events generalizing state with
  | nil => rfl
  | cons event events ih => rw [outputs, ih, List.flatMap_cons]

/-- A part of a machine runs on the events which the machine hands to it. -/
theorem run_part {Part : Type*} {part : State → Part} {partStep : Part → Output → Part}
    {own : State → Event → List Output} {step : State → Event → State}
    (one_step : ∀ state event, part (step state event) = run partStep (part state) (own state event))
    (state : State) (events : List Event) :
    part (run step state events) = run partStep (part state) (outputs own step state events) := by
  induction events generalizing state with
  | nil => rfl
  | cons event events ih => rw [run_cons, ih, outputs, run_append, one_step]

/-- A machine which only passes on what is put into it loses nothing and keeps the order. -/
theorem outputs_conserved {contents : State → List Output}
    {input output : State → Event → List Output} {step : State → Event → State}
    (one_step : ∀ state event, contents state ++ input state event =
      output state event ++ contents (step state event)) (state : State) (events : List Event) :
    contents state ++ outputs input step state events =
      outputs output step state events ++ contents (run step state events) := by
  induction events generalizing state with
  | nil => simp [outputs]
  | cons event events ih =>
      rw [outputs, outputs, run_cons, ← List.append_assoc, one_step, List.append_assoc, ih,
        List.append_assoc]

section Fewer

variable {fewer more : State → Event → List Output} {step : State → Event → State}

theorem outputs_sublist (one_step : ∀ state event, (fewer state event).Sublist (more state event))
    (state : State) (events : List Event) :
    (outputs fewer step state events).Sublist (outputs more step state events) := by
  induction events generalizing state with
  | nil => exact List.Sublist.refl []
  | cons event events ih => exact (one_step state event).append (ih (step state event))

/-- What is put out at each event is a part of something, and all of it exactly if it always is. -/
theorem outputs_eq_iff_along
    (one_step : ∀ state event, (fewer state event).Sublist (more state event))
    (state : State) (events : List Event) :
    outputs fewer step state events = outputs more step state events ↔
      Along step (fun state event => fewer state event = more state event) state events := by
  induction events generalizing state with
  | nil => exact iff_of_true rfl trivial
  | cons event events ih =>
      rw [outputs, outputs, Along, ← ih]
      constructor
      · intro same
        have here := one_step state event
        have later := @outputs_sublist _ _ _ _ _ step one_step (step state event) events
        apply List.append_inj same
        have total := congrArg List.length same
        rw [List.length_append, List.length_append] at total
        have le_here := here.length_le
        have le_later := later.length_le
        omega
      · rintro ⟨here, later⟩
        rw [here, later]

end Fewer

inductive QueueMove (Item : Type u) where
  | push (item : Item)
  | pop
  /-- Everything is taken. -/
  | drain
  /-- Everything is thrown away. -/
  | clear
  deriving DecidableEq, Repr

namespace QueueMove

def pushed : QueueMove Item → List Item
  | .push item => [item]
  | _ => []

def apply (cap : ℕ) (queue : List Item) : QueueMove Item → List Item
  | .push item => pushBounded cap queue item
  | .pop => queue.tail
  | .drain => []
  | .clear => []

/-- The items which a move takes out of a queue -/
def taken (queue : List Item) : QueueMove Item → List Item
  | .pop => queue.head?.toList
  | .drain => queue
  | _ => []

/-- No item is put into a full queue, and none is thrown away. -/
def Keeps (cap : ℕ) (queue : List Item) : QueueMove Item → Prop
  | .push _ => queue.length < cap
  | .clear => queue = []
  | _ => True

end QueueMove

/--
What has been taken out of a queue and what is in it are of what was put into it, in
the same order and each item once; the newest are there, and nothing is lost exactly
if `kept` holds.
-/
structure Carried (cap : ℕ) (pushed taken queue : List Item) (kept : Prop) : Prop where
  ordered : (taken ++ queue).Sublist pushed
  newest : queue <:+ pushed
  within : queue.length ≤ cap
  lossless : taken ++ queue = pushed ↔ kept

section Carried

variable {pushed taken : List Item} {kept : Prop}

theorem Carried.refl (within : queue.length ≤ cap) : Carried cap queue [] queue True :=
  ⟨List.Sublist.refl queue, List.suffix_refl queue, within, iff_of_true rfl trivial⟩

/-- The oldest items are taken. -/
theorem Carried.take (carried : Carried cap pushed taken queue kept) (front : List Item) :
    Carried cap (front ++ pushed) (front ++ taken) queue kept where
  ordered := by
    rw [List.append_assoc]
    exact carried.ordered.append_left front
  newest := carried.newest.trans (List.suffix_append front pushed)
  within := carried.within
  lossless := by rw [List.append_assoc, List.append_right_inj, carried.lossless]

/-- The oldest items are lost, if there are any. -/
theorem Carried.lose (carried : Carried cap pushed taken queue kept) (front : List Item) :
    Carried cap (front ++ pushed) taken queue (front = [] ∧ kept) where
  ordered := carried.ordered.trans (List.sublist_append_right front pushed)
  newest := carried.newest.trans (List.suffix_append front pushed)
  within := carried.within
  lossless := by
    cases front with
    | nil => rw [List.nil_append, and_iff_right rfl, carried.lossless]
    | cons oldest front =>
        apply iff_of_false
        · intro same
          have shorter := carried.ordered.length_le
          rw [same, List.length_append, List.length_cons] at shorter
          omega
        · rintro ⟨nothing, _⟩
          cases nothing

/-- An item is put in which there is room for, or else the oldest one is lost. -/
theorem Carried.push (some_cap : 0 < cap) {before : List Item} {item : Item}
    (carried : Carried cap (pushBounded cap before item ++ pushed) taken queue kept) :
    Carried cap (before ++ ([item] ++ pushed)) taken queue (before.length < cap ∧ kept) := by
  rw [pushBounded] at carried
  split at carried
  · rename_i full
    cases before with
    | nil => exact absurd full (Nat.not_le.mpr some_cap)
    | cons oldest before =>
        rw [List.tail_cons, List.append_assoc] at carried
        have lost := carried.lose [oldest]
        rw [iff_of_false (by simp : ¬([oldest] = [] ∧ kept))
          (fun both => absurd full (Nat.not_le.mpr both.1) :
            ¬((oldest :: before).length < cap ∧ kept))] at lost
        exact lost
  · rename_i room
    rw [List.append_assoc] at carried
    rw [and_iff_right (Nat.not_le.mp room)]
    exact carried

end Carried

theorem head?_toList_append_tail (queue : List Item) :
    queue.head?.toList ++ queue.tail = queue := by
  cases queue <;> rfl

/--
A machine has a queue which some of its events move.  The queue carries what is put into
it over every run.
-/
theorem carried_run {step : State → Event → State} {queueOf : State → List Item}
    {move : State → Event → Option (QueueMove Item)} (some_cap : 0 < cap)
    (moves : ∀ state event, queueOf (step state event) =
      ((move state event).map (QueueMove.apply cap (queueOf state))).getD (queueOf state))
    {state : State} (within : (queueOf state).length ≤ cap) (events : List Event) :
    Carried cap
      (queueOf state ++
        outputs (fun state event => (move state event).elim [] QueueMove.pushed) step state events)
      (outputs (fun state event => (move state event).elim [] (QueueMove.taken (queueOf state)))
        step state events)
      (queueOf (run step state events))
      (Along step
        (fun state event => (move state event).elim True (QueueMove.Keeps cap (queueOf state)))
        state events) := by
  induction events generalizing state with
  | nil => simpa [outputs, Along] using Carried.refl within
  | cons event events ih =>
      have next := moves state event
      rw [run_cons, outputs, outputs, Along]
      cases kind : move state event with
      | none =>
          simp only [kind, Option.map_none, Option.getD_none] at next
          have carried := ih (next ▸ within)
          rw [next] at carried
          simpa only [Option.elim_none, List.nil_append, true_and] using carried
      | some moved =>
          simp only [kind, Option.map_some, Option.getD_some] at next
          cases moved with
          | push item =>
              have carried := ih (by
                rw [next]
                exact pushBounded_length_le some_cap within item)
              rw [next] at carried
              exact carried.push some_cap
          | pop =>
              have carried := ih (by
                rw [next, QueueMove.apply, List.length_tail]
                omega)
              rw [next] at carried
              have taken := carried.take (queueOf state).head?.toList
              rw [QueueMove.apply, ← List.append_assoc, head?_toList_append_tail] at taken
              simpa [QueueMove.pushed, QueueMove.taken, QueueMove.Keeps] using taken
          | drain =>
              have carried := ih (by
                rw [next]
                exact Nat.zero_le cap)
              rw [next] at carried
              simpa [QueueMove.pushed, QueueMove.taken, QueueMove.Keeps, QueueMove.apply]
                using carried.take (queueOf state)
          | clear =>
              have carried := ih (by
                rw [next]
                exact Nat.zero_le cap)
              rw [next] at carried
              exact carried.lose (queueOf state)

end Machine

end Mirage.Foundations
