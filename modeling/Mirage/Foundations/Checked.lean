import Mathlib.Data.List.Basic

/-!
# Programs which may panic

A checked computation is done with a value, gives up early, or panics because an
index or a range is out of bounds.  `Safe` is the rule of such programs: they do
not panic, and a value they are done with meets a postcondition.
-/

namespace Mirage.Foundations

universe u v

inductive Checked (Value : Type u) where
  | done (value : Value)
  /-- An early return without a value -/
  | refused
  | panicked
  deriving DecidableEq, Repr

namespace Checked

variable {Value : Type u} {Next : Type u} {Byte : Type v}

instance : Monad Checked where
  pure := done
  bind first next :=
    match first with
    | done value => next value
    | refused => refused
    | panicked => panicked

@[simp]
theorem pure_eq (value : Value) : (pure value : Checked Value) = done value :=
  rfl

@[simp]
theorem done_bind (value : Value) (next : Value → Checked Next) :
    (done value >>= next) = next value :=
  rfl

@[simp]
theorem refused_bind (next : Value → Checked Next) : (refused >>= next) = refused :=
  rfl

@[simp]
theorem panicked_bind (next : Value → Checked Next) : (panicked >>= next) = panicked :=
  rfl

theorem bind_eq_done {first : Checked Value} {next : Value → Checked Next} {result : Next}
    (ends : first >>= next = done result) :
    ∃ value, first = done value ∧ next value = done result := by
  cases first with
  | done value => exact ⟨value, rfl, ends⟩
  | refused | panicked => cases ends

/-- `?` on an option -/
def ofOption : Option Value → Checked Value
  | some value => done value
  | none => refused

/-- `if let Some(value) = computation` -/
def attempt : Checked Value → Checked (Option Value)
  | done value => done (some value)
  | refused => done none
  | panicked => panicked

def toOption : Checked Value → Option Value
  | done value => some value
  | refused | panicked => none

theorem attempt_of_ne_panicked {computation : Checked Value} (fine : computation ≠ panicked) :
    attempt computation = done computation.toOption := by
  cases computation with
  | done value => rfl
  | refused => rfl
  | panicked => exact absurd rfl fine

theorem attempt_ofOption (value : Option Value) : attempt (ofOption value) = done value := by
  cases value with
  | none => rfl
  | some value => rfl

def refuseIf (condition : Prop) [Decidable condition] : Checked PUnit :=
  if condition then refused else done ⟨⟩

theorem refuseIf_of_not {condition : Prop} [Decidable condition] (fine : ¬condition) :
    refuseIf condition = done ⟨⟩ :=
  if_neg fine

theorem refuseIf_of {condition : Prop} [Decidable condition] (fails : condition) :
    refuseIf condition = refused :=
  if_pos fails

/-- A check in front of the rest of a program -/
theorem refuseIf_bind_eq {condition : Prop} [Decidable condition] {rest : Checked Value}
    {plain : Option Value} (same : ¬condition → rest = ofOption plain) :
    (refuseIf condition >>= fun _ => rest) = ofOption (if condition then none else plain) := by
  by_cases fails : condition
  · rw [refuseIf_of fails, if_pos fails]
    rfl
  · rw [refuseIf_of_not fails, if_neg fails, done_bind, same fails]

/-- `bytes.get(position)?` -/
def get (bytes : List Value) (position : ℕ) : Checked Value :=
  ofOption bytes[position]?

/-- `bytes[position]` -/
def index (bytes : List Value) (position : ℕ) : Checked Value :=
  match bytes[position]? with
  | some byte => done byte
  | none => panicked

/-- `&bytes[start..stop]` -/
def slice (bytes : List Value) (start stop : ℕ) : Checked (List Value) :=
  if start ≤ stop ∧ stop ≤ bytes.length then done ((bytes.take stop).drop start) else panicked

/-- `bytes[start..start + new.len()].copy_from_slice(new)` -/
def overwrite (bytes : List Value) (start : ℕ) (new : List Value) : Checked (List Value) :=
  if start + new.length ≤ bytes.length then
    done (bytes.take start ++ (new ++ bytes.drop (start + new.length)))
  else panicked

section Panics

theorem done_ne_panicked (value : Value) : done value ≠ panicked := by
  intro same
  cases same

theorem refused_ne_panicked : (refused : Checked Value) ≠ panicked := by
  intro same
  cases same

theorem bind_ne_panicked_iff {first : Checked Value} {next : Value → Checked Next}
    (fine : ∀ value, next value ≠ panicked) : first >>= next ≠ panicked ↔ first ≠ panicked := by
  cases first with
  | done value => exact iff_of_true (fine value) nofun
  | refused => exact iff_of_true nofun nofun
  | panicked => exact iff_of_false (· rfl) (· rfl)

theorem bind_ne_refused {first : Checked Value} {next : Value → Checked Next}
    (goes_on : first ≠ refused) (fine : ∀ value, next value ≠ refused) :
    first >>= next ≠ refused := by
  cases first with
  | done value => exact fine value
  | refused => exact absurd rfl goes_on
  | panicked => nofun

theorem ofOption_ne_panicked (value : Option Value) : ofOption value ≠ panicked := by
  cases value with
  | none => exact refused_ne_panicked
  | some value => exact done_ne_panicked value

theorem refuseIf_ne_panicked (condition : Prop) [Decidable condition] :
    refuseIf condition ≠ panicked := by
  rw [refuseIf]
  split
  · nofun
  · nofun

theorem attempt_ne_refused (computation : Checked Value) : attempt computation ≠ refused := by
  cases computation <;> nofun

theorem attempt_ne_panicked_iff {computation : Checked Value} :
    attempt computation ≠ panicked ↔ computation ≠ panicked := by
  cases computation with
  | done value => exact iff_of_true nofun nofun
  | refused => exact iff_of_true nofun nofun
  | panicked => exact iff_of_false (· rfl) (· rfl)

theorem foldlM_ne_refused {Item : Type v} {step : Value → Item → Checked Value}
    (goes_on : ∀ value item, step value item ≠ refused) {items : List Item} (value : Value) :
    items.foldlM step value ≠ refused := by
  induction items generalizing value with
  | nil => nofun
  | cons item items ih =>
      rw [List.foldlM_cons]
      cases taken : step value item with
      | done next => exact ih next
      | refused => exact absurd taken (goes_on value item)
      | panicked => nofun

theorem foldlM_eq_done {Item : Type v} {step : Value → Item → Checked Value}
    {act : Value → Item → Value} {items : List Item}
    (acts : ∀ value, ∀ item ∈ items, step value item = done (act value item)) (value : Value) :
    items.foldlM step value = done (items.foldl act value) := by
  induction items generalizing value with
  | nil => rfl
  | cons item items ih =>
      rw [List.foldlM_cons, acts value item List.mem_cons_self, done_bind,
        ih (fun value item member => acts value item (.tail _ member)), List.foldl_cons]

/-- A run over items which never ends early panics if one of its steps does. -/
theorem foldlM_ne_panicked_iff {Item : Type v} {step : Value → Item → Checked Value}
    {fine : Item → Prop} {items : List Item} (goes_on : ∀ value item, step value item ≠ refused)
    (safe : ∀ value, ∀ item ∈ items, step value item ≠ panicked ↔ fine item) (value : Value) :
    items.foldlM step value ≠ panicked ↔ ∀ item ∈ items, fine item := by
  induction items generalizing value with
  | nil => exact iff_of_true nofun nofun
  | cons item items ih =>
      have head := safe value item List.mem_cons_self
      rw [List.foldlM_cons, List.forall_mem_cons, ← head]
      cases taken : step value item with
      | done next =>
          rw [done_bind, ih (fun value item member => safe value item (.tail _ member))]
          exact (and_iff_right nofun).symm
      | refused => exact absurd taken (goes_on value item)
      | panicked => exact iff_of_false (· rfl) (fun both => both.1 rfl)

end Panics

section Values

variable {before after : List Value} {position : ℕ}

theorem get_append {byte : Value} (at_end : position = before.length) :
    get (before ++ byte :: after) position = done byte := by
  rw [get, at_end, List.getElem?_append_right (Nat.le_refl _), Nat.sub_self]
  rfl

theorem index_append {byte : Value} (at_end : position = before.length) :
    index (before ++ byte :: after) position = done byte := by
  rw [index, at_end, List.getElem?_append_right (Nat.le_refl _), Nat.sub_self]
  rfl

theorem slice_prefix (at_end : position = before.length) :
    slice (before ++ after) 0 position = done before := by
  rw [slice, if_pos (by simp [at_end]), at_end, List.take_left, List.drop_zero]

theorem slice_suffix (at_end : position = before.length) :
    slice (before ++ after) position (before ++ after).length = done after := by
  rw [slice, if_pos (by simp [at_end]), at_end, List.take_length, List.drop_left]

theorem slice_append {piece : List Value} (at_end : position = before.length) :
    slice (before ++ (piece ++ after)) position (position + piece.length) = done piece := by
  have inside : position ≤ position + piece.length ∧
      position + piece.length ≤ (before ++ (piece ++ after)).length := by
    simp only [List.length_append]
    omega
  rw [slice, if_pos inside, at_end, ← List.append_assoc, ← List.length_append, List.take_left,
    List.drop_left]

theorem overwrite_append {old new : List Value} (at_end : position = before.length)
    (same : new.length = old.length) :
    overwrite (before ++ (old ++ after)) position new = done (before ++ (new ++ after)) := by
  have inside : position + new.length ≤ (before ++ (old ++ after)).length := by
    simp only [List.length_append]
    omega
  have rest : (before ++ (old ++ after)).drop (before.length + old.length) = after := by
    rw [← List.append_assoc, ← List.length_append, List.drop_left]
  rw [overwrite, if_pos inside, same, at_end, List.take_left, rest]

/-- What stands at a place after something has been written, there or beside it -/
theorem overwrite_window {bytes new out : List Value} {start : ℕ}
    (written : overwrite bytes start new = done out) :
    (out.drop start).take new.length = new ∧
      ∀ left count, left + count ≤ start ∨ start + new.length ≤ left →
        (out.drop left).take count = (bytes.drop left).take count := by
  rw [overwrite] at written
  split at written
  · rename_i fits
    cases written
    have front : (bytes.take start).length = start := by
      rw [List.length_take]
      omega
    constructor
    · rw [List.drop_left' front, List.take_left]
    · intro left count beside
      apply List.ext_getElem?
      intro place
      simp only [List.getElem?_take, List.getElem?_drop, List.getElem?_append, front]
      split
      · rcases beside with before | behind
        · rw [if_pos (by omega), if_pos (by omega)]
        · rw [if_neg (by omega), if_neg (by omega)]
          congr 1
          omega
      · rfl
  · cases written

end Values

/-- It does not panic, and what it is done with meets a postcondition. -/
def Safe (computation : Checked Value) (post : Value → Prop) : Prop :=
  match computation with
  | done value => post value
  | refused => True
  | panicked => False

section Safe

variable {post weaker : Value → Prop} {after : Next → Prop}

theorem Safe.not_panicked {computation : Checked Value} (safe : computation.Safe post) :
    computation ≠ panicked := by
  rintro rfl
  exact safe

theorem safe_iff_not_panicked {computation : Checked Value} :
    (computation.Safe fun _ => True) ↔ computation ≠ panicked := by
  constructor
  · exact Safe.not_panicked
  · intro fine
    cases computation with
    | done value => trivial
    | refused => trivial
    | panicked => exact fine rfl

theorem Safe.imp {computation : Checked Value} (safe : computation.Safe post)
    (implies : ∀ value, post value → weaker value) : computation.Safe weaker := by
  cases computation with
  | done value => exact implies value safe
  | refused => trivial
  | panicked => exact safe

theorem safe_bind {first : Checked Value} {next : Value → Checked Next} (safe : first.Safe post)
    (rest : ∀ value, post value → (next value).Safe after) : (first >>= next).Safe after := by
  cases first with
  | done value => exact rest value safe
  | refused => trivial
  | panicked => exact safe

theorem safe_refuseIf (condition : Prop) [Decidable condition] :
    (refuseIf condition).Safe fun _ => ¬condition := by
  rw [refuseIf]
  split
  · trivial
  · assumption

theorem safe_get (bytes : List Value) (position : ℕ) :
    (get bytes position).Safe fun _ => position < bytes.length := by
  rw [get]
  cases found : bytes[position]? with
  | none => trivial
  | some byte => exact (List.getElem?_eq_some_iff.mp found).1

theorem safe_index {bytes : List Value} {position : ℕ} (inside : position < bytes.length) :
    (index bytes position).Safe fun _ => True := by
  rw [index, List.getElem?_eq_getElem inside]
  trivial

theorem safe_slice {bytes : List Value} {start stop : ℕ} (ordered : start ≤ stop)
    (inside : stop ≤ bytes.length) :
    (slice bytes start stop).Safe fun piece => piece.length = stop - start := by
  rw [slice, if_pos ⟨ordered, inside⟩]
  simp only [Safe, List.length_drop, List.length_take, Nat.min_eq_left inside]

theorem safe_overwrite {bytes new : List Value} {start : ℕ}
    (inside : start + new.length ≤ bytes.length) :
    (overwrite bytes start new).Safe fun result => result.length = bytes.length := by
  rw [overwrite, if_pos inside]
  simp only [Safe, List.length_append, List.length_take, List.length_drop]
  omega

end Safe

/-- It is done exactly if it is asked to be, with a value which meets a postcondition. -/
def DoneWhen (computation : Checked Value) (asked : Prop) (post : Value → Prop) : Prop :=
  asked ∧ (∃ value, computation = done value ∧ post value) ∨ ¬asked ∧ computation = refused

section DoneWhen

variable {asked : Prop} {post : Value → Prop}

theorem DoneWhen.not_panicked {computation : Checked Value}
    (exact : computation.DoneWhen asked post) : computation ≠ panicked := by
  rcases exact with ⟨-, value, finished, -⟩ | ⟨-, gave_up⟩
  · rw [finished]
    exact done_ne_panicked value
  · rw [gave_up]
    exact refused_ne_panicked

theorem doneWhen_done {computation : Checked Value} {value : Value} (holds : asked)
    (finished : computation = done value) (met : post value) :
    computation.DoneWhen asked post :=
  .inl ⟨holds, value, finished, met⟩

theorem doneWhen_refused {computation : Checked Value} (fails : ¬asked)
    (gave_up : computation = refused) : computation.DoneWhen asked post :=
  .inr ⟨fails, gave_up⟩

/-- A check which is part of what is asked -/
theorem doneWhen_refuseIf {condition : Prop} [Decidable condition]
    {next : PUnit → Checked Value} (needed : asked → ¬condition)
    (rest : ¬condition → (next ⟨⟩).DoneWhen asked post) :
    (refuseIf condition >>= next).DoneWhen asked post := by
  by_cases fails : condition
  · apply doneWhen_refused (fun holds => needed holds fails)
    rw [refuseIf_of fails, refused_bind]
  · rw [refuseIf_of_not fails, done_bind]
    exact rest fails

end DoneWhen

end Checked

end Mirage.Foundations
