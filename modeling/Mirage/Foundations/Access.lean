import Mathlib.Data.List.Basic

/-!
# Computations which read an image

An access is a computation which may fail and which records the positions of the
image whose bytes it has got.
-/

namespace Mirage.Foundations

universe u v

/-- A computation which may fail comes to an end if each of its parts does. -/
theorem bind_eq_ok {Failure : Type u} {Value Next : Type v} {first : Except Failure Value}
    {next : Value → Except Failure Next} {result : Next} (done : first >>= next = .ok result) :
    ∃ value, first = .ok value ∧ next value = .ok result := by
  cases first with
  | error failure => cases done
  | ok value => exact ⟨value, rfl, done⟩

structure Access (Failure : Type u) (Value : Type v) where
  reads : List ℕ
  outcome : Except Failure Value

namespace Access

variable {Failure : Type u} {Value Next : Type v}

instance : Monad (Access Failure) where
  pure value := ⟨[], .ok value⟩
  bind first next :=
    match first.outcome with
    | .ok value => ⟨first.reads ++ (next value).reads, (next value).outcome⟩
    | .error failure => ⟨first.reads, .error failure⟩

def fail (failure : Failure) : Access Failure Value := ⟨[], .error failure⟩

def refuse : Option Failure → Access Failure PUnit
  | some failure => fail failure
  | none => pure ⟨⟩

/-- `count` bytes from a position on; those which there are have been read when it fails. -/
def read {Byte : Type v} (image : List Byte) (position count : ℕ) (short : Failure) :
    Access Failure (List Byte) :=
  let found := (image.drop position).take count
  { reads := List.range' position found.length
    outcome := if found.length = count then .ok found else .error short }

section Outcomes

@[simp]
theorem outcome_pure (value : Value) : (pure value : Access Failure Value).outcome = .ok value :=
  rfl

@[simp]
theorem outcome_fail (failure : Failure) :
    (fail failure : Access Failure Value).outcome = .error failure :=
  rfl

theorem outcome_bind_eq_ok {first : Access Failure Value} {next : Value → Access Failure Next}
    {result : Next} :
    (first >>= next).outcome = .ok result ↔
      ∃ value, first.outcome = .ok value ∧ (next value).outcome = .ok result := by
  rcases first with ⟨reads, outcome⟩
  constructor
  · intro done
    cases outcome with
    | ok value => exact ⟨value, rfl, done⟩
    | error failure => cases done
  · rintro ⟨value, rfl, done⟩
    exact done

theorem outcome_refuse_eq_ok {failure : Option Failure} {value : PUnit} :
    (refuse failure).outcome = .ok value ↔ failure = none := by
  cases failure with
  | some failure => exact iff_of_false (by rintro ⟨⟩) (by rintro ⟨⟩)
  | none => exact iff_of_true rfl rfl

theorem outcome_read_eq_ok {Byte : Type v} {image : List Byte} {position count : ℕ}
    {short : Failure} {bytes : List Byte} (some_count : 0 < count) :
    (read image position count short).outcome = .ok bytes ↔
      position + count ≤ image.length ∧ bytes = (image.drop position).take count := by
  have length : ((image.drop position).take count).length = count ↔
      position + count ≤ image.length := by
    rw [List.length_take, List.length_drop]
    omega
  simp only [read]
  split
  · rename_i complete
    rw [length] at complete
    simp only [Except.ok.injEq, complete, true_and]
    exact eq_comm
  · rename_i incomplete
    rw [length] at incomplete
    simp only [reduceCtorEq, incomplete, false_and]

end Outcomes

/-- It reads only positions below a bound. -/
def Within (bound : ℕ) (access : Access Failure Value) : Prop :=
  ∀ position ∈ access.reads, position < bound

section Within

variable {bound : ℕ}

theorem within_pure (value : Value) : (pure value : Access Failure Value).Within bound := by
  intro position member
  cases member

theorem within_fail (failure : Failure) : (fail failure : Access Failure Value).Within bound := by
  intro position member
  cases member

theorem within_refuse (failure : Option Failure) : (refuse failure).Within bound := by
  cases failure with
  | some failure => exact within_fail failure
  | none => exact within_pure PUnit.unit

theorem within_bind {first : Access Failure Value} {next : Value → Access Failure Next}
    (start : first.Within bound) (rest : ∀ value, (next value).Within bound) :
    (first >>= next).Within bound := by
  rcases first with ⟨reads, outcome⟩
  cases outcome with
  | ok value =>
      intro position member
      rcases List.mem_append.mp member with early | late
      · exact start position early
      · exact rest value position late
  | error failure => exact start

/-- A read gets no byte from behind the end of the image. -/
theorem within_read {Byte : Type v} (image : List Byte) (position count : ℕ) (short : Failure) :
    (read image position count short).Within image.length := by
  intro at_byte member
  simp only [read, List.mem_range'_1, List.length_take, List.length_drop] at member
  omega

end Within

end Access

end Mirage.Foundations
