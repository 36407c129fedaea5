import Mathlib.Order.Lattice
import Mirage.Foundations.Run

/-!
# The size of the warm pool

The manager task computes a new target from the demand of its last cycle, and
`set_pool_size` moves the maximum and the target.  Both read the two sizes, compute
and store, and neither holds a lock: every access is an event of its own.

Nothing is stored beyond the maximum as long as no call lowers the maximum between
the accesses of another one.
-/

namespace Mirage.Proxy

open Mirage.Foundations

def waitRatio (waitEvents totalGets : UInt64) : Float :=
  if totalGets = 0 then 0.0 else waitEvents.toFloat / totalGets.toFloat

def decideNewTarget (curTarget : ℕ) (waitEvents totalGets expiredUnused : UInt64)
    (maxSize : ℕ) : ℕ :=
  let floor := min (max (maxSize / 2) 2) maxSize
  if waitRatio waitEvents totalGets > 0.2 ∧ curTarget < maxSize then
    let increment := max (curTarget / 5) 1
    min (curTarget + increment) maxSize
  else if waitRatio waitEvents totalGets == 0.0 ∧ expiredUnused ≥ totalGets / 2 ∧
      curTarget > floor then
    curTarget - 1
  else min (max curTarget floor) maxSize

/-- Where the manager is in its cycle; it carries the counters which it has set back. -/
inductive ManagerPhase where
  | sleeping
  | sampled (wait gets : UInt64)
  | loaded (wait gets : UInt64) (curTarget : ℕ)
  | deciding (wait gets : UInt64) (curTarget currentMax : ℕ)
  deriving DecidableEq

/-- Where a call of `set_pool_size` is. -/
inductive SetterPhase where
  | called (size : ℕ)
  | swapped (size oldMax : ℕ)
  | loaded (size oldMax cur : ℕ)
  | returned
  deriving DecidableEq

structure PoolSizes where
  targetSize : ℕ
  maxSize : ℕ
  manager : ManagerPhase
  setters : List SetterPhase
  deriving DecidableEq

inductive SizeEvent where
  /-- The manager wakes up and takes the counters. -/
  | sample (wait gets : UInt64)
  | loadTarget
  | loadMax
  /-- The expired tunnels are counted, and the new target is stored. -/
  | store (expired : UInt64)
  | setPoolSize (newSize : ℕ)
  /-- A call of `set_pool_size` makes its next access. -/
  | advance (index : ℕ)
  deriving DecidableEq

/-- What `set_pool_size` makes of the target. -/
def retarget (size oldMax cur : ℕ) : ℕ :=
  if size > oldMax then max (min (max cur (size / 2)) size) 1 else max (min cur size) 1

namespace SetterPhase

/-- The call has moved the maximum, but not the target yet. -/
def pending : SetterPhase → Bool
  | .swapped _ _ | .loaded _ _ _ => true
  | _ => false

/-- The size which the call will put in force, or has, is within the maximum. -/
def Fits (maxSize : ℕ) : SetterPhase → Prop
  | .called size => 1 ≤ size
  | .swapped size _ | .loaded size _ _ => 1 ≤ size ∧ size ≤ maxSize
  | .returned => True

end SetterPhase

/-- The manager has read the maximum. -/
def ManagerPhase.decides : ManagerPhase → Bool
  | .deciding _ _ _ _ => true
  | _ => false

/-- What the manager has read is not beyond the maximum it decides for. -/
def ManagerPhase.Fits (maxSize : ℕ) : ManagerPhase → Prop
  | .loaded _ _ curTarget => 1 ≤ curTarget
  | .deciding _ _ curTarget currentMax =>
      1 ≤ curTarget ∧ curTarget ≤ currentMax ∧ currentMax ≤ maxSize
  | _ => True

namespace PoolSizes

def new (poolSize : ℕ) : PoolSizes where
  targetSize := max poolSize 1
  maxSize := max poolSize 1
  manager := .sleeping
  setters := []

/-- The counters are taken. -/
def sample (sizes : PoolSizes) (wait gets : UInt64) : PoolSizes :=
  match sizes.manager with
  | .sleeping => { sizes with manager := .sampled wait gets }
  | _ => sizes

def loadTarget (sizes : PoolSizes) : PoolSizes :=
  match sizes.manager with
  | .sampled wait gets => { sizes with manager := .loaded wait gets sizes.targetSize }
  | _ => sizes

def loadMax (sizes : PoolSizes) : PoolSizes :=
  match sizes.manager with
  | .loaded wait gets curTarget =>
      { sizes with manager := .deciding wait gets curTarget sizes.maxSize }
  | _ => sizes

def store (sizes : PoolSizes) (expired : UInt64) : PoolSizes :=
  match sizes.manager with
  | .deciding wait gets curTarget currentMax =>
      let newTarget := decideNewTarget curTarget wait gets expired currentMax
      { sizes with
        targetSize := if newTarget ≠ curTarget then newTarget else sizes.targetSize
        manager := .sleeping }
  | _ => sizes

/-- The next access of the manager; the others are those of the callers. -/
def manage (sizes : PoolSizes) : SizeEvent → PoolSizes
  | .sample wait gets => sizes.sample wait gets
  | .loadTarget => sizes.loadTarget
  | .loadMax => sizes.loadMax
  | .store expired => sizes.store expired
  | .setPoolSize _ | .advance _ => sizes

def advance (sizes : PoolSizes) (index : ℕ) : PoolSizes :=
  match sizes.setters[index]? with
  | some (.called size) =>
      { sizes with
        maxSize := size
        setters := sizes.setters.set index (.swapped size sizes.maxSize) }
  | some (.swapped size oldMax) =>
      { sizes with setters := sizes.setters.set index (.loaded size oldMax sizes.targetSize) }
  | some (.loaded size oldMax cur) =>
      { sizes with
        targetSize := retarget size oldMax cur
        setters := sizes.setters.set index .returned }
  | _ => sizes

def step (sizes : PoolSizes) : SizeEvent → PoolSizes
  | .setPoolSize newSize =>
      { sizes with setters := sizes.setters ++ [.called (max newSize 1)] }
  | .advance index => sizes.advance index
  | event => sizes.manage event

/-- The manager and all calls of `set_pool_size` are through. -/
def Finished (sizes : PoolSizes) : Prop :=
  sizes.manager = .sleeping ∧ ∀ setter ∈ sizes.setters, setter = .returned

def Bounded (sizes : PoolSizes) : Prop :=
  sizes.Finished → 1 ≤ sizes.targetSize ∧ sizes.targetSize ≤ sizes.maxSize

/--
The maximum is lowered only while no other call has moved it without moving the target, and
while the manager does not hold an older maximum; and the target which the manager has read is
not above the maximum it reads.
-/
def undisturbed (sizes : PoolSizes) : SizeEvent → Bool
  | .advance index =>
      match sizes.setters[index]? with
      | some (.called size) =>
          sizes.maxSize ≤ size ||
            (sizes.setters.all fun setter => !setter.pending) && !sizes.manager.decides
      | _ => true
  | .loadMax =>
      match sizes.manager with
      | .loaded _ _ curTarget => curTarget ≤ sizes.maxSize
      | _ => true
  | _ => true

/-- What an undisturbed run keeps. -/
structure Sized (sizes : PoolSizes) : Prop where
  one_le_target : 1 ≤ sizes.targetSize
  one_le_max : 1 ≤ sizes.maxSize
  target_le : (∀ setter ∈ sizes.setters, setter.pending = false) →
    sizes.targetSize ≤ sizes.maxSize
  manager : sizes.manager.Fits sizes.maxSize
  setters : ∀ setter ∈ sizes.setters, setter.Fits sizes.maxSize

end PoolSizes

/-- The decision stays within the maximum it was made for. -/
theorem decideNewTarget_bounds {curTarget maxSize : ℕ} (one_le : 1 ≤ curTarget)
    (within : curTarget ≤ maxSize) (waitEvents totalGets expiredUnused : UInt64) :
    1 ≤ decideNewTarget curTarget waitEvents totalGets expiredUnused maxSize ∧
      decideNewTarget curTarget waitEvents totalGets expiredUnused maxSize ≤ maxSize := by
  unfold decideNewTarget
  dsimp only
  split
  · omega
  · split
    · rename_i shrinks
      have above := shrinks.2.2
      omega
    · omega

theorem retarget_bounds {size : ℕ} (one_le : 1 ≤ size) (oldMax cur : ℕ) :
    1 ≤ retarget size oldMax cur ∧ retarget size oldMax cur ≤ size := by
  unfold retarget
  split <;> omega

theorem SetterPhase.Fits.mono {setter : SetterPhase} {maxSize larger : ℕ}
    (fits : setter.Fits maxSize) (le : setter.pending = true → maxSize ≤ larger) :
    setter.Fits larger := by
  cases setter with
  | called size => exact fits
  | swapped size oldMax => exact ⟨fits.1, fits.2.trans (le rfl)⟩
  | loaded size oldMax cur => exact ⟨fits.1, fits.2.trans (le rfl)⟩
  | returned => trivial

theorem ManagerPhase.Fits.mono {manager : ManagerPhase} {maxSize larger : ℕ}
    (fits : manager.Fits maxSize) (le : manager.decides = true → maxSize ≤ larger) :
    manager.Fits larger := by
  cases manager with
  | sleeping => trivial
  | sampled wait gets => trivial
  | loaded wait gets curTarget => exact fits
  | deciding wait gets curTarget currentMax =>
      exact ⟨fits.1, fits.2.1, fits.2.2.trans (le rfl)⟩

namespace PoolSizes

variable {sizes : PoolSizes}

theorem sized_new (poolSize : ℕ) : (new poolSize).Sized where
  one_le_target := le_max_right _ _
  one_le_max := le_max_right _ _
  target_le := fun _ => le_rfl
  manager := trivial
  setters := by simp [new]

theorem Sized.sample (sized : sizes.Sized) (wait gets : UInt64) :
    (sizes.sample wait gets).Sized := by
  unfold PoolSizes.sample
  split
  · exact { sized with manager := trivial }
  · exact sized

theorem Sized.loadTarget (sized : sizes.Sized) : sizes.loadTarget.Sized := by
  unfold PoolSizes.loadTarget
  split
  · exact { sized with manager := sized.one_le_target }
  · exact sized

theorem Sized.loadMax (sized : sizes.Sized) (undisturbed : sizes.undisturbed .loadMax = true) :
    sizes.loadMax.Sized := by
  have held := sized.manager
  unfold PoolSizes.loadMax
  split
  · rename_i wait gets curTarget phase
    simp only [PoolSizes.undisturbed, phase, decide_eq_true_eq] at undisturbed
    rw [phase] at held
    exact { sized with manager := ⟨held, undisturbed, le_rfl⟩ }
  · exact sized

/-- The new target is within the maximum which the manager has read. -/
theorem Sized.store (sized : sizes.Sized) (expired : UInt64) : (sizes.store expired).Sized := by
  have held := sized.manager
  unfold PoolSizes.store
  split
  · rename_i wait gets curTarget currentMax phase
    rw [phase] at held
    rcases held with ⟨one_le, within, recent⟩
    have bounds := decideNewTarget_bounds one_le within wait gets expired
    refine ⟨?_, sized.one_le_max, ?_, trivial, sized.setters⟩
    · dsimp only
      split
      · exact bounds.1
      · exact sized.one_le_target
    · intro settled
      dsimp only
      split
      · exact bounds.2.trans recent
      · exact sized.target_le settled
  · exact sized

/-- A call of `set_pool_size` stores nothing yet. -/
theorem Sized.set_pending (sized : sizes.Sized) {index : ℕ} {setter : SetterPhase}
    (pending : setter.pending = true) (fits : setter.Fits sizes.maxSize)
    (inside : index < sizes.setters.length) :
    { sizes with setters := sizes.setters.set index setter }.Sized := by
  refine ⟨sized.one_le_target, sized.one_le_max, ?_, sized.manager, ?_⟩
  · intro settled
    have here := settled setter (List.mem_set inside setter)
    rw [pending] at here
    cases here
  · intro other there
    rcases List.mem_or_eq_of_mem_set there with before | rfl
    · exact sized.setters other before
    · exact fits

/-- The maximum moves; when it is lowered, nobody holds the old one. -/
theorem Sized.swap (sized : sizes.Sized) {index size : ℕ}
    (found : sizes.setters[index]? = some (.called size))
    (undisturbed : sizes.undisturbed (.advance index) = true) :
    { sizes with
      maxSize := size
      setters := sizes.setters.set index (.swapped size sizes.maxSize) }.Sized := by
  have one_le : 1 ≤ size := sized.setters _ (List.mem_of_getElem? found)
  have inside := (List.getElem?_eq_some_iff.mp found).1
  have settled : size < sizes.maxSize →
      (∀ setter ∈ sizes.setters, setter.pending = false) ∧ sizes.manager.decides = false := by
    intro lowered
    simp only [PoolSizes.undisturbed, found, Bool.or_eq_true, decide_eq_true_eq,
      Nat.not_le.mpr lowered, false_or, Bool.and_eq_true, List.all_eq_true,
      Bool.not_eq_true'] at undisturbed
    exact undisturbed
  refine ⟨sized.one_le_target, one_le, ?_, ?_, ?_⟩
  · intro none
    cases none _ (List.mem_set inside (.swapped size sizes.maxSize))
  · apply sized.manager.mono
    intro decides
    by_contra lowered
    rw [(settled (Nat.not_le.mp lowered)).2] at decides
    cases decides
  · intro setter there
    rcases List.mem_or_eq_of_mem_set there with before | rfl
    · apply (sized.setters setter before).mono
      intro pending
      by_contra lowered
      rw [(settled (Nat.not_le.mp lowered)).1 setter before] at pending
      cases pending
    · exact ⟨one_le, le_rfl⟩

/-- The target of `set_pool_size` is within the maximum in force. -/
theorem Sized.retarget (sized : sizes.Sized) {index size oldMax cur : ℕ}
    (found : sizes.setters[index]? = some (.loaded size oldMax cur)) :
    { sizes with
      targetSize := Proxy.retarget size oldMax cur
      setters := sizes.setters.set index .returned }.Sized := by
  rcases sized.setters _ (List.mem_of_getElem? found) with ⟨one_le, within⟩
  have bounds := retarget_bounds one_le oldMax cur
  refine ⟨bounds.1, sized.one_le_max, fun _ => bounds.2.trans within, sized.manager, ?_⟩
  intro setter there
  rcases List.mem_or_eq_of_mem_set there with before | rfl
  · exact sized.setters setter before
  · trivial

theorem Sized.advance (sized : sizes.Sized) {index : ℕ}
    (undisturbed : sizes.undisturbed (.advance index) = true) : (sizes.advance index).Sized := by
  unfold PoolSizes.advance
  split
  · rename_i size found
    exact sized.swap found undisturbed
  · rename_i size oldMax found
    have fits := sized.setters _ (List.mem_of_getElem? found)
    exact sized.set_pending rfl fits (List.getElem?_eq_some_iff.mp found).1
  · rename_i size oldMax cur found
    exact sized.retarget found
  · exact sized

theorem Sized.step (sized : sizes.Sized) {event : SizeEvent}
    (undisturbed : sizes.undisturbed event = true) : (sizes.step event).Sized := by
  cases event with
  | setPoolSize newSize =>
      refine { sized with target_le := ?_, setters := ?_ }
      · intro settled
        exact sized.target_le fun setter there => settled setter (List.mem_append_left _ there)
      · intro setter there
        rcases List.mem_append.mp there with before | new
        · exact sized.setters setter before
        · rw [List.mem_singleton.mp new]
          exact le_max_right newSize 1
  | advance index => exact sized.advance undisturbed
  | sample wait gets => exact sized.sample wait gets
  | loadTarget => exact sized.loadTarget
  | loadMax => exact sized.loadMax undisturbed
  | store expired => exact sized.store expired

theorem Sized.bounded (sized : sizes.Sized) : sizes.Bounded := by
  rintro ⟨_, returned⟩
  refine ⟨sized.one_le_target, sized.target_le ?_⟩
  intro setter there
  rw [returned setter there]
  rfl

/--
Whenever the manager and all calls of `set_pool_size` are through, the target is between one
and the maximum, in every run in which no call lowers the maximum between the accesses of
another one.
-/
theorem bounded_of_undisturbed {poolSize : ℕ} {events : List SizeEvent}
    (alone : Along step (fun sizes event => sizes.undisturbed event = true) (new poolSize)
      events) :
    Throughout step Bounded (new poolSize) events :=
  throughout_of_along Sized (fun sized => sized.bounded)
    (fun sized undisturbed => sized.step undisturbed) alone (sized_new poolSize)

/-- The maximum is lowered and raised between two cycles of the manager. -/
def loweredAndRaised : List SizeEvent :=
  [.setPoolSize 2, .advance 0, .advance 0, .advance 0, .setPoolSize 8, .advance 1, .advance 1,
    .advance 1, .sample 3 4, .loadTarget, .loadMax, .store 0]

theorem bounded_of_undisturbed_loweredAndRaised :
    Throughout step Bounded (new 4) loweredAndRaised := by
  apply bounded_of_undisturbed
  decide

/-- The maximum is lowered while the manager decides for the one before. -/
def loweredUnderManager : List SizeEvent :=
  [.setPoolSize 3, .advance 0, .advance 0, .advance 0, .sample 0 0, .loadTarget, .loadMax,
    .setPoolSize 1, .advance 1, .advance 1, .advance 1, .store 0]

/-- Below its floor the target is raised, whatever the demand is. -/
theorem decideNewTarget_one_three (waitEvents totalGets expiredUnused : UInt64) :
    decideNewTarget 1 waitEvents totalGets expiredUnused 3 = 2 := by
  unfold decideNewTarget
  dsimp only
  split
  · rfl
  · rw [if_neg (fun shrinks => absurd shrinks.2.2 (by decide))]
    rfl

theorem not_bounded_loweredUnderManager :
    ¬Throughout step Bounded (new 1) loweredUnderManager := by
  intro throughout
  have target : (run step (new 1) loweredUnderManager).targetSize =
      if decideNewTarget 1 0 0 0 3 ≠ 1 then decideNewTarget 1 0 0 0 3 else 1 := rfl
  rw [decideNewTarget_one_three] at target
  have finished : (run step (new 1) loweredUnderManager).Finished := ⟨rfl, by
    intro setter there
    change setter ∈ [.returned, .returned] at there
    simpa using there⟩
  have within := (throughout.run finished).2
  rw [target] at within
  exact absurd within (by decide)

end PoolSizes

end Mirage.Proxy
