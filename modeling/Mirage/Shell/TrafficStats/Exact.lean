import Mathlib.Algebra.Ring.Prod
import Mathlib.Tactic.LinearCombination
import Mirage.Shell.TrafficStats

/-!
# When traffic accounting is exact

`Current` is the condition on a single access: what a flush compares with is
where the flushes have got to, and the statistics are as they were when they
were read.  The first flush of a service has nothing to compare with, so for it
nothing may have been transferred.
-/

namespace Mirage.Shell

open Mirage.Foundations

namespace TrafficStats

/-- No sum leaves the range of `Long`. -/
def Room (stats : TrafficStats) (day month : String) (delta : Traffic) : Prop :=
  ∀ old ∈ [FiniteMap.amount stats.daily day, FiniteMap.amount stats.monthly month],
    FitsLong (old.1 + delta.1) ∧ FitsLong (old.2 + delta.2)

instance (stats : TrafficStats) (day month : String) (delta : Traffic) :
    Decidable (stats.Room day month delta) := by
  unfold Room
  infer_instance

theorem total_addTo (map : FiniteMap String Traffic) (key : String) (delta : Traffic)
    (up_fits : FitsLong ((FiniteMap.amount map key).1 + delta.1))
    (down_fits : FitsLong ((FiniteMap.amount map key).2 + delta.2)) :
    FiniteMap.total (addTo map key delta) = FiniteMap.total map + delta := by
  simp only [addTo, wrapLong_of_fits up_fits, wrapLong_of_fits down_fits]
  exact FiniteMap.total_insert_add map key delta

end TrafficStats

/-- The statistics are as the flush has read them, and there is room for what it adds. -/
def FlushPhase.MaySave (phase : FlushPhase) (stats : TrafficStats) : Prop :=
  match phase with
  | .saving delta loaded day month => stats = loaded ∧ loaded.Room day month delta
  | _ => True

instance (phase : FlushPhase) (stats : TrafficStats) : Decidable (phase.MaySave stats) := by
  unfold FlushPhase.MaySave
  cases phase <;> infer_instance

/-- The days are as the prune has read them, if it removes any. -/
def Prune.MaySave (prune : Prune) (daily : FiniteMap String Traffic) : Prop :=
  match prune with
  | .saving expired loaded =>
      (loaded.retain expired.contains).entries.isEmpty = false → daily = loaded
  | _ => True

instance (prune : Prune) (daily : FiniteMap String Traffic) : Decidable (prune.MaySave daily) := by
  unfold Prune.MaySave
  cases prune <;> infer_instance

namespace TrafficAccounting

/-- The condition on an access under which no byte is lost or counted twice. -/
def Current (accounting : TrafficAccounting) : AccountingEvent → Prop
  | .readUp index =>
      ∀ flush ∈ accounting.flushes[index]?, flush.phase = .readingUp →
        throughDouble accounting.up = accounting.up
  | .readDown index =>
      ∀ flush ∈ accounting.flushes[index]?, flush.phase = .readingDown →
        throughDouble accounting.down = accounting.down
  | .compare index =>
      ∀ flush ∈ accounting.flushes[index]?, flush.phase = .comparing →
        let recorded := accounting.lastRecorded flush.service
        if recorded.Precedes flush.reading then
          recorded.traffic = accounting.last ⊓ flush.reading
        else flush.reading ≤ accounting.last
  | .save index => ∀ flush ∈ accounting.flushes[index]?, flush.phase.MaySave accounting.stats
  | .prune index => ∀ prune ∈ accounting.prunes[index]?, prune.MaySave accounting.stats.daily
  | _ => True

instance (accounting : TrafficAccounting) (event : AccountingEvent) :
    Decidable (Current accounting event) := by
  unfold Current
  cases event <;> infer_instance

/-- What all flushes together still have to put into the preferences. -/
def owed (accounting : TrafficAccounting) : Traffic :=
  (accounting.flushes.map Flush.owed).sum

/-- The invariant: what is stored and what is owed make up what the flushes have reached. -/
structure Accounted (accounting : TrafficAccounting) : Prop where
  faithful : ∀ flush ∈ accounting.flushes, flush.reading = flush.seen
  monthly : FiniteMap.total accounting.stats.monthly + accounting.owed =
    FiniteMap.total accounting.before.monthly + (accounting.last - accounting.first)
  daily : FiniteMap.total accounting.stats.daily + accounting.pruned + accounting.owed =
    FiniteMap.total accounting.before.daily + (accounting.last - accounting.first)

namespace Accounted

variable {accounting : TrafficAccounting}

theorem start (up down : ℕ) (stats : TrafficStats) :
    Accounted (TrafficAccounting.start up down stats) where
  faithful := by simp [TrafficAccounting.start]
  monthly := by simp [TrafficAccounting.start, owed]
  daily := by simp [TrafficAccounting.start, owed]

theorem exact (accounted : Accounted accounting) : Exact accounting := by
  intro quiet
  have nothing : accounting.owed = 0 := by
    apply List.sum_eq_zero
    intro amount member
    rcases List.mem_map.mp member with ⟨flush, there, rfl⟩
    exact quiet flush there
  have monthly := accounted.monthly
  have daily := accounted.daily
  rw [nothing, add_zero] at monthly daily
  exact ⟨monthly, daily⟩

/-- A step of a flush: what it puts and what it reaches are balanced by what it owes. -/
theorem transfer (accounted : Accounted accounting) {index : ℕ} {old new : Flush}
    (found : accounting.flushes[index]? = some old) (same : new.reading = new.seen)
    {stats : TrafficStats} {last : Traffic}
    (monthly : FiniteMap.total stats.monthly + new.owed + accounting.last =
      FiniteMap.total accounting.stats.monthly + old.owed + last)
    (daily : FiniteMap.total stats.daily + new.owed + accounting.last =
      FiniteMap.total accounting.stats.daily + old.owed + last) :
    Accounted { accounting.setFlush index new with stats, last } := by
  have balance := sum_map_set found Flush.owed new
  have before_monthly := accounted.monthly
  have before_daily := accounted.daily
  constructor
  case faithful =>
    intro other member
    rcases List.mem_or_eq_of_mem_set member with there | rfl
    · exact accounted.faithful other there
    · exact same
  case monthly =>
    simp only [owed, TrafficAccounting.setFlush] at before_monthly ⊢
    linear_combination balance + before_monthly + monthly
  case daily =>
    simp only [owed, TrafficAccounting.setFlush] at before_daily ⊢
    linear_combination balance + before_daily + daily

/-- A step of a flush which neither finds nor puts anything. -/
theorem setFlush (accounted : Accounted accounting) {index : ℕ} {old new : Flush}
    (found : accounting.flushes[index]? = some old) (same : new.reading = new.seen)
    (same_owed : new.owed = old.owed) : Accounted (accounting.setFlush index new) :=
  accounted.transfer found same (by rw [same_owed]) (by rw [same_owed])

/-- The recorded fields do not enter into the balance. -/
theorem setService (accounted : Accounted accounting) (service : ℕ)
    (change : LastRecorded → LastRecorded) : Accounted (accounting.setService service change) :=
  ⟨accounted.faithful, accounted.monthly, accounted.daily⟩

/-- A flush finds as new what has been transferred since the flushes before it. -/
theorem owed_compare {recorded : LastRecorded} {flush : Flush} {last : Traffic}
    (current : if recorded.Precedes flush.reading then recorded.traffic = last ⊓ flush.reading
      else flush.reading ≤ last) :
    (flush.compare recorded).owed = last ⊔ flush.reading - last := by
  unfold Flush.compare
  by_cases precedes : recorded.Precedes flush.reading
  · rw [if_pos precedes] at current ⊢
    have found : flush.reading - recorded.traffic = last ⊔ flush.reading - last := by
      rw [current, sub_eq_sub_iff_add_eq_add, add_comm (last ⊔ flush.reading), inf_add_sup,
        add_comm]
    rw [← found]
    split
    · rename_i nothing
      have zero : flush.reading - recorded.traffic = 0 := by
        rcases precedes with ⟨_, _, up_le, down_le⟩
        apply Prod.ext
        · exact le_antisymm nothing.1 (sub_nonneg.mpr up_le)
        · exact le_antisymm nothing.2 (sub_nonneg.mpr down_le)
      rw [zero]
      rfl
    · rfl
  · rw [if_neg precedes] at current ⊢
    rw [sup_eq_left.mpr current, sub_self]
    rfl

theorem compare_counts (flush : Flush) (recorded : LastRecorded) :
    (flush.compare recorded).reading = flush.reading ∧
      (flush.compare recorded).seen = flush.seen := by
  simp only [Flush.compare]
  split
  · split <;> exact ⟨rfl, rfl⟩
  · exact ⟨rfl, rfl⟩

section Steps

variable {index : ℕ} {flush : Flush}

theorem readUp (accounted : Accounted accounting) (found : accounting.flushes[index]? = some flush)
    (current : Current accounting (.readUp index)) :
    Accounted (accounting.stepFlush index flush (.readUp index)) := by
  simp only [stepFlush]
  split
  · rename_i phase
    refine accounted.setFlush found ?_ (by simp [Flush.owed, phase])
    rw [current flush found phase, accounted.faithful flush (List.mem_of_getElem? found)]
  · exact accounted

theorem readDown (accounted : Accounted accounting)
    (found : accounting.flushes[index]? = some flush)
    (current : Current accounting (.readDown index)) :
    Accounted (accounting.stepFlush index flush (.readDown index)) := by
  simp only [stepFlush]
  split
  · rename_i phase
    refine accounted.setFlush found ?_ (by simp [Flush.owed, phase])
    rw [current flush found phase, accounted.faithful flush (List.mem_of_getElem? found)]
  · exact accounted

theorem compare (accounted : Accounted accounting)
    (found : accounting.flushes[index]? = some flush)
    (current : Current accounting (.compare index)) :
    Accounted (accounting.stepFlush index flush (.compare index)) := by
  simp only [stepFlush]
  split
  · rename_i phase
    have same := accounted.faithful flush (List.mem_of_getElem? found)
    have old_owed : flush.owed = 0 := by simp [Flush.owed, phase]
    have new_owed := owed_compare (current flush found phase)
    rcases compare_counts flush (accounting.lastRecorded flush.service) with
      ⟨same_reading, same_seen⟩
    refine accounted.transfer found ?_ ?_ ?_
    · rw [same_reading, same_seen, same]
    · rw [new_owed, old_owed, add_zero, add_assoc, sub_add_cancel, same]
      rfl
    · rw [new_owed, old_owed, add_zero, add_assoc, sub_add_cancel, same]
      rfl
  · exact accounted

theorem load (accounted : Accounted accounting) (found : accounting.flushes[index]? = some flush)
    (day month : String) :
    Accounted (accounting.stepFlush index flush (.load index day month)) := by
  have same := accounted.faithful flush (List.mem_of_getElem? found)
  simp only [stepFlush]
  split
  · rename_i delta phase
    exact accounted.setFlush found same (by simp [Flush.owed, Flush.goTo, phase])
  · exact accounted

theorem save (accounted : Accounted accounting) (found : accounting.flushes[index]? = some flush)
    (current : Current accounting (.save index)) :
    Accounted (accounting.stepFlush index flush (.save index)) := by
  have here := current flush found
  simp only [stepFlush]
  split
  · rename_i delta loaded day month phase
    rw [phase] at here
    rcases here with ⟨rfl, room⟩
    have old_owed : flush.owed = delta := by simp [Flush.owed, phase]
    have new_owed : (flush.goTo .recordingUp).owed = 0 := rfl
    have same : (flush.goTo .recordingUp).reading = (flush.goTo .recordingUp).seen :=
      accounted.faithful flush (List.mem_of_getElem? found)
    rcases room _ List.mem_cons_self with ⟨up_daily, down_daily⟩
    rcases room _ (List.mem_cons_of_mem _ List.mem_cons_self) with ⟨up_monthly, down_monthly⟩
    refine accounted.transfer found same ?_ ?_
    · rw [TrafficStats.add, TrafficStats.total_addTo _ _ _ up_monthly down_monthly, old_owed,
        new_owed, add_zero]
      rfl
    · rw [TrafficStats.add, TrafficStats.total_addTo _ _ _ up_daily down_daily, old_owed,
        new_owed, add_zero]
      rfl
  · exact accounted

theorem record (accounted : Accounted accounting) (found : accounting.flushes[index]? = some flush)
    (before : flush.owed = 0) {phase : FlushPhase} (after : (flush.goTo phase).owed = 0)
    (change : LastRecorded → LastRecorded) :
    Accounted ((accounting.setFlush index (flush.goTo phase)).setService flush.service change) := by
  have same : (flush.goTo phase).reading = (flush.goTo phase).seen :=
    accounted.faithful flush (List.mem_of_getElem? found)
  exact (accounted.setFlush found same (after.trans before.symm)).setService _ _

end Steps

theorem prune (accounted : Accounted accounting) {index : ℕ} {prune : Prune}
    (found : accounting.prunes[index]? = some prune)
    (current : Current accounting (.prune index)) :
    Accounted (accounting.stepPrune index prune (.prune index)) := by
  have here := current prune found
  simp only [stepPrune]
  split
  · rename_i expired loaded
    split
    · exact ⟨accounted.faithful, accounted.monthly, accounted.daily⟩
    · rename_i removed
      have same := here (Bool.eq_false_iff.mpr removed)
      have split := FiniteMap.total_retain loaded expired.contains
      have daily := accounted.daily
      refine ⟨accounted.faithful, accounted.monthly, ?_⟩
      rw [same] at daily
      simp only [owed, setPrune] at daily ⊢
      linear_combination daily + split
  · exact accounted

/-- A step of a flush is one of the flush which there is. -/
theorem stepFlush (accounted : Accounted accounting) {index : ℕ} {event : AccountingEvent}
    (moves : ∀ flush, accounting.flushes[index]? = some flush →
      Accounted (accounting.stepFlush index flush event)) :
    Accounted (match accounting.flushes[index]? with
      | some flush => accounting.stepFlush index flush event
      | none => accounting) := by
  split
  · rename_i flush found
    exact moves flush found
  · exact accounted

theorem step (accounted : Accounted accounting) {event : AccountingEvent}
    (current : Current accounting event) : Accounted (accounting.step event) := by
  cases event with
  | createService => exact ⟨accounted.faithful, accounted.monthly, accounted.daily⟩
  | startService expired => exact ⟨accounted.faithful, accounted.monthly, accounted.daily⟩
  | traffic up down => exact ⟨accounted.faithful, accounted.monthly, accounted.daily⟩
  | flush service =>
      simp only [TrafficAccounting.step]
      split
      · refine ⟨?_, ?_, ?_⟩
        · intro flush member
          rcases List.mem_append.mp member with old | new
          · exact accounted.faithful flush old
          · obtain rfl := List.mem_singleton.mp new
            rfl
        · have monthly := accounted.monthly
          simpa [owed, Flush.owed] using monthly
        · have daily := accounted.daily
          simpa [owed, Flush.owed] using daily
      · exact accounted
  | loadDays index =>
      simp only [TrafficAccounting.step, stepPrune]
      split
      · split
        · exact ⟨accounted.faithful, accounted.monthly, accounted.daily⟩
        · exact accounted
      · exact accounted
  | prune index =>
      simp only [TrafficAccounting.step]
      split
      · rename_i found
        exact accounted.prune found current
      · exact accounted
  | recordUp index =>
      refine accounted.stepFlush fun flush found => ?_
      simp only [TrafficAccounting.stepFlush]
      split
      · rename_i phase
        exact accounted.record found (by simp [Flush.owed, phase]) rfl _
      · exact accounted
  | recordDown index =>
      refine accounted.stepFlush fun flush found => ?_
      simp only [TrafficAccounting.stepFlush]
      split
      · rename_i phase
        exact accounted.record found (by simp [Flush.owed, phase]) rfl _
      · exact accounted
  | readUp index => exact accounted.stepFlush fun flush found => accounted.readUp found current
  | readDown index => exact accounted.stepFlush fun flush found => accounted.readDown found current
  | compare index => exact accounted.stepFlush fun flush found => accounted.compare found current
  | load index day month =>
      exact accounted.stepFlush fun flush found => accounted.load found day month
  | save index => exact accounted.stepFlush fun flush found => accounted.save found current

end Accounted

/-- Along runs whose accesses are current every byte is counted exactly once. -/
theorem exact_of_current (up down : ℕ) (stats : TrafficStats) (events : List AccountingEvent)
    (current : Along TrafficAccounting.step Current (start up down stats) events) :
    Throughout TrafficAccounting.step Exact (start up down stats) events :=
  throughout_of_along Accounted Accounted.exact (fun accounted => accounted.step) current
    (Accounted.start up down stats)

/-- A flush before any traffic, and a flush after it. -/
theorem exact_twoFlushes :
    Throughout TrafficAccounting.step Exact (start 5 7 ⟨∅, ∅⟩)
      [.startService [], .loadDays 0, .prune 0, .flush 0, .readUp 0, .readDown 0, .compare 0,
        .recordUp 0, .recordDown 0, .traffic 100 50, .flush 0, .readUp 1, .readDown 1, .compare 1,
        .load 1 "2025-01-01" "2025-01", .save 1, .recordUp 1, .recordDown 1] :=
  exact_of_current 5 7 ⟨∅, ∅⟩ _ (by decide +kernel)

/-- What is transferred before the first flush of a service is not counted. -/
theorem not_exact_firstFlush :
    ¬Throughout TrafficAccounting.step Exact (start 0 0 ⟨∅, ∅⟩)
      [.traffic 100 0, .flush 0, .readUp 0, .readDown 0, .compare 0, .recordUp 0,
        .recordDown 0] := by
  intro throughout
  have counted := throughout.run (by decide +kernel)
  revert counted
  decide +kernel

end TrafficAccounting

end Mirage.Shell
