import Mathlib.Algebra.Order.Group.Lattice
import Mathlib.Algebra.Order.Monoid.Prod
import Mirage.Foundations.Run
import Mirage.Foundations.Totals
import Mirage.Shell.JvmText

/-!
# Persistent traffic statistics

`flushLogsAndStats` compares the counters of the kernel with what its service
has recorded last and adds the difference to the statistics of the day and of
the month.  Periodic and final flushes, and the `prune` of a start, run on
different threads without a lock, so an event is one access to what they share:
the counters, the two recorded fields and the preferences.

A process may have had several instances of the service, each with its own
recorded fields.  A machine starts with the first start of a service.
-/

namespace Mirage.Shell

open Mirage.Foundations

/-- Bytes sent and received. -/
abbrev Traffic := ℤ × ℤ

/-- The preferences of `TrafficStatsStore`: traffic by day and by month. -/
structure TrafficStats where
  daily : FiniteMap String Traffic
  monthly : FiniteMap String Traffic
  deriving DecidableEq

namespace TrafficStats

def addTo (map : FiniteMap String Traffic) (key : String) (delta : Traffic) :
    FiniteMap String Traffic :=
  let old := FiniteMap.amount map key
  map.insert key (wrapLong (old.1 + delta.1), wrapLong (old.2 + delta.2))

def add (stats : TrafficStats) (day month : String) (delta : Traffic) : TrafficStats where
  daily := addTo stats.daily day delta
  monthly := addTo stats.monthly month delta

end TrafficStats

/-- The fields `lastRecordedUp` and `lastRecordedDown` of a `CoreService`. -/
structure LastRecorded where
  up : ℤ
  down : ℤ
  deriving DecidableEq, Repr

namespace LastRecorded

def unset : LastRecorded := ⟨-1, -1⟩

def traffic (recorded : LastRecorded) : Traffic := (recorded.up, recorded.down)

/-- The test on which `flushLogsAndStats` adds the difference. -/
def Precedes (recorded : LastRecorded) (reading : Traffic) : Prop :=
  0 ≤ recorded.up ∧ 0 ≤ recorded.down ∧ recorded.up ≤ reading.1 ∧ recorded.down ≤ reading.2

instance (recorded : LastRecorded) (reading : Traffic) : Decidable (recorded.Precedes reading) := by
  unfold Precedes
  infer_instance

end LastRecorded

/-- Where a flush is. -/
inductive FlushPhase where
  | readingUp
  | readingDown
  | comparing
  | loading (delta : Traffic)
  | saving (delta : Traffic) (loaded : TrafficStats) (day month : String)
  | recordingUp
  | recordingDown
  | done
  deriving DecidableEq

/-- `reading` is what a flush has of the counters, and `seen` what they were when it read them. -/
structure Flush where
  service : ℕ
  reading : Traffic
  seen : Traffic
  phase : FlushPhase
  deriving DecidableEq

namespace Flush

/-- What a flush has found to be new and has not yet put into the preferences. -/
def owed (flush : Flush) : Traffic :=
  match flush.phase with
  | .loading delta | .saving delta _ _ _ => delta
  | _ => 0

def goTo (flush : Flush) (phase : FlushPhase) : Flush :=
  { flush with phase }

/-- The comparison with what the service has recorded; `add` returns at once if nothing is new. -/
def compare (flush : Flush) (recorded : LastRecorded) : Flush :=
  let delta := flush.reading - recorded.traffic
  if recorded.Precedes flush.reading then
    if delta.1 ≤ 0 ∧ delta.2 ≤ 0 then flush.goTo .recordingUp else flush.goTo (.loading delta)
  else flush.goTo .recordingUp

end Flush

/-- The `prune` of a start, with the days which it finds too old. -/
inductive Prune where
  | loading (expired : List String)
  | saving (expired : List String) (loaded : FiniteMap String Traffic)
  | done
  deriving DecidableEq

/--
`first` are the counters at the first start and `last` those which the flushes
have reached; `pruned` is the traffic of the days which have been pruned.
-/
structure TrafficAccounting where
  up : ℕ
  down : ℕ
  services : List LastRecorded
  stats : TrafficStats
  flushes : List Flush
  prunes : List Prune
  before : TrafficStats
  first : Traffic
  last : Traffic
  pruned : Traffic

inductive AccountingEvent where
  | createService
  | startService (expired : List String)
  | traffic (up down : ℕ)
  | flush (service : ℕ)
  | readUp (index : ℕ)
  | readDown (index : ℕ)
  | compare (index : ℕ)
  | load (index : ℕ) (day month : String)
  | save (index : ℕ)
  | recordUp (index : ℕ)
  | recordDown (index : ℕ)
  | loadDays (index : ℕ)
  | prune (index : ℕ)
  deriving DecidableEq

namespace TrafficAccounting

/-- The first start of a service, with what the kernel has counted before and what is stored. -/
def start (up down : ℕ) (stats : TrafficStats) : TrafficAccounting where
  up := up
  down := down
  services := [.unset]
  stats := stats
  flushes := []
  prunes := []
  before := stats
  first := (up, down)
  last := (up, down)
  pruned := 0

def setFlush (accounting : TrafficAccounting) (index : ℕ) (flush : Flush) : TrafficAccounting :=
  { accounting with flushes := accounting.flushes.set index flush }

def setPrune (accounting : TrafficAccounting) (index : ℕ) (prune : Prune) : TrafficAccounting :=
  { accounting with prunes := accounting.prunes.set index prune }

def setService (accounting : TrafficAccounting) (service : ℕ)
    (change : LastRecorded → LastRecorded) : TrafficAccounting :=
  { accounting with services := accounting.services.modify service change }

def lastRecorded (accounting : TrafficAccounting) (service : ℕ) : LastRecorded :=
  accounting.services.getD service .unset

/-- A step of the flush at `index`. -/
def stepFlush (accounting : TrafficAccounting) (index : ℕ) (flush : Flush) :
    AccountingEvent → TrafficAccounting
  | .readUp _ =>
      if flush.phase = .readingUp then
        accounting.setFlush index { flush with
          reading := (throughDouble accounting.up, flush.reading.2)
          seen := (accounting.up, flush.seen.2)
          phase := .readingDown }
      else accounting
  | .readDown _ =>
      if flush.phase = .readingDown then
        accounting.setFlush index { flush with
          reading := (flush.reading.1, throughDouble accounting.down)
          seen := (flush.seen.1, accounting.down)
          phase := .comparing }
      else accounting
  | .compare _ =>
      if flush.phase = .comparing then
        { accounting.setFlush index (flush.compare (accounting.lastRecorded flush.service)) with
          last := accounting.last ⊔ flush.seen }
      else accounting
  | .load _ day month =>
      match flush.phase with
      | .loading delta =>
          accounting.setFlush index (flush.goTo (.saving delta accounting.stats day month))
      | _ => accounting
  | .save _ =>
      match flush.phase with
      | .saving delta loaded day month =>
          { accounting.setFlush index (flush.goTo .recordingUp) with
            stats := loaded.add day month delta }
      | _ => accounting
  | .recordUp _ =>
      if flush.phase = .recordingUp then
        (accounting.setFlush index (flush.goTo .recordingDown)).setService flush.service
          fun recorded => { recorded with up := flush.reading.1 }
      else accounting
  | .recordDown _ =>
      if flush.phase = .recordingDown then
        (accounting.setFlush index (flush.goTo .done)).setService flush.service
          fun recorded => { recorded with down := flush.reading.2 }
      else accounting
  | _ => accounting

/-- A step of the prune at `index`, which writes only if it removes something. -/
def stepPrune (accounting : TrafficAccounting) (index : ℕ) (prune : Prune) :
    AccountingEvent → TrafficAccounting
  | .loadDays _ =>
      match prune with
      | .loading expired => accounting.setPrune index (.saving expired accounting.stats.daily)
      | _ => accounting
  | .prune _ =>
      match prune with
      | .saving expired loaded =>
          let old := loaded.retain expired.contains
          if old.entries.isEmpty then accounting.setPrune index .done
          else
            { accounting.setPrune index .done with
              stats := { accounting.stats with
                daily := loaded.retain fun day => !expired.contains day }
              pruned := accounting.pruned + FiniteMap.total old }
      | _ => accounting
  | _ => accounting

def step (accounting : TrafficAccounting) (event : AccountingEvent) : TrafficAccounting :=
  match event with
  | .createService => { accounting with services := accounting.services ++ [.unset] }
  | .startService expired =>
      { accounting with prunes := accounting.prunes ++ [.loading expired] }
  | .traffic up down =>
      { accounting with up := accounting.up + up, down := accounting.down + down }
  | .flush service =>
      if service < accounting.services.length then
        { accounting with flushes := accounting.flushes ++ [⟨service, 0, 0, .readingUp⟩] }
      else accounting
  | .readUp index | .readDown index | .compare index | .load index _ _ | .save index
  | .recordUp index | .recordDown index =>
      match accounting.flushes[index]? with
      | some flush => accounting.stepFlush index flush event
      | none => accounting
  | .loadDays index | .prune index =>
      match accounting.prunes[index]? with
      | some prune => accounting.stepPrune index prune event
      | none => accounting

/-- No flush is between its comparison and its put. -/
def Quiet (accounting : TrafficAccounting) : Prop :=
  ∀ flush ∈ accounting.flushes, flush.owed = 0

instance (accounting : TrafficAccounting) : Decidable accounting.Quiet := by
  unfold Quiet
  infer_instance

/--
What has been added to the statistics since the first start is what the kernel
has counted from there to the last flush; days which have been pruned still count.
-/
def Exact (accounting : TrafficAccounting) : Prop :=
  accounting.Quiet →
    FiniteMap.total accounting.stats.monthly =
        FiniteMap.total accounting.before.monthly + (accounting.last - accounting.first) ∧
      FiniteMap.total accounting.stats.daily + accounting.pruned =
        FiniteMap.total accounting.before.daily + (accounting.last - accounting.first)

end TrafficAccounting

end Mirage.Shell
