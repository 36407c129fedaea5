import Mirage.Foundations.Run
import Mirage.Foundations.Sealing

/-!
# The time offset

Each tunnel tells the client the time of the server once, in a frame.  The
difference from the local clock is stored if it is at most a day, and is added
to the local clock whenever a time of the protocol is computed.  Sums of `i64`
wrap, and so does `i64::abs` for the least one.
-/

namespace Mirage.TimeSync

open Mirage.Foundations

/-- `set_offset_from_server_time`, for what the local clock reads; `stored` is `TIME_OFFSET`. -/
def setOffsetFromServerTime (serverTime localTime : UInt64) (stored : Int64) : Int64 :=
  let offset := serverTime.toInt64 - localTime.toInt64
  if offset.abs > 86400 then stored else offset

def nowSec (localTime : UInt64) (stored : Int64) : UInt64 :=
  (max (localTime.toInt64 + stored) 0).toUInt64

def protoVerLegacy : UInt8 := 0x01

def protoVerAgility : UInt8 := 0x02

/-- The time of the server in a frame of the expected form, and whether it offers agility -/
def readTimeSync (data : List UInt8) : Option (UInt64 × Bool) :=
  match data with
  | kind :: version :: time =>
      if data.length = 10 ∧ kind = 0x01 ∧
          (version = protoVerLegacy ∨ version = protoVerAgility) then
        some (UInt64.ofNat (ofBigEndian time), version == protoVerAgility)
      else none
  | _ => none

def unexpectedFrame (data : List UInt8) : String :=
  "TIME_SYNC 非预期帧 (len=" ++ toString data.length ++ ", type=" ++
    (data.head?.elim "None" fun kind => "Some(" ++ toString kind ++ ")") ++ ")"

/-- The answer of `process_time_sync_frame`, and the stored offset after it -/
def processTimeSyncFrame (data : List UInt8) (localTime : UInt64) (stored : Int64) :
    Except String Bool × Int64 :=
  match readTimeSync data with
  | some (serverTime, serverAgility) =>
      (.ok serverAgility, setOffsetFromServerTime serverTime localTime stored)
  | none => (.error (unexpectedFrame data), stored)

inductive TimeEvent where
  | sync (serverTime localTime : UInt64)
  | frame (data : List UInt8) (localTime : UInt64)
  /-- The corrected time is computed. -/
  | read (localTime : UInt64)
  deriving DecidableEq, Repr

def step (stored : Int64) : TimeEvent → Int64
  | .sync serverTime localTime => setOffsetFromServerTime serverTime localTime stored
  | .frame data localTime => (processTimeSyncFrame data localTime stored).2
  | .read _ => stored

/-- At most a day -/
def Bounded (offset : Int64) : Prop :=
  offset.toInt.natAbs ≤ 86400

instance (offset : Int64) : Decidable (Bounded offset) :=
  inferInstanceAs (Decidable (_ ≤ _))

/-- The sum of `now_sec` does not overflow. -/
def SumFits (localTime : UInt64) (stored : Int64) : Prop :=
  -2 ^ 63 ≤ localTime.toInt64.toInt + stored.toInt ∧
    localTime.toInt64.toInt + stored.toInt < 2 ^ 63

/-- The stored offset stays as it is or becomes a bounded one, and a time is computed exactly. -/
def Sane (stored : Int64) : TimeEvent → Prop
  | .read localTime => SumFits localTime stored
  | event => step stored event = stored ∨ Bounded (step stored event)

/-- The clocks are half of the range of 64 bits apart. -/
def Opposite (serverTime localTime : UInt64) : Prop :=
  serverTime = localTime + 0x8000000000000000

/-- No clock is opposite to the local one, and no reading is carried past the end of `i64`. -/
def Regular (stored : Int64) : TimeEvent → Prop
  | .sync serverTime localTime => ¬Opposite serverTime localTime
  | .frame data localTime =>
      ∀ serverTime serverAgility, readTimeSync data = some (serverTime, serverAgility) →
        ¬Opposite serverTime localTime
  | .read localTime => (localTime.toNat < 2 ^ 63 ↔ (localTime.toNat : ℤ) + stored.toInt < 2 ^ 63)

theorem toInt_toInt64 (time : UInt64) :
    time.toInt64.toInt =
      if time.toNat < 2 ^ 63 then (time.toNat : ℤ) else time.toNat - 2 ^ 64 := by
  have signed : time.toInt64.toInt = time.toBitVec.toInt := rfl
  rw [signed, BitVec.toInt_eq_toNat_cond, UInt64.toNat_toBitVec]
  split <;> split <;> omega

/-- The absolute value of the least `i64` is itself, and no other one is wrong. -/
theorem abs_le_iff (offset : Int64) :
    ¬offset.abs > 86400 ↔ Bounded offset ∨ offset = Int64.minValue := by
  have abs : offset.abs.toInt =
      if offset = Int64.minValue then -2 ^ 63 else (offset.toInt.natAbs : ℤ) := by
    have signed : offset.abs.toInt = offset.toBitVec.abs.toInt := rfl
    have least : BitVec.intMin 64 = Int64.minValue.toBitVec := rfl
    rw [signed, BitVec.toInt_abs_eq_natAbs, least]
    exact if_congr Int64.toBitVec_inj rfl rfl
  rw [gt_iff_lt, Int64.lt_iff_toInt_lt, abs, Bounded]
  split
  · rename_i least
    simp [least]
  · rename_i other
    simp only [other, or_false, not_lt]
    exact Int.ofNat_le

theorem difference_eq_minValue (serverTime localTime : UInt64) :
    serverTime.toInt64 - localTime.toInt64 = Int64.minValue ↔ Opposite serverTime localTime := by
  have wrapped : serverTime.toInt64 - localTime.toInt64 = (serverTime - localTime).toInt64 := rfl
  have least : Int64.minValue = UInt64.toInt64 0x8000000000000000 := rfl
  have same : (serverTime - localTime).toInt64 = UInt64.toInt64 0x8000000000000000 ↔
      serverTime - localTime = 0x8000000000000000 :=
    ⟨congrArg Int64.toUInt64, congrArg UInt64.toInt64⟩
  rw [wrapped, least, same, Opposite, ← UInt64.toNat_inj, ← UInt64.toNat_inj,
    UInt64.toNat_sub, UInt64.toNat_add, UInt64.toNat_ofNat]
  have server_lt := serverTime.toNat_lt
  have local_lt := localTime.toNat_lt
  omega

/-- Unless the clocks are opposite, what is stored is bounded. -/
theorem setOffsetFromServerTime_cases (serverTime localTime : UInt64) (stored : Int64) :
    Opposite serverTime localTime ∧
        setOffsetFromServerTime serverTime localTime stored = Int64.minValue ∨
      ¬Opposite serverTime localTime ∧
        (setOffsetFromServerTime serverTime localTime stored = stored ∨
          Bounded (setOffsetFromServerTime serverTime localTime stored)) := by
  simp only [setOffsetFromServerTime]
  by_cases opposite : Opposite serverTime localTime
  · left
    have least := (difference_eq_minValue serverTime localTime).mpr opposite
    rw [if_neg ((abs_le_iff _).mpr (.inr least))]
    exact ⟨opposite, least⟩
  · right
    refine ⟨opposite, ?_⟩
    split
    · exact .inl rfl
    · rename_i small
      rcases (abs_le_iff _).mp small with bounded | least
      · exact .inr bounded
      · exact absurd ((difference_eq_minValue serverTime localTime).mp least) opposite

theorem not_bounded_minValue : ¬Bounded Int64.minValue := by
  decide

/-- A sum fits where it stays on the side of the end of `i64` on which the reading is. -/
theorem sumFits_iff (localTime : UInt64) {stored : Int64} (bounded : Bounded stored) :
    SumFits localTime stored ↔
      (localTime.toNat < 2 ^ 63 ↔ (localTime.toNat : ℤ) + stored.toInt < 2 ^ 63) := by
  have local_lt := localTime.toNat_lt
  rw [Bounded] at bounded
  rw [SumFits, toInt_toInt64]
  split <;> omega

/-- A sum which fits is the corrected time, or the time is before the epoch. -/
theorem nowSec_of_sumFits {localTime : UInt64} {stored : Int64} (fits : SumFits localTime stored) :
    (nowSec localTime stored).toNat = (localTime.toInt64.toInt + stored.toInt).toNat := by
  have sum : (localTime.toInt64 + stored).toInt = localTime.toInt64.toInt + stored.toInt := by
    rw [Int64.toInt_add]
    apply Int.bmod_eq_of_le
    · exact fits.1
    · exact fits.2
  have nonnegative (time : Int64) : (max time 0).toUInt64.toNat = time.toInt.toNat := by
    have greater : max time 0 = if time ≤ 0 then 0 else time := rfl
    rw [greater]
    split
    · rename_i past
      rw [Int64.le_iff_toInt_le, Int64.toInt_zero] at past
      rw [Int.toNat_of_nonpos past]
      rfl
    · rename_i future
      rw [Int64.le_iff_toInt_le, Int64.toInt_zero] at future
      have positive : (0 : Int64) ≤ time := by
        rw [Int64.le_iff_toInt_le, Int64.toInt_zero]
        omega
      rw [← Int64.toNat_toBitVec, Int64.toNat_toBitVec_of_le positive]
      rfl
  rw [nowSec, nonnegative, sum]

theorem sane_iff {stored : Int64} (bounded : Bounded stored) (event : TimeEvent) :
    Sane stored event ↔ Regular stored event := by
  have synced (serverTime localTime : UInt64) :
      (setOffsetFromServerTime serverTime localTime stored = stored ∨
          Bounded (setOffsetFromServerTime serverTime localTime stored)) ↔
        ¬Opposite serverTime localTime := by
    rcases setOffsetFromServerTime_cases serverTime localTime stored with
      ⟨opposite, least⟩ | ⟨regular, good⟩
    · rw [least]
      apply iff_of_false _ (not_not_intro opposite)
      rintro (same | small)
      · exact not_bounded_minValue (same ▸ bounded)
      · exact not_bounded_minValue small
    · exact iff_of_true good regular
  cases event with
  | sync serverTime localTime => exact synced serverTime localTime
  | read localTime => exact sumFits_iff localTime bounded
  | frame data localTime =>
      simp only [Sane, Regular, step, processTimeSyncFrame]
      split
      · rename_i serverTime serverAgility readable
        rw [synced]
        constructor
        · intro regular otherTime otherAgility same
          rw [readable, Option.some.injEq, Prod.mk.injEq] at same
          rwa [← same.1]
        · intro regular
          exact regular serverTime serverAgility readable
      · rename_i unreadable
        simp [unreadable]

theorem bounded_step {stored : Int64} (bounded : Bounded stored) {event : TimeEvent}
    (regular : Regular stored event) : Bounded (step stored event) := by
  have sane := (sane_iff bounded event).mpr regular
  cases event with
  | read localTime => exact bounded
  | sync serverTime localTime =>
      rcases sane with same | small
      · rwa [same]
      · exact small
  | frame data localTime =>
      rcases sane with same | small
      · rwa [same]
      · exact small

/-- The offset stays sane along a run exactly if no clock is opposite to the local one. -/
theorem offset_sane_iff (events : List TimeEvent) :
    Along step Sane 0 events ↔ Along step Regular 0 events := by
  apply along_congr Bounded
  · exact fun bounded => sane_iff bounded _
  · exact fun bounded regular => bounded_step bounded regular
  · decide

/-- A frame whose time is `2 ^ 63` seconds after the local clock -/
def oppositeFrame : List UInt8 :=
  [0x01, 0x02, 0x80, 0, 0, 0, 0x65, 0x53, 0xF1, 0x00]

/-- The clocks are opposite, and the least `i64` is stored: the corrected time is 0. -/
theorem not_offset_sane_oppositeFrame :
    step 0 (.frame oppositeFrame 0x6553F100) = Int64.minValue ∧
      ¬Sane 0 (.frame oppositeFrame 0x6553F100) ∧
      nowSec 0x6553F100 (step 0 (.frame oppositeFrame 0x6553F100)) = 0 := by
  have stored : step 0 (.frame oppositeFrame 0x6553F100) = Int64.minValue := by
    decide +kernel
  refine ⟨stored, ?_, ?_⟩
  · rintro (same | small)
    · rw [stored] at same
      revert same
      decide
    · rw [stored] at small
      exact not_bounded_minValue small
  · rw [stored]
    decide +kernel

end Mirage.TimeSync
