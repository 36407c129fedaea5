import Mirage.Foundations.Run

/-!
# Flows which are given up for idleness

A loop of a relay arms its wait before it waits, and asks then whether a reply has come.  In the
relay of a mux session a flag tells, which the demux pump sets.  A reply which comes during
the wait does not make it longer, and no loop looks at the other direction.

Times are in nanoseconds; a timer runs out at its deadline or later, and not while there is
something to take.
-/

namespace Mirage.Tun

open Mirage.Foundations

def seconds (number : ℕ) : ℕ :=
  number * 1000000000

def udpIdle : ℕ := seconds 60

def firstDownlinkTimeout : ℕ := seconds 8

def muxIdleTimeout : ℕ := seconds 60

def muxFirstDownlink : ℕ := seconds 8

inductive RelayPath where
  | mux
  | legacy
  | direct
  deriving DecidableEq

inductive RelayHalf where
  /-- The loop which owns the receiver -/
  | uplink
  /-- `up`, or the demux pump of the tunnel -/
  | downlink
  deriving DecidableEq

inductive LoopPhase where
  | head
  /-- `firstReply` if the wait is the one for the first reply -/
  | waiting (armed wait : ℕ) (firstReply : Bool)
  | sending
  | ended
  deriving DecidableEq

/-- When the datagrams of a flow came. -/
structure FlowTimes where
  started : ℕ
  firstDown : Option ℕ
  lastDown : ℕ
  lastUp : ℕ
  deriving DecidableEq

/-- A loop has ended because nothing came. -/
structure IdleEnding where
  firstReply : Bool
  time : ℕ
  times : FlowTimes
  deriving DecidableEq

structure TimedRelay where
  now : ℕ
  /-- The datagrams in the channel -/
  queue : ℕ
  gotDownlink : Bool
  uplink : LoopPhase
  downlink : LoopPhase
  times : FlowTimes
  endings : List IdleEnding
  deriving DecidableEq

inductive TimedEvent where
  | elapse (duration : ℕ)
  /-- `feed` has a datagram of the flow. -/
  | fed
  /-- A chunk or a datagram is read; `ours` if a datagram of the flow is in it. -/
  | received (ours : Bool)
  | arm (half : RelayHalf)
  /-- `recv` returns a datagram, which may have no frame. -/
  | take (framed : Bool)
  /-- `try_recv` returns one more datagram for the batch. -/
  | takeMore
  | sent (ok : Bool)
  | timeout (half : RelayHalf)
  /-- The channel is closed, or a read fails. -/
  | fails (half : RelayHalf)
  | abort
  deriving DecidableEq

namespace TimedRelay

/-- The loops start; the demux pump of a mux tunnel has been waiting since `armed`. -/
def start (path : RelayPath) (now armed : ℕ) : TimedRelay where
  now := now
  queue := 1
  gotDownlink := false
  uplink := .head
  downlink :=
    match path with
    | .mux => .waiting armed muxIdleTimeout false
    | .legacy | .direct => .head
  times := ⟨now, none, now, now⟩
  endings := []

variable (path : RelayPath)

/-- The channel holds 256 datagrams; what does not fit is lost. -/
def fed (relay : TimedRelay) : TimedRelay :=
  { relay with
    queue := if relay.uplink = .ended ∨ 256 ≤ relay.queue then relay.queue else relay.queue + 1
    times := { relay.times with lastUp := relay.now } }

/-- Any chunk is a downlink for `up` of a legacy flow, and any datagram for a direct one. -/
def received (relay : TimedRelay) (ours : Bool) : TimedRelay :=
  match relay.downlink with
  | .waiting _ _ _ =>
      let relay :=
        { relay with
          downlink := .head
          gotDownlink := relay.gotDownlink || ours || decide (path = .legacy) }
      if ours ∨ path = .direct then
        { relay with
          times :=
            { relay.times with
              firstDown := relay.times.firstDown.or (some relay.now)
              lastDown := relay.now } }
      else relay
  | _ => relay

/-- How long a loop is to wait, and whether for the first reply. -/
def nextWait (relay : TimedRelay) : RelayHalf → ℕ × Bool
  | .uplink =>
      match path with
      | .mux =>
          if relay.gotDownlink then (udpIdle, false)
          else (muxFirstDownlink - (relay.now - relay.times.started), true)
      | .legacy | .direct => (udpIdle, false)
  | .downlink =>
      match path with
      | .mux => (muxIdleTimeout, false)
      | .legacy => if relay.gotDownlink then (udpIdle, false) else (firstDownlinkTimeout, true)
      | .direct => (udpIdle, false)

def phase (relay : TimedRelay) : RelayHalf → LoopPhase
  | .uplink => relay.uplink
  | .downlink => relay.downlink

def setPhase (relay : TimedRelay) (half : RelayHalf) (phase : LoopPhase) : TimedRelay :=
  match half with
  | .uplink => { relay with uplink := phase }
  | .downlink => { relay with downlink := phase }

/-- A loop ends; a mux session is over with its relay loop. -/
def endLoop (relay : TimedRelay) (half : RelayHalf) : TimedRelay :=
  match half with
  | .uplink =>
      { relay with
        uplink := .ended
        downlink := if path = .mux then .ended else relay.downlink }
  | .downlink => { relay with downlink := .ended }

def record (relay : TimedRelay) (firstReply : Bool) : TimedRelay :=
  { relay with endings := relay.endings ++ [⟨firstReply, relay.now, relay.times⟩] }

/-- Only the rest of the time for the first reply can be zero. -/
def arm (relay : TimedRelay) (half : RelayHalf) : TimedRelay :=
  match relay.phase half with
  | .head =>
      let (wait, firstReply) := relay.nextWait path half
      if wait = 0 then (relay.record firstReply).endLoop path half
      else relay.setPhase half (.waiting relay.now wait firstReply)
  | _ => relay

/-- There is nothing to take for a loop. -/
def Empty (relay : TimedRelay) : RelayHalf → Prop
  | .uplink => relay.queue = 0
  | .downlink => True

instance (relay : TimedRelay) (half : RelayHalf) : Decidable (relay.Empty half) :=
  match half with
  | .uplink => inferInstanceAs (Decidable (relay.queue = 0))
  | .downlink => .isTrue trivial

def timeout (relay : TimedRelay) (half : RelayHalf) : TimedRelay :=
  match relay.phase half with
  | .waiting armed wait firstReply =>
      if armed + wait ≤ relay.now ∧ relay.Empty half then
        (relay.record firstReply).endLoop path half
      else relay
  | _ => relay

def take (relay : TimedRelay) (framed : Bool) : TimedRelay :=
  match relay.uplink with
  | .waiting _ _ _ =>
      if relay.queue = 0 then relay
      else
        { relay with
          queue := relay.queue - 1
          uplink := if framed ∨ path = .direct then .sending else .head }
  | _ => relay

def step (relay : TimedRelay) : TimedEvent → TimedRelay
  | .elapse duration => { relay with now := relay.now + duration }
  | .fed => relay.fed
  | .received ours => relay.received path ours
  | .arm half => relay.arm path half
  | .take framed => relay.take path framed
  | .takeMore =>
      if relay.uplink = .sending ∧ path = .legacy then { relay with queue := relay.queue - 1 }
      else relay
  | .sent ok =>
      if relay.uplink = .sending then
        if ok then { relay with uplink := .head } else relay.endLoop path .uplink
      else relay
  | .timeout half => relay.timeout path half
  | .fails half =>
      match relay.phase half with
      | .waiting _ _ _ => relay.endLoop path half
      | _ => relay
  -- The relay loop of a mux session is not aborted while it sends.
  | .abort =>
      if path = .mux ∧ relay.uplink = .sending then relay
      else { relay with uplink := .ended, downlink := .ended }

end TimedRelay

/-- The last datagram of the direction which a loop does not look at -/
def FlowTimes.lastOther (times : FlowTimes) : RelayHalf → ℕ
  | .uplink => times.lastDown
  | .downlink => times.lastUp

/--
The flow is given up for the lack of a reply only if none came in time, and after a
reply only if nothing came in either direction for `UDP_IDLE`.
-/
structure IdleEnding.Right (ending : IdleEnding) : Prop where
  noReply : ending.firstReply = true → ∀ first, ending.times.firstDown = some first →
    ending.times.started + muxFirstDownlink < first
  idle : ending.times.firstDown ≠ none →
    ending.times.lastUp + udpIdle ≤ ending.time ∧ ending.times.lastDown + udpIdle ≤ ending.time

namespace TimedRelay

def AllRight (relay : TimedRelay) : Prop :=
  ∀ ending ∈ relay.endings, ending.Right

/-- The wait of a loop is over. -/
structure RunsOut (relay : TimedRelay) (half : RelayHalf) (armed wait : ℕ) (firstReply : Bool) :
    Prop where
  waiting : relay.phase half = .waiting armed wait firstReply
  expired : armed + wait ≤ relay.now
  empty : relay.Empty half

/--
A wait which runs out after the first reply was armed after it, and since then nothing has
come in the other direction.
-/
def Quiet (relay : TimedRelay) : TimedEvent → Prop
  | .timeout half => ∀ armed wait firstReply, relay.RunsOut half armed wait firstReply →
      relay.times.firstDown ≠ none → firstReply = false ∧ relay.times.lastOther half ≤ armed
  | _ => True

/-- A timer runs out at its deadline. -/
def Punctual (relay : TimedRelay) : TimedEvent → Prop
  | .timeout half => ∀ armed wait firstReply, relay.RunsOut half armed wait firstReply →
      relay.now = armed + wait
  | _ => True

/-- What the waits say of the datagrams. -/
structure Timed (path : RelayPath) (relay : TimedRelay) : Prop where
  lastUp : relay.times.lastUp ≤ relay.now
  lastDown : relay.times.lastDown ≤ relay.now
  flag : path ≠ .direct → relay.gotDownlink = false → relay.times.firstDown = none
  uplink : ∀ armed wait firstReply, relay.uplink = .waiting armed wait firstReply →
    armed ≤ relay.now ∧ (relay.queue = 0 → relay.times.lastUp ≤ armed) ∧
      (firstReply = false → wait = udpIdle) ∧
      (firstReply = true → wait < udpIdle ∧
        (relay.times.firstDown ≠ none → armed ≤ relay.times.lastDown))
  downlink : ∀ armed wait firstReply, relay.downlink = .waiting armed wait firstReply →
    (relay.times.firstDown ≠ none → firstReply = false ∧ relay.times.lastDown ≤ armed) ∧
      (firstReply = false → wait = udpIdle)

variable {path : RelayPath} {relay after : TimedRelay} {half : RelayHalf}

theorem timed_start (path : RelayPath) (now armed : ℕ) : (start path now armed).Timed path where
  lastUp := Nat.le_refl _
  lastDown := Nat.le_refl _
  flag _ _ := rfl
  uplink _ _ _ waiting := nomatch waiting
  downlink _ _ _ waiting := by
    cases path with
    | mux =>
        cases waiting
        exact ⟨fun replied => absurd rfl replied, fun _ => rfl⟩
    | legacy | direct => cases waiting

/-- No wait begins. -/
theorem Timed.of_waits (timed : relay.Timed path) (now : after.now = relay.now)
    (flag : after.gotDownlink = relay.gotDownlink) (times : after.times = relay.times)
    (uplink : ∀ armed wait firstReply, after.uplink = .waiting armed wait firstReply →
      relay.uplink = .waiting armed wait firstReply ∧ after.queue = relay.queue)
    (downlink : ∀ armed wait firstReply, after.downlink = .waiting armed wait firstReply →
      relay.downlink = .waiting armed wait firstReply) : after.Timed path := by
  refine ⟨?_, ?_, ?_, ?_, ?_⟩
  · rw [now, times]
    exact timed.lastUp
  · rw [now, times]
    exact timed.lastDown
  · rw [flag, times]
    exact timed.flag
  · intro armed wait firstReply waiting
    rcases uplink armed wait firstReply waiting with ⟨before, queue⟩
    rw [now, queue, times]
    exact timed.uplink armed wait firstReply before
  · intro armed wait firstReply waiting
    rw [times]
    exact timed.downlink armed wait firstReply (downlink armed wait firstReply waiting)

theorem Timed.endLoop (timed : relay.Timed path) (half : RelayHalf) :
    (relay.endLoop path half).Timed path := by
  cases half with
  | uplink =>
      refine timed.of_waits rfl rfl rfl ?_ ?_
      · exact fun _ _ _ waiting => nomatch waiting
      · intro armed wait firstReply waiting
        simp only [TimedRelay.endLoop] at waiting
        split at waiting
        · cases waiting
        · exact waiting
  | downlink =>
      refine timed.of_waits rfl rfl rfl ?_ ?_
      · exact fun _ _ _ waiting => ⟨waiting, rfl⟩
      · exact fun _ _ _ waiting => nomatch waiting

theorem Timed.record (timed : relay.Timed path) (firstReply : Bool) :
    (relay.record firstReply).Timed path :=
  timed.of_waits rfl rfl rfl (fun _ _ _ waiting => ⟨waiting, rfl⟩) fun _ _ _ waiting => waiting

theorem Timed.elapse (timed : relay.Timed path) (duration : ℕ) :
    Timed path { relay with now := relay.now + duration } where
  lastUp := Nat.le_add_right_of_le timed.lastUp
  lastDown := Nat.le_add_right_of_le timed.lastDown
  flag := timed.flag
  uplink armed wait firstReply waiting := by
    rcases timed.uplink armed wait firstReply waiting with ⟨before, rest⟩
    exact ⟨Nat.le_add_right_of_le before, rest⟩
  downlink := timed.downlink

theorem Timed.fed (timed : relay.Timed path) : relay.fed.Timed path where
  lastUp := Nat.le_refl _
  lastDown := timed.lastDown
  flag := timed.flag
  uplink armed wait firstReply waiting := by
    rcases timed.uplink armed wait firstReply waiting with ⟨before, -, rest⟩
    refine ⟨before, ?_, rest⟩
    -- The loop will find the datagram.
    intro empty
    change relay.uplink = _ at waiting
    simp only [TimedRelay.fed, waiting, reduceCtorEq, false_or] at empty
    split at empty <;> omega
  downlink := timed.downlink

theorem Timed.received (timed : relay.Timed path) (ours : Bool) :
    (relay.received path ours).Timed path := by
  have flag : (relay.gotDownlink || ours || decide (path = .legacy)) = false →
      relay.gotDownlink = false ∧ ours = false := by
    intro unset
    simp only [Bool.or_eq_false_iff] at unset
    exact unset.1
  simp only [TimedRelay.received]
  split
  · split
    · rename_i counted
      refine ⟨timed.lastUp, Nat.le_refl _, ?_, ?_, nofun⟩
      · intro other unset
        rcases counted with is_ours | direct
        · rw [(flag unset).2] at is_ours
          cases is_ours
        · exact absurd direct other
      · intro armed wait firstReply waiting
        rcases timed.uplink armed wait firstReply waiting with ⟨before, queue, idle, short⟩
        exact ⟨before, queue, idle, fun first => ⟨(short first).1, fun _ => before⟩⟩
    · exact ⟨timed.lastUp, timed.lastDown, fun other unset => timed.flag other (flag unset).1,
        timed.uplink, nofun⟩
  · exact timed

theorem Timed.armUplink (timed : relay.Timed path) :
    (relay.setPhase .uplink
      (.waiting relay.now (relay.nextWait path .uplink).1 (relay.nextWait path .uplink).2)).Timed
        path where
  lastUp := timed.lastUp
  lastDown := timed.lastDown
  flag := timed.flag
  uplink := by
    have shorter : muxFirstDownlink - (relay.now - relay.times.started) < udpIdle :=
      Nat.lt_of_le_of_lt (Nat.sub_le _ _) (by decide)
    rintro armed wait firstReply waiting
    simp only [setPhase, nextWait] at waiting
    split at waiting
    · split at waiting
      · cases waiting
        exact ⟨Nat.le_refl _, fun _ => timed.lastUp, fun _ => rfl, nofun⟩
      · rename_i unset
        cases waiting
        have none := timed.flag (by decide) (Bool.eq_false_iff.mpr unset)
        exact ⟨Nat.le_refl _, fun _ => timed.lastUp, nofun,
          fun _ => ⟨shorter, fun replied => absurd none replied⟩⟩
    all_goals
      cases waiting
      exact ⟨Nat.le_refl _, fun _ => timed.lastUp, fun _ => rfl, nofun⟩
  downlink := timed.downlink

theorem Timed.armDownlink (timed : relay.Timed path) :
    (relay.setPhase .downlink
      (.waiting relay.now (relay.nextWait path .downlink).1
        (relay.nextWait path .downlink).2)).Timed path where
  lastUp := timed.lastUp
  lastDown := timed.lastDown
  flag := timed.flag
  uplink := timed.uplink
  downlink := by
    rintro armed wait firstReply waiting
    simp only [setPhase, nextWait] at waiting
    split at waiting
    · cases waiting
      exact ⟨fun _ => ⟨rfl, timed.lastDown⟩, fun _ => rfl⟩
    · split at waiting
      · cases waiting
        exact ⟨fun _ => ⟨rfl, timed.lastDown⟩, fun _ => rfl⟩
      · rename_i unset
        cases waiting
        have none := timed.flag (by decide) (Bool.eq_false_iff.mpr unset)
        exact ⟨fun replied => absurd none replied, nofun⟩
    · cases waiting
      exact ⟨fun _ => ⟨rfl, timed.lastDown⟩, fun _ => rfl⟩

theorem Timed.arm (timed : relay.Timed path) (half : RelayHalf) :
    (relay.arm path half).Timed path := by
  simp only [TimedRelay.arm]
  split
  · split
    · exact (timed.record _).endLoop half
    · cases half with
      | uplink => exact timed.armUplink
      | downlink => exact timed.armDownlink
  · exact timed

theorem Timed.timeout (timed : relay.Timed path) (half : RelayHalf) :
    (relay.timeout path half).Timed path := by
  simp only [TimedRelay.timeout]
  split
  · split
    · exact (timed.record _).endLoop half
    · exact timed
  · exact timed

theorem Timed.take (timed : relay.Timed path) (framed : Bool) :
    (relay.take path framed).Timed path := by
  simp only [TimedRelay.take]
  split
  · split
    · exact timed
    · refine timed.of_waits rfl rfl rfl ?_ fun _ _ _ waiting => waiting
      intro armed wait firstReply waiting
      dsimp only at waiting
      split at waiting <;> cases waiting
  · exact timed

theorem Timed.step (timed : relay.Timed path) (event : TimedEvent) :
    (relay.step path event).Timed path := by
  cases event with
  | elapse duration => exact timed.elapse duration
  | fed => exact timed.fed
  | received ours => exact timed.received ours
  | arm half => exact timed.arm half
  | take framed => exact timed.take framed
  | takeMore =>
      simp only [TimedRelay.step]
      split
      · rename_i sending
        refine timed.of_waits rfl rfl rfl ?_ fun _ _ _ waiting => waiting
        intro armed wait firstReply waiting
        dsimp only at waiting
        rw [sending.1] at waiting
        cases waiting
      · exact timed
  | sent ok =>
      simp only [TimedRelay.step]
      split
      · split
        · exact timed.of_waits rfl rfl rfl (fun _ _ _ waiting => nomatch waiting)
            fun _ _ _ waiting => waiting
        · exact timed.endLoop .uplink
      · exact timed
  | timeout half => exact timed.timeout half
  | fails half =>
      simp only [TimedRelay.step]
      split
      · exact timed.endLoop half
      · exact timed
  | abort =>
      simp only [TimedRelay.step]
      split
      · exact timed
      · exact timed.of_waits rfl rfl rfl (fun _ _ _ waiting => nomatch waiting)
          fun _ _ _ waiting => nomatch waiting

/-! ### The endings -/

section Endings

variable {armed wait : ℕ} {firstReply : Bool}

theorem endings_endLoop (relay : TimedRelay) (half : RelayHalf) :
    (relay.endLoop path half).endings = relay.endings := by
  cases half <;> rfl

theorem allRight_record_iff :
    ((relay.record firstReply).endLoop path half).AllRight ↔
      relay.AllRight ∧ IdleEnding.Right ⟨firstReply, relay.now, relay.times⟩ := by
  rw [AllRight, AllRight, endings_endLoop, record, List.forall_mem_append,
    List.forall_mem_singleton]

/-- Before the first reply there is nothing to be right about. -/
theorem right_of_none {ending : IdleEnding} (none : ending.times.firstDown = none) :
    ending.Right := by
  refine ⟨?_, fun replied => absurd none replied⟩
  intro _ first found
  rw [none] at found
  cases found

/-- A loop which does not wait at all knows of no reply. -/
theorem Timed.firstDown_of_wait_eq_zero (timed : relay.Timed path)
    (zero : (relay.nextWait path half).1 = 0) : relay.times.firstDown = none := by
  have positive : udpIdle ≠ 0 := by decide
  cases half with
  | uplink =>
      cases path with
      | mux =>
          simp only [nextWait] at zero
          split at zero
          · exact absurd zero positive
          · rename_i unset
            exact timed.flag (by decide) (Bool.eq_false_iff.mpr unset)
      | legacy | direct => exact absurd zero positive
  | downlink =>
      cases path with
      | mux => exact absurd zero positive
      | legacy =>
          simp only [nextWait] at zero
          split at zero
          · exact absurd zero positive
          · exact absurd zero (by decide)
      | direct => exact absurd zero positive

theorem Timed.allRight_arm_iff (timed : relay.Timed path) (half : RelayHalf) :
    (relay.arm path half).AllRight ↔ relay.AllRight := by
  simp only [TimedRelay.arm]
  split
  · split
    · rename_i zero
      rw [allRight_record_iff]
      exact and_iff_left (right_of_none (timed.firstDown_of_wait_eq_zero zero))
    · cases half <;> exact Iff.rfl
  · exact Iff.rfl

theorem timeout_of_runsOut (runsOut : relay.RunsOut half armed wait firstReply) :
    relay.timeout path half = (relay.record firstReply).endLoop path half := by
  simp only [TimedRelay.timeout, runsOut.waiting]
  exact if_pos ⟨runsOut.expired, runsOut.empty⟩

theorem timeout_of_not_runsOut
    (goesOn : ∀ armed wait firstReply, ¬relay.RunsOut half armed wait firstReply) :
    relay.timeout path half = relay := by
  simp only [TimedRelay.timeout]
  split
  · rename_i armed wait firstReply waiting
    split
    · rename_i out
      exact absurd ⟨waiting, out.1, out.2⟩ (goesOn armed wait firstReply)
    · rfl
  · rfl

/-- A wait of `UDP_IDLE` says that nothing came in its own direction. -/
theorem Timed.right_of_quiet (timed : relay.Timed path)
    (runsOut : relay.RunsOut half armed wait firstReply)
    (quiet : relay.times.firstDown ≠ none →
      firstReply = false ∧ relay.times.lastOther half ≤ armed) :
    IdleEnding.Right ⟨firstReply, relay.now, relay.times⟩ := by
  have expired := runsOut.expired
  have waiting := runsOut.waiting
  refine ⟨?_, ?_⟩
  · rintro first time found
    have late := (quiet (by rw [found]; exact Option.some_ne_none _)).1
    exact absurd (first.symm.trans late) (by decide)
  · intro replied
    rcases quiet replied with ⟨late, other⟩
    cases half with
    | uplink =>
        rcases timed.uplink armed wait firstReply waiting with ⟨-, own, idle, -⟩
        have up := own runsOut.empty
        have wait_eq := idle late
        dsimp only [FlowTimes.lastOther] at other ⊢
        omega
    | downlink =>
        rcases timed.downlink armed wait firstReply waiting with ⟨own, idle⟩
        have down := (own replied).2
        have wait_eq := idle late
        dsimp only [FlowTimes.lastOther] at other ⊢
        omega

theorem Timed.quiet_of_right (timed : relay.Timed path)
    (runsOut : relay.RunsOut half armed wait firstReply) (punctual : relay.now = armed + wait)
    (right : IdleEnding.Right ⟨firstReply, relay.now, relay.times⟩)
    (replied : relay.times.firstDown ≠ none) :
    firstReply = false ∧ relay.times.lastOther half ≤ armed := by
  have waiting := runsOut.waiting
  have silent := right.idle replied
  dsimp only at silent
  cases half with
  | uplink =>
      rcases timed.uplink armed wait firstReply waiting with ⟨-, -, idle, short⟩
      cases firstReply with
      | true =>
          -- The reply came during the wait, which is shorter than `UDP_IDLE`.
          rcases short rfl with ⟨shorter, during⟩
          have later := during replied
          omega
      | false =>
          have wait_eq := idle rfl
          refine ⟨rfl, ?_⟩
          dsimp only [FlowTimes.lastOther]
          omega
  | downlink =>
      rcases timed.downlink armed wait firstReply waiting with ⟨own, idle⟩
      have late := (own replied).1
      have wait_eq := idle late
      refine ⟨late, ?_⟩
      dsimp only [FlowTimes.lastOther]
      omega

/-- Only the arming of a wait and its end can give a flow up. -/
theorem allRight_step_iff_of_kept {event : TimedEvent} (timed : relay.Timed path)
    (kept : ∀ half, event ≠ .timeout half) :
    (relay.step path event).AllRight ↔ relay.AllRight := by
  have same_of : ∀ {after : TimedRelay}, after.endings = relay.endings →
      (after.AllRight ↔ relay.AllRight) := by
    intro after endings
    rw [AllRight, AllRight, endings]
  cases event with
  | timeout half => exact absurd rfl (kept half)
  | arm half => exact timed.allRight_arm_iff half
  | elapse duration | fed => exact Iff.rfl
  | received ours =>
      simp only [TimedRelay.step, TimedRelay.received]
      split
      · split <;> exact Iff.rfl
      · exact Iff.rfl
  | take framed =>
      simp only [TimedRelay.step, TimedRelay.take]
      split
      · split <;> exact Iff.rfl
      · exact Iff.rfl
  | takeMore =>
      simp only [TimedRelay.step]
      split <;> exact Iff.rfl
  | sent ok =>
      simp only [TimedRelay.step]
      split
      · split <;> exact Iff.rfl
      · exact Iff.rfl
  | fails half =>
      simp only [TimedRelay.step]
      split
      · exact same_of (endings_endLoop relay half)
      · exact Iff.rfl
  | abort =>
      simp only [TimedRelay.step]
      split <;> exact Iff.rfl

theorem Timed.allRight_step {event : TimedEvent} (timed : relay.Timed path)
    (right : relay.AllRight) (quiet : relay.Quiet event) :
    (relay.step path event).AllRight := by
  cases event with
  | timeout half =>
      simp only [TimedRelay.step]
      by_cases out : ∃ armed wait firstReply, relay.RunsOut half armed wait firstReply
      · rcases out with ⟨armed, wait, firstReply, runsOut⟩
        rw [timeout_of_runsOut runsOut, allRight_record_iff]
        exact ⟨right, timed.right_of_quiet runsOut (quiet armed wait firstReply runsOut)⟩
      · rw [timeout_of_not_runsOut fun armed wait firstReply runsOut =>
          out ⟨armed, wait, firstReply, runsOut⟩]
        exact right
  | _ => exact (allRight_step_iff_of_kept timed (by simp)).mpr right

theorem Timed.quiet_of_step {event : TimedEvent} (timed : relay.Timed path)
    (punctual : relay.Punctual event) (right : (relay.step path event).AllRight) :
    relay.Quiet event := by
  cases event with
  | timeout half =>
      intro armed wait firstReply runsOut
      simp only [TimedRelay.step, timeout_of_runsOut runsOut, allRight_record_iff] at right
      exact timed.quiet_of_right runsOut (punctual armed wait firstReply runsOut) right.2
  | _ => trivial

end Endings

/--
On all three paths a flow is given up rightly if no wait which was armed before the first
reply runs out after it, and none of `UDP_IDLE` although the other direction is in use.
With timers which run out on time that is exactly what it takes.
-/
theorem gives_up_rightly (path : RelayPath) (now armed : ℕ) (events : List TimedEvent) :
    (Along (step path) Quiet (start path now armed) events →
      Throughout (step path) AllRight (start path now armed) events) ∧
    (Along (step path) Punctual (start path now armed) events →
      (Throughout (step path) AllRight (start path now armed) events ↔
        Along (step path) Quiet (start path now armed) events)) := by
  have initially : (start path now armed).Timed path ∧ (start path now armed).AllRight :=
    ⟨timed_start path now armed, fun _ member => nomatch member⟩
  constructor
  · intro quiet
    exact throughout_of_along (fun relay => relay.Timed path ∧ relay.AllRight) (fun both => both.2)
      (fun both met => ⟨both.1.step _, both.1.allRight_step both.2 met⟩) quiet initially
  · intro punctual
    exact throughout_iff_along (fun relay => relay.Timed path ∧ relay.AllRight)
      (fun both => both.2) (fun _ both met => ⟨both.1.step _, both.1.allRight_step both.2 met⟩)
      (fun onTime both right => both.1.quiet_of_step onTime right) punctual initially

/-- After a request, its reply and one more request nothing comes for a minute. -/
def bothSilent : List TimedEvent :=
  [.arm .uplink, .take true, .sent true, .arm .uplink, .elapse (seconds 1), .received true,
    .arm .downlink, .fed, .take true, .sent true, .arm .uplink, .elapse (seconds 60),
    .timeout .uplink]

theorem gives_up_rightly_bothSilent :
    Throughout (step .mux) AllRight (start .mux 0 0) bothSilent := by
  apply (gives_up_rightly .mux 0 0 bothSilent).1
  refine ⟨trivial, trivial, trivial, trivial, trivial, trivial, trivial, trivial, trivial, trivial,
    trivial, trivial, ?_, trivial⟩
  rintro armed wait firstReply ⟨waiting, -, -⟩ -
  have armed_eq : LoopPhase.waiting (seconds 1) udpIdle false = .waiting armed wait firstReply :=
    waiting
  cases armed_eq
  exact ⟨rfl, by decide +kernel⟩

/-- One request over a shared tunnel; the replies come after one second and later. -/
def oneRequest : List TimedEvent :=
  [.arm .uplink, .take true, .sent true, .arm .uplink, .elapse (seconds 1), .received true,
    .arm .downlink, .elapse (seconds 6), .received true, .arm .downlink, .elapse (seconds 1),
    .timeout .uplink]

theorem not_allRight_oneRequest : ¬(run (step .mux) (start .mux 0 0) oneRequest).AllRight := by
  intro right
  have ending := right ⟨true, seconds 8, 0, some (seconds 1), seconds 7, 0⟩ (by decide +kernel)
  exact absurd (ending.noReply rfl (seconds 1) rfl) (by decide)

end TimedRelay

end Mirage.Tun
