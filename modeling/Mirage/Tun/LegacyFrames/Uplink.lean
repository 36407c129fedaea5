import Mathlib.Algebra.BigOperators.Group.List.Basic
import Mathlib.Algebra.Order.BigOperators.Group.List
import Mirage.Foundations.Run
import Mirage.Tun.LegacyFrames

/-!
# The task which sends the datagrams of a legacy flow

`dn` takes a datagram from its channel and then, while the batch is short, what else is there,
and writes the frames of all of them at once.  As long as the writes succeed no datagram is
lost, sent twice or out of order; but only the first payload of each batch is counted.
-/

namespace Mirage.Tun

open Mirage.Foundations

/-- Where the datagrams of a flow go. -/
structure LegacyTarget where
  domain : Option String
  ip : Option IpAddr
  port : UInt16

def LegacyTarget.frame (target : LegacyTarget) (payload : List UInt8) : Option (List UInt8) :=
  buildFrame target.domain target.ip target.port payload

inductive UplinkPhase where
  | waiting
  /-- In the loop over `try_recv`; `payload` is the first one. -/
  | collecting (payload batch : List UInt8)
  | sending (payload batch : List UInt8)
  | ended
  deriving DecidableEq

/-- The task `dn`, and the counter of the connection. -/
structure LegacyUplink where
  queue : List (List UInt8)
  phase : UplinkPhase
  sent : ℕ
  connUp : ℕ
  /-- What the channel has accepted. -/
  arrived : List (List UInt8)
  /-- The datagrams of the batch. -/
  inHand : List (List UInt8)
  /-- The datagrams which were written, or have no frame. -/
  finished : List (List UInt8)
  written : List (List UInt8)

inductive UplinkEvent where
  | arrive (payload : List UInt8)
  | recv
  /-- A turn of the loop over `try_recv`, which may find nothing. -/
  | tryRecv (found : Bool)
  | sendData (ok : Bool)
  | idle
  | abort

namespace LegacyUplink

def start : LegacyUplink :=
  ⟨[], .waiting, 0, 0, [], [], [], []⟩

/-- `try_send` to the channel of 256 datagrams. -/
def arrive (uplink : LegacyUplink) (payload : List UInt8) : LegacyUplink :=
  if uplink.phase = .ended ∨ 256 ≤ uplink.queue.length then uplink
  else
    { uplink with
      queue := uplink.queue ++ [payload]
      arrived := uplink.arrived ++ [payload] }

variable (target : LegacyTarget)

def recv (uplink : LegacyUplink) : LegacyUplink :=
  match uplink.phase, uplink.queue with
  | .waiting, payload :: rest =>
      match target.frame payload with
      | some frame =>
          { uplink with
            queue := rest
            phase := .collecting payload frame
            inHand := [payload] }
      | none => { uplink with queue := rest, finished := uplink.finished ++ [payload] }
  | _, _ => uplink

def tryRecv (uplink : LegacyUplink) (found : Bool) : LegacyUplink :=
  match uplink.phase with
  | .collecting payload batch =>
      if batch.length < 16 * 1024 ∧ found = true then
        match uplink.queue with
        | next :: rest =>
            { uplink with
              queue := rest
              phase := .collecting payload (batch ++ (target.frame next).getD [])
              inHand := uplink.inHand ++ [next] }
        | [] => { uplink with phase := .sending payload batch }
      else { uplink with phase := .sending payload batch }
  | _ => uplink

def sendData (uplink : LegacyUplink) (ok : Bool) : LegacyUplink :=
  match uplink.phase with
  | .sending payload batch =>
      if ok then
        { uplink with
          phase := .waiting
          sent := uplink.sent + payload.length
          connUp := uplink.connUp + payload.length
          inHand := []
          finished := uplink.finished ++ uplink.inHand
          written := uplink.written ++ [batch] }
      else { uplink with phase := .ended }
  | _ => uplink

def step (uplink : LegacyUplink) : UplinkEvent → LegacyUplink
  | .arrive payload => uplink.arrive payload
  | .recv => uplink.recv target
  | .tryRecv found => uplink.tryRecv target found
  | .sendData ok => uplink.sendData ok
  | .idle =>
      match uplink.phase, uplink.queue with
      | .waiting, [] => { uplink with phase := .ended }
      | _, _ => uplink
  | .abort =>
      match uplink.phase with
      | .waiting | .sending _ _ => { uplink with phase := .ended }
      | _ => uplink

/-- The bytes of the payloads which have a frame. -/
def payloadBytes (payloads : List (List UInt8)) : ℕ :=
  ((payloads.filter fun payload => (target.frame payload).isSome).map List.length).sum

/-- The frames of what has arrived are written in order, and its bytes are counted. -/
structure Exact (uplink : LegacyUplink) : Prop where
  inOrder : uplink.arrived = uplink.finished ++ uplink.inHand ++ uplink.queue
  waiting : uplink.phase = .waiting → uplink.inHand = []
  frames : uplink.written.flatten = (uplink.finished.filterMap target.frame).flatten
  counted : uplink.connUp = payloadBytes target uplink.finished
  same : uplink.sent = uplink.connUp

/-- A batch which is written has no payload besides its first. -/
def CountsBatch (uplink : LegacyUplink) : UplinkEvent → Prop
  | .sendData true => ∀ payload batch, uplink.phase = .sending payload batch →
      ∀ other ∈ uplink.inHand.tail, (target.frame other).isSome = true → other = []
  | _ => True

/-- What a batch is made of. -/
structure Batched (inHand : List (List UInt8)) (payload batch : List UInt8) : Prop where
  frames : batch = (inHand.filterMap target.frame).flatten
  first : ∃ others, inHand = payload :: others
  framed : (target.frame payload).isSome = true

/-- What holds whatever is counted. -/
structure Ordered (uplink : LegacyUplink) : Prop where
  inOrder : uplink.arrived = uplink.finished ++ uplink.inHand ++ uplink.queue
  waiting : uplink.phase = .waiting → uplink.inHand = []
  frames : uplink.written.flatten = (uplink.finished.filterMap target.frame).flatten
  atMost : uplink.connUp ≤ payloadBytes target uplink.finished
  same : uplink.sent = uplink.connUp
  collecting : ∀ payload batch, uplink.phase = .collecting payload batch →
    Batched target uplink.inHand payload batch
  sending : ∀ payload batch, uplink.phase = .sending payload batch →
    Batched target uplink.inHand payload batch

variable {target} {uplink : LegacyUplink}

theorem payloadBytes_append (target : LegacyTarget) (first second : List (List UInt8)) :
    payloadBytes target (first ++ second) =
      payloadBytes target first + payloadBytes target second := by
  simp only [payloadBytes, List.filter_append, List.map_append, List.sum_append]

theorem payloadBytes_cons_of_framed {payload : List UInt8} (rest : List (List UInt8))
    (framed : (target.frame payload).isSome = true) :
    payloadBytes target (payload :: rest) = payload.length + payloadBytes target rest := by
  simp only [payloadBytes, List.filter_cons, framed, if_true, List.map_cons, List.sum_cons]

theorem payloadBytes_eq_zero_iff {payloads : List (List UInt8)} :
    payloadBytes target payloads = 0 ↔
      ∀ payload ∈ payloads, (target.frame payload).isSome = true → payload = [] := by
  rw [payloadBytes, List.sum_eq_zero_iff, List.forall_mem_map]
  simp only [List.mem_filter, and_imp, List.length_eq_zero_iff]

theorem ordered_start : start.Ordered target :=
  ⟨rfl, fun _ => rfl, rfl, Nat.zero_le _, rfl, by simp [start], by simp [start]⟩

theorem Ordered.arrive (ordered : uplink.Ordered target) (payload : List UInt8) :
    (uplink.arrive payload).Ordered target := by
  unfold LegacyUplink.arrive
  split
  · exact ordered
  · refine ⟨?_, ordered.waiting, ordered.frames, ordered.atMost, ordered.same, ordered.collecting,
      ordered.sending⟩
    rw [ordered.inOrder, List.append_assoc]

theorem Ordered.recv (ordered : uplink.Ordered target) : (uplink.recv target).Ordered target := by
  unfold LegacyUplink.recv
  split
  case h_2 => exact ordered
  rename_i payload rest phase queue
  have arrived := ordered.inOrder
  rw [ordered.waiting phase, queue, List.append_nil] at arrived
  cases framed : target.frame payload with
  | some frame =>
      refine ⟨?_, nofun, ordered.frames, ordered.atMost, ordered.same, ?_, nofun⟩
      · rw [arrived, List.append_assoc]
        rfl
      · rintro first batch same
        cases same
        exact ⟨by simp [framed], ⟨[], rfl⟩, by rw [framed, Option.isSome_some]⟩
  | none =>
      refine ⟨?_, ordered.waiting, ?_, ?_, ordered.same, ?_, ?_⟩
      · dsimp only
        rw [arrived, ordered.waiting phase, List.append_nil, List.append_assoc]
        rfl
      · dsimp only
        rw [ordered.frames, List.filterMap_append]
        simp [framed]
      · dsimp only
        rw [payloadBytes_append]
        exact ordered.atMost.trans (Nat.le_add_right _ _)
      · intro first batch same
        rw [phase] at same
        cases same
      · intro first batch same
        rw [phase] at same
        cases same

theorem Ordered.tryRecv (ordered : uplink.Ordered target) (found : Bool) :
    (uplink.tryRecv target found).Ordered target := by
  unfold LegacyUplink.tryRecv
  split
  case h_2 => exact ordered
  rename_i payload batch phase
  have batched := ordered.collecting payload batch phase
  -- The loop over `try_recv` is left.
  have stopped : Ordered target { uplink with phase := .sending payload batch } := by
    refine ⟨ordered.inOrder, nofun, ordered.frames, ordered.atMost, ordered.same, nofun, ?_⟩
    rintro first other same
    cases same
    exact batched
  split
  · split
    · rename_i next rest queue
      refine ⟨?_, nofun, ordered.frames, ordered.atMost, ordered.same, ?_, nofun⟩
      · rw [ordered.inOrder, queue]
        simp only [List.append_assoc, List.singleton_append]
      · rintro first other same
        cases same
        rcases batched.first with ⟨others, inHand⟩
        refine ⟨?_, ⟨others ++ [next], by rw [inHand]; rfl⟩, batched.framed⟩
        rw [List.filterMap_append, List.flatten_append, ← batched.frames]
        cases framed : target.frame next <;> simp [framed]
    · exact stopped
  · exact stopped

/-- What a written batch adds to the count, and what it should have added. -/
theorem payloadBytes_inHand (ordered : uplink.Ordered target) {payload batch : List UInt8}
    (phase : uplink.phase = .sending payload batch) :
    payloadBytes target (uplink.finished ++ uplink.inHand) =
      payloadBytes target uplink.finished + payload.length +
        payloadBytes target uplink.inHand.tail := by
  have batched := ordered.sending payload batch phase
  rcases batched.first with ⟨others, inHand⟩
  rw [payloadBytes_append, inHand, payloadBytes_cons_of_framed others batched.framed,
    List.tail_cons, Nat.add_assoc]

theorem Ordered.sendData (ordered : uplink.Ordered target) (ok : Bool) :
    (uplink.sendData ok).Ordered target := by
  unfold LegacyUplink.sendData
  split
  case h_2 => exact ordered
  rename_i payload batch phase
  have batched := ordered.sending payload batch phase
  have bytes := payloadBytes_inHand ordered phase
  have atMost := ordered.atMost
  split
  · refine ⟨?_, fun _ => rfl, ?_, ?_, ?_, nofun, nofun⟩
    · dsimp only
      rw [ordered.inOrder, List.append_nil]
    · dsimp only
      rw [List.flatten_append, List.flatten_singleton, ordered.frames, batched.frames,
        List.filterMap_append, List.flatten_append]
    · dsimp only
      omega
    · dsimp only
      rw [ordered.same]
  · exact ⟨ordered.inOrder, nofun, ordered.frames, atMost, ordered.same, nofun, nofun⟩

/-- The task ends, with what it has in hand. -/
theorem Ordered.ended (ordered : uplink.Ordered target) :
    Ordered target { uplink with phase := .ended } :=
  ⟨ordered.inOrder, nofun, ordered.frames, ordered.atMost, ordered.same, nofun, nofun⟩

theorem Ordered.step (ordered : uplink.Ordered target) (event : UplinkEvent) :
    (uplink.step target event).Ordered target := by
  cases event with
  | arrive payload => exact ordered.arrive payload
  | recv => exact ordered.recv
  | tryRecv found => exact ordered.tryRecv found
  | sendData ok => exact ordered.sendData ok
  | idle =>
      simp only [LegacyUplink.step]
      split
      · exact ordered.ended
      · exact ordered
  | abort =>
      simp only [LegacyUplink.step]
      split
      · exact ordered.ended
      · exact ordered.ended
      · exact ordered

/-- All bytes of the payloads which were sent are counted. -/
def Counted (target : LegacyTarget) (uplink : LegacyUplink) : Prop :=
  uplink.connUp = payloadBytes target uplink.finished

/-- A write counts the bytes of its batch exactly if the first payload has them all. -/
theorem counted_sendData_iff (ordered : uplink.Ordered target) (ok : Bool) :
    Counted target (uplink.step target (.sendData ok)) ↔
      Counted target uplink ∧ uplink.CountsBatch target (.sendData ok) := by
  cases phase : uplink.phase with
  | sending payload batch =>
      cases ok with
      | false =>
          apply Iff.trans _ (and_iff_left trivial).symm
          simp only [LegacyUplink.step, LegacyUplink.sendData, phase]
          exact Iff.rfl
      | true =>
          have bytes := payloadBytes_inHand ordered phase
          have atMost := ordered.atMost
          have whole : uplink.CountsBatch target (.sendData true) ↔
              payloadBytes target uplink.inHand.tail = 0 := by
            rw [payloadBytes_eq_zero_iff]
            constructor
            · exact fun counts => counts payload batch phase
            · exact fun none _ _ _ => none
          rw [whole]
          simp only [Counted, LegacyUplink.step, LegacyUplink.sendData, phase, if_true, bytes]
          omega
  | _ =>
      have idle : uplink.step target (.sendData ok) = uplink := by
        simp only [LegacyUplink.step, LegacyUplink.sendData, phase]
      rw [idle]
      apply (and_iff_left _).symm
      cases ok with
      | false => trivial
      | true =>
          intro payload batch sending
          rw [phase] at sending
          cases sending

/-- A payload which has no frame is done with, and adds nothing. -/
theorem counted_recv_iff : Counted target (uplink.step target .recv) ↔ Counted target uplink := by
  simp only [LegacyUplink.step, LegacyUplink.recv]
  split
  case h_2 => exact Iff.rfl
  rename_i payload rest _ _
  cases framed : target.frame payload with
  | some frame => exact Iff.rfl
  | none =>
      have nothing : payloadBytes target [payload] = 0 := by
        rw [payloadBytes_eq_zero_iff]
        simp [framed]
      simp only [Counted, payloadBytes_append, nothing, Nat.add_zero]

theorem counted_step_iff (ordered : uplink.Ordered target) (event : UplinkEvent) :
    Counted target (uplink.step target event) ↔
      Counted target uplink ∧ uplink.CountsBatch target event := by
  have same_of : ∀ after : LegacyUplink, after.connUp = uplink.connUp →
      after.finished = uplink.finished → (Counted target after ↔ Counted target uplink) := by
    intro after connUp finished
    rw [Counted, Counted, connUp, finished]
  cases event with
  | arrive payload =>
      apply (same_of _ ?_ ?_).trans (and_iff_left trivial).symm
      all_goals
        simp only [LegacyUplink.step, LegacyUplink.arrive]
        split <;> rfl
  | recv => exact counted_recv_iff.trans (and_iff_left trivial).symm
  | tryRecv found =>
      apply (same_of _ ?_ ?_).trans (and_iff_left trivial).symm
      all_goals
        simp only [LegacyUplink.step, LegacyUplink.tryRecv]
        split
        · split
          · split <;> rfl
          · rfl
        · rfl
  | idle =>
      apply (same_of _ ?_ ?_).trans (and_iff_left trivial).symm
      all_goals
        simp only [LegacyUplink.step]
        split <;> rfl
  | abort =>
      apply (same_of _ ?_ ?_).trans (and_iff_left trivial).symm
      all_goals
        simp only [LegacyUplink.step]
        split <;> rfl
  | sendData ok => exact counted_sendData_iff ordered ok

theorem exact_iff_counted (ordered : uplink.Ordered target) :
    uplink.Exact target ↔ Counted target uplink :=
  ⟨Exact.counted, fun counted =>
    ⟨ordered.inOrder, ordered.waiting, ordered.frames, counted, ordered.same⟩⟩

/--
After a run the datagrams are written in order and all their bytes are counted exactly if no
batch which was written had another payload with bytes besides its first.
-/
theorem uplink_exact_iff (target : LegacyTarget) (events : List UplinkEvent) :
    (run (step target) start events).Exact target ↔
      Along (step target) (CountsBatch target) start events := by
  have ordered : Ordered target (run (step target) start events) :=
    run_invariant events (fun event ordered => ordered.step event) ordered_start
  have counted : Counted target (run (step target) start events) ↔
      Counted target start ∧ Along (step target) (CountsBatch target) start events :=
    run_iff_along events (fun event (ordered : Ordered target _) => ordered.step event)
      (fun event ordered => counted_step_iff ordered event) ordered_start
  rw [exact_iff_counted ordered, counted]
  exact and_iff_right rfl

def exampleTarget : LegacyTarget :=
  ⟨none, some (.v4 (ipv4 203 0 113 7)), 5000⟩

/-- Of two datagrams which are in the channel at once only the first is counted. -/
theorem not_exact_twoAtOnce :
    ¬ (run (step exampleTarget) start [.arrive [1], .arrive [2], .recv, .tryRecv true,
      .tryRecv true, .sendData true]).Exact exampleTarget := by
  intro complete
  exact absurd complete.counted (by decide)

end LegacyUplink

end Mirage.Tun
