import Mirage.Foundations.Encodings
import Mirage.Foundations.Queues
import Mirage.Foundations.Text

/-!
# The log of the monitor

`MemoryWriter` keeps the newest 2000 lines.  A line gets there either directly or over a
channel, which a background thread empties; a line for which the channel has no room is
dropped and counted.  The thread holds a line between taking it from the channel and
storing it, and a writer which was refused counts that a little later, so every event is
one atomic step of the code.
-/

namespace Mirage.Monitor

open Mirage.Foundations

def logCap : ℕ := 2000

def channelCap : ℕ := 2000

structure MemoryWriter where
  channel : List String
  /-- The line which the background thread has in its hand -/
  received : Option String
  buffer : List String
  /-- The writers which were refused and have not counted that yet -/
  refused : ℕ
  droppedLogs : UInt64
  deriving DecidableEq, Repr

inductive LogEvent where
  | write (buf : List UInt8)
  | countDropped
  | recv
  | store
  | writeLine (line : String)
  | recentLogsPush (line : String)
  /-- `write` of the panel which the tracing output goes to -/
  | panelWrite (buf : List UInt8)
  | drainLogs
  | clear
  deriving DecidableEq, Repr

/-- A line without the line end it may have -/
def withoutNewline (line : String) : String :=
  if endsWith line "\n" then String.ofList line.toList.dropLast else line

namespace MemoryWriter

def new : MemoryWriter := ⟨[], none, [], 0, 0⟩

/-- The line of a buffer which is written, unless it is blank -/
def lineOf (buf : List UInt8) : Option String :=
  let text := fromUtf8Lossy buf
  if trim text = "" then none else some text

def write (writer : MemoryWriter) (buf : List UInt8) : MemoryWriter :=
  match lineOf buf with
  | none => writer
  | some text =>
      if writer.channel.length < channelCap then { writer with channel := writer.channel ++ [text] }
      else { writer with refused := writer.refused + 1 }

def countDropped (writer : MemoryWriter) : MemoryWriter :=
  match writer.refused with
  | 0 => writer
  | refused + 1 => { writer with refused, droppedLogs := writer.droppedLogs + 1 }

/-- The background thread waits for a line, when it has stored the one before. -/
def recv (writer : MemoryWriter) : MemoryWriter :=
  match writer.received, writer.channel with
  | none, text :: channel => { writer with received := some text, channel }
  | _, _ => writer

def writeLine (writer : MemoryWriter) (line : String) : MemoryWriter :=
  { writer with buffer := pushBounded logCap writer.buffer line }

def store (writer : MemoryWriter) : MemoryWriter :=
  match writer.received with
  | none => writer
  | some text => { writer.writeLine text with received := none }

def recentLogsPush (writer : MemoryWriter) (line : String) : MemoryWriter :=
  writer.writeLine (withoutNewline line)

def panelWrite (writer : MemoryWriter) (buf : List UInt8) : MemoryWriter :=
  writer.recentLogsPush (fromUtf8Lossy buf)

def len (writer : MemoryWriter) : ℕ :=
  writer.buffer.length

def getLogs (writer : MemoryWriter) : List String :=
  writer.buffer

def getLogsCapped (writer : MemoryWriter) (limit : ℕ) : List String :=
  if limit < writer.buffer.length then writer.buffer.drop (writer.buffer.length - limit)
  else writer.buffer

def recentLogs (writer : MemoryWriter) : List String :=
  writer.getLogsCapped 150

def drainLogs (writer : MemoryWriter) : List String × MemoryWriter :=
  (writer.buffer, { writer with buffer := [] })

def clear (writer : MemoryWriter) : MemoryWriter :=
  { writer with buffer := [] }

def step (writer : MemoryWriter) : LogEvent → MemoryWriter
  | .write buf => writer.write buf
  | .countDropped => writer.countDropped
  | .recv => writer.recv
  | .store => writer.store
  | .writeLine line => writer.writeLine line
  | .recentLogsPush line => writer.recentLogsPush line
  | .panelWrite buf => writer.panelWrite buf
  | .drainLogs => writer.drainLogs.2
  | .clear => writer.clear

/-! ## What happens to the lines -/

/-- The lines which are written over the channel -/
def offered : LogEvent → List String
  | .write buf => (lineOf buf).toList
  | _ => []

/-- The lines for which the channel has room -/
def accepted (writer : MemoryWriter) (event : LogEvent) : List String :=
  if writer.channel.length < channelCap then offered event else []

/-- The lines which come over the channel into the log -/
def forwarded (writer : MemoryWriter) : LogEvent → List String
  | .store => writer.received.toList
  | _ => []

/-- The lines which come into the log -/
def stored (writer : MemoryWriter) : LogEvent → List String
  | .store => writer.received.toList
  | .writeLine line => [line]
  | .recentLogsPush line => [withoutNewline line]
  | .panelWrite buf => [withoutNewline (fromUtf8Lossy buf)]
  | _ => []

/-- The lines which are handed to the app -/
def drained (writer : MemoryWriter) : LogEvent → List String
  | .drainLogs => writer.drainLogs.1
  | _ => []

/-- A line comes into the log only where there is room, and only an empty log is cleared. -/
def Keeps (writer : MemoryWriter) (event : LogEvent) : Prop :=
  (stored writer event ≠ [] → writer.len < logCap) ∧ (event = .clear → writer.getLogs = [])

/-- The lines which the background thread has before it -/
def underway (writer : MemoryWriter) : List String :=
  writer.received.toList ++ writer.channel

def moveOf (writer : MemoryWriter) : LogEvent → Option (QueueMove String)
  | .store => writer.received.map .push
  | .writeLine line => some (.push line)
  | .recentLogsPush line => some (.push (withoutNewline line))
  | .panelWrite buf => some (.push (withoutNewline (fromUtf8Lossy buf)))
  | .drainLogs => some .drain
  | .clear => some .clear
  | _ => none

variable (writer : MemoryWriter) (event : LogEvent)

/-! ## The way over the channel -/

/-- A line which is offered is accepted, or its writer is refused. -/
theorem write_eq (buf : List UInt8) : writer.write buf =
    { writer with
      channel := writer.channel ++ writer.accepted (.write buf)
      refused := writer.refused +
        ((offered (.write buf)).length - (writer.accepted (.write buf)).length) } := by
  rw [write, accepted, offered]
  cases lineOf buf with
  | none => simp
  | some text =>
      dsimp only [Option.toList_some]
      by_cases room : writer.channel.length < channelCap
      · simp [if_pos room]
      · simp [if_neg room]

theorem underway_write (buf : List UInt8) :
    (writer.write buf).underway = writer.underway ++ writer.accepted (.write buf) := by
  rw [write_eq, underway, underway, List.append_assoc]

theorem underway_recv : writer.recv.underway = writer.underway := by
  rw [recv]
  split
  · rename_i nothing waiting
    simp [underway, nothing, waiting]
  · rfl

theorem underway_store : writer.underway = writer.received.toList ++ writer.store.underway := by
  rw [store]
  split
  · rename_i nothing
    rw [nothing]
    rfl
  · rename_i text held
    simp [underway, writeLine, held]

theorem underway_countDropped : writer.countDropped.underway = writer.underway := by
  rw [countDropped]
  split <;> rfl

/-- What the channel accepts stays in order until it comes into the log. -/
theorem underway_step : writer.underway ++ writer.accepted event =
    writer.forwarded event ++ (writer.step event).underway := by
  cases event with
  | write buf => simp [step, underway_write, forwarded]
  | countDropped => simp [step, underway_countDropped, accepted, offered, forwarded]
  | recv => simp [step, underway_recv, accepted, offered, forwarded]
  | store => simp [step, ← underway_store, accepted, offered, forwarded]
  | writeLine line => simp [step, underway, writeLine, accepted, offered, forwarded]
  | recentLogsPush line =>
      simp [step, underway, recentLogsPush, writeLine, accepted, offered, forwarded]
  | panelWrite buf =>
      simp [step, underway, panelWrite, recentLogsPush, writeLine, accepted, offered, forwarded]
  | drainLogs => simp [step, underway, drainLogs, accepted, offered, forwarded]
  | clear => simp [step, underway, clear, accepted, offered, forwarded]

theorem accepted_sublist : (writer.accepted event).Sublist (offered event) := by
  rw [accepted]
  split
  · exact List.Sublist.refl _
  · exact List.nil_sublist _

theorem counts_recv : writer.recv.refused = writer.refused ∧
    writer.recv.droppedLogs = writer.droppedLogs := by
  rw [recv]
  split <;> exact ⟨rfl, rfl⟩

theorem counts_store : writer.store.refused = writer.refused ∧
    writer.store.droppedLogs = writer.droppedLogs := by
  rw [store]
  split <;> exact ⟨rfl, rfl⟩

/-- Every line is accepted, or its writer is refused, which is counted in the end. -/
theorem counted_step :
    (writer.step event).droppedLogs +
        UInt64.ofNat ((writer.step event).refused + (writer.accepted event).length) =
      writer.droppedLogs + UInt64.ofNat (writer.refused + (offered event).length) := by
  have fewer := (writer.accepted_sublist event).length_le
  cases event with
  | write buf =>
      rw [step, write_eq]
      dsimp only
      rw [Nat.add_assoc, Nat.sub_add_cancel fewer]
  | countDropped =>
      rw [step, countDropped]
      split
      · simp [accepted, offered]
      · rename_i refused waiting
        simp only [accepted, offered, ite_self, List.length_nil, Nat.add_zero, waiting,
          UInt64.ofNat_add, UInt64.ofNat_one]
        rw [UInt64.add_assoc, UInt64.add_comm 1]
  | recv => simp [step, counts_recv, accepted, offered]
  | store => simp [step, counts_store, accepted, offered]
  | writeLine line => simp [step, writeLine, accepted, offered]
  | recentLogsPush line => simp [step, recentLogsPush, writeLine, accepted, offered]
  | panelWrite buf => simp [step, panelWrite, recentLogsPush, writeLine, accepted, offered]
  | drainLogs => simp [step, drainLogs, accepted, offered]
  | clear => simp [step, clear, accepted, offered]

theorem counted_run (events : List LogEvent) :
    (run step writer events).droppedLogs +
        UInt64.ofNat ((run step writer events).refused +
          (outputs accepted step writer events).length) =
      writer.droppedLogs + UInt64.ofNat (writer.refused + (events.flatMap offered).length) := by
  induction events generalizing writer with
  | nil => rfl
  | cons event events ih =>
      have here := writer.counted_step event
      have later := ih (writer.step event)
      rw [run_cons, outputs, List.flatMap_cons]
      simp only [List.length_append, UInt64.ofNat_add] at here later ⊢
      grind

theorem channel_le (within : writer.channel.length ≤ channelCap) :
    (writer.step event).channel.length ≤ channelCap := by
  cases event with
  | write buf =>
      rw [step, write_eq, List.length_append, accepted, offered]
      cases lineOf buf with
      | none => simpa using within
      | some text =>
          dsimp only [Option.toList_some]
          split
          · rename_i room
            exact room
          · exact within
  | countDropped =>
      rw [step, countDropped]
      split <;> exact within
  | recv =>
      rw [step, recv]
      split
      · rename_i waiting
        rw [waiting, List.length_cons] at within
        exact Nat.le_of_succ_le within
      · exact within
  | store =>
      rw [step, store]
      split <;> exact within
  | writeLine line => exact within
  | recentLogsPush line => exact within
  | panelWrite buf => exact within
  | drainLogs => exact within
  | clear => exact within

/-! ## The lines in the log -/

theorem buffer_step : (writer.step event).buffer =
    ((writer.moveOf event).map (QueueMove.apply logCap writer.buffer)).getD writer.buffer := by
  cases event with
  | write buf => simp [step, write_eq, moveOf]
  | countDropped =>
      rw [step, countDropped]
      split <;> rfl
  | recv =>
      rw [step, recv]
      split <;> rfl
  | store =>
      simp only [step, store, moveOf]
      cases writer.received <;> rfl
  | writeLine line => rfl
  | recentLogsPush line => rfl
  | panelWrite buf => rfl
  | drainLogs => rfl
  | clear => rfl

theorem stored_eq : writer.stored event = (writer.moveOf event).elim [] QueueMove.pushed := by
  cases event with
  | store =>
      simp only [stored, moveOf]
      cases writer.received <;> rfl
  | _ => rfl

theorem drained_eq :
    writer.drained event = (writer.moveOf event).elim [] (QueueMove.taken writer.buffer) := by
  cases event with
  | store =>
      simp only [drained, moveOf]
      cases writer.received <;> rfl
  | _ => rfl

theorem keeps_iff :
    writer.Keeps event ↔
      (writer.moveOf event).elim True (QueueMove.Keeps logCap writer.buffer) := by
  cases event with
  | store =>
      rw [Keeps, stored, moveOf]
      cases writer.received with
      | none => simp
      | some text => simp [QueueMove.Keeps, len]
  | _ => simp [Keeps, stored, moveOf, QueueMove.Keeps, len, getLogs]

theorem getLogsCapped_eq (limit : ℕ) : writer.getLogsCapped limit = writer.buffer.rtake limit := by
  rw [getLogsCapped]
  split
  · rfl
  · rename_i short
    rw [rtake_of_length_le (Nat.not_lt.mp short)]

end MemoryWriter

/--
Over every run and in any order of the writers, the background thread and the app: the lines
which the channel accepts come into the log in their order, each once; at most 2000 wait
there, every line which finds no room is counted, and all are accepted exactly if there is
always room.
-/
theorem logging_accounts (events : List LogEvent) :
    let writer := run MemoryWriter.step .new events
    let offered := events.flatMap MemoryWriter.offered
    let accepted := outputs MemoryWriter.accepted MemoryWriter.step .new events
    accepted = outputs MemoryWriter.forwarded MemoryWriter.step .new events ++ writer.underway ∧
      accepted.Sublist offered ∧
      writer.droppedLogs + UInt64.ofNat writer.refused =
        UInt64.ofNat (offered.length - accepted.length) ∧
      writer.channel.length ≤ channelCap ∧
      (accepted = offered ↔ Along MemoryWriter.step (fun writer event =>
        MemoryWriter.offered event ≠ [] → writer.channel.length < channelCap) .new events) := by
  intro writer offered accepted
  have some_of : outputs (fun _ => MemoryWriter.offered) MemoryWriter.step .new events = offered :=
    outputs_of_events MemoryWriter.offered MemoryWriter.step .new events
  have fewer : accepted.Sublist offered := by
    rw [← some_of]
    exact outputs_sublist MemoryWriter.accepted_sublist .new events
  refine ⟨?_, fewer, ?_, ?_, ?_⟩
  · exact outputs_conserved MemoryWriter.underway_step .new events
  · have counted := MemoryWriter.counted_run .new events
    have none_dropped : MemoryWriter.new.droppedLogs = 0 := rfl
    have none_refused : MemoryWriter.new.refused = 0 := rfl
    have total : offered.length - accepted.length + accepted.length = offered.length :=
      Nat.sub_add_cancel fewer.length_le
    rw [none_dropped, none_refused, UInt64.zero_add, Nat.zero_add] at counted
    change writer.droppedLogs + UInt64.ofNat (writer.refused + accepted.length) =
      UInt64.ofNat offered.length at counted
    rw [← total] at counted
    simp only [UInt64.ofNat_add] at counted
    grind
  · exact @run_invariant _ _ MemoryWriter.step (fun writer => writer.channel.length ≤ channelCap)
      _ events (fun event within => MemoryWriter.channel_le _ event within) (Nat.zero_le channelCap)
  · rw [← some_of, outputs_eq_iff_along MemoryWriter.accepted_sublist]
    apply Along.congr
    intro writer event
    rw [MemoryWriter.accepted, ite_eq_left_iff, not_imp_comm, eq_comm]

/--
Over every run the log holds the newest lines which came into it, at most 2000; those which
are handed to the app and those which are still there come in the order in which they were
written, each at most once, and none is missing exactly if the log was never full when a line
came and never cleared when it was not empty.
-/
theorem logging_carries (events : List LogEvent) (limit : ℕ) :
    let writer := run MemoryWriter.step .new events
    let stored := outputs MemoryWriter.stored MemoryWriter.step .new events
    Carried logCap stored (outputs MemoryWriter.drained MemoryWriter.step .new events)
        writer.getLogs (Along MemoryWriter.step MemoryWriter.Keeps .new events) ∧
      writer.getLogsCapped limit <:+ stored ∧
      (writer.getLogsCapped limit).length = min limit writer.len := by
  intro writer stored
  have stored_eq : MemoryWriter.stored = fun writer event =>
      (writer.moveOf event).elim [] QueueMove.pushed :=
    funext fun writer => funext writer.stored_eq
  have drained_eq : MemoryWriter.drained = fun writer event =>
      (writer.moveOf event).elim [] (QueueMove.taken writer.buffer) :=
    funext fun writer => funext writer.drained_eq
  have carried : Carried logCap stored
      (outputs MemoryWriter.drained MemoryWriter.step .new events) writer.getLogs
      (Along MemoryWriter.step MemoryWriter.Keeps .new events) := by
    rw [Along.congr MemoryWriter.keeps_iff, drained_eq]
    subst stored
    rw [stored_eq]
    have nothing : MemoryWriter.new.buffer.length ≤ logCap := Nat.zero_le logCap
    exact carried_run (by decide) MemoryWriter.buffer_step nothing events
  refine ⟨carried, ?_, ?_⟩
  · rw [writer.getLogsCapped_eq]
    exact (rtake_suffix limit writer.buffer).trans carried.newest
  · rw [writer.getLogsCapped_eq, length_rtake, MemoryWriter.len]

end Mirage.Monitor
