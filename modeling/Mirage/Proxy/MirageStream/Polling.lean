import Mirage.Crypto.RoundTrip
import Mirage.Foundations.Run
import Mirage.Proxy.MirageStream

/-!
# What a tunnel gives and takes as a stream of bytes

A run is a list of polls, each with a flag which says whether the transport lets the future
finish that it polls.  The two halves do not depend on each other: `Reads` is what holds of
the read half after any polls, `Writes` of the write half.

An empty result is the end of the stream for `poll_read`, also when it is the content of
a record.  So the end is reported too early exactly if such a record is opened.
-/

namespace Mirage.Proxy

open Mirage.Foundations Mirage.Crypto

inductive PollCall where
  | read (room : ℕ)
  | write (data : List UInt8)
  | flush
  | shutdown

structure PollEvent where
  call : PollCall
  finishes : Bool

/-- A stream, and what the polls have reported so far. -/
structure StreamLog where
  stream : MirageStream
  delivered : List UInt8
  accepted : List (List UInt8)
  writeErrors : List String
  panicked : Bool

/-- The bytes which a poll of the read half has put into its buffer. -/
def Poll.bytes : Poll (List UInt8) → List UInt8
  | .ready (.ok bytes) => bytes
  | _ => []

/-- What a poll of the write half has accepted of the data. -/
def Poll.taken (data : List UInt8) : Poll ℕ → List (List UInt8)
  | .ready (.ok n) => [data.take n]
  | _ => []

def Poll.error {Value : Type} : Poll Value → List String
  | .ready (.error message) => [message]
  | _ => []

def Poll.isPanic {Value : Type} : Poll Value → Bool
  | .panicked => true
  | _ => false

@[simp]
theorem Poll.isPanic_ready {Value : Type} (result : Except String Value) :
    (Poll.ready result).isPanic = false :=
  rfl

@[simp]
theorem Poll.isPanic_pending {Value : Type} : (Poll.pending : Poll Value).isPanic = false :=
  rfl

namespace StreamLog

variable (primitives : Primitives)

def start (reader : CryptoReader) (writer : CryptoWriter) : StreamLog :=
  ⟨.fromTunnel reader writer, [], [], [], false⟩

def read (log : StreamLog) (finishes : Bool) (room : ℕ) : StreamLog :=
  let polled := log.stream.pollRead primitives finishes room
  { log with
    stream := polled.2
    delivered := log.delivered ++ polled.1.bytes
    panicked := log.panicked || polled.1.isPanic }

def write (log : StreamLog) (finishes : Bool) (data : List UInt8) : StreamLog :=
  let polled := log.stream.pollWrite primitives finishes data
  { log with
    stream := polled.2
    accepted := log.accepted ++ polled.1.taken data
    writeErrors := log.writeErrors ++ polled.1.error
    panicked := log.panicked || polled.1.isPanic }

/-- A poll of the flush or of the shutdown. -/
def complete (log : StreamLog) (polled : Poll Unit × MirageStream) : StreamLog :=
  { log with
    stream := polled.2
    writeErrors := log.writeErrors ++ polled.1.error
    panicked := log.panicked || polled.1.isPanic }

def step (log : StreamLog) (event : PollEvent) : StreamLog :=
  match event.call with
  | .read room => log.read primitives event.finishes room
  | .write data => log.write primitives event.finishes data
  | .flush => log.complete (log.stream.pollFlush primitives event.finishes)
  | .shutdown => log.complete (log.stream.pollShutdown primitives event.finishes)

end StreamLog

/-! ## Reading -/

theorem underscore_of_closeNotify {message : String}
    (closes : containsText message "close_notify" = true) : '_' ∈ message.toList :=
  (of_decide_eq_true closes).subset (by decide)

/-- Only the error of a close_notify has its name in it. -/
theorem receive_underscore {primitives : Primitives} (reader : CryptoReader) {message : String}
    (failed : (reader.receive primitives).1 = .error message) : '_' ∉ message.toList := by
  simp only [CryptoReader.receive] at failed
  split at failed
  · cases failed
    decide
  · split at failed
    · rename_i header_error
      cases failed
      simp only [CryptoReader.parseHeader] at header_error
      split at header_error
      · cases header_error
        decide
      · split at header_error <;> cases header_error
        decide
    · split at failed
      · cases failed
        decide
      · simp only [CryptoReader.openBody] at failed
        split at failed
        · cases failed
          decide
        · split at failed
          · cases failed
            decide
          · rename_i plaintext _
            cases processed : CryptoReader.processPlaintextMobile plaintext with
            | error other =>
                rw [processed] at failed
                cases failed
                exact CryptoReader.processPlaintextMobile_underscore processed
            | ok _ =>
                rw [processed] at failed
                cases failed

def closeNotify : String :=
  "peer sent TLS alert (close_notify)"

theorem recvData_closeNotify {primitives : Primitives} {reader : CryptoReader} {message : String}
    (failed : (reader.recvData primitives).1 = .error message)
    (closes : containsText message "close_notify" = true) : message = closeNotify := by
  rw [CryptoReader.recvData] at failed
  split at failed
  · rename_i received
    cases failed
    have error_eq := congrArg Prod.fst received
    exact absurd (underscore_of_closeNotify closes) (receive_underscore reader error_eq)
  · cases failed
    rfl
  · cases failed

variable {primitives : Primitives}

/-- A half which is idle or in a future: `reader` is what it holds. -/
def ReadState.Holds (state : ReadState) (reader : CryptoReader) : Prop :=
  state = .idle reader ∨ state = .busy reader

def MirageStream.left (stream : MirageStream) : List UInt8 :=
  stream.readBuf.drop stream.readPos

/--
What was received are the results of `recv_data`, and what was given out is the data
of these up to what is left of the last record.
-/
structure Reads (primitives : Primitives) (reader : CryptoReader) (log : StreamLog) : Prop where
  received : log.stream.received =
    (calls (CryptoReader.recvData primitives) log.stream.received.length reader).1
  holds : log.stream.read.Holds
    (calls (CryptoReader.recvData primitives) log.stream.received.length reader).2
  inOrder : log.delivered ++ log.stream.left =
    log.stream.received.flatMap BufferedReader.payload

/-- A poll of a read which tells the end of the stream has met a close_notify or the end. -/
def EndsTruly (primitives : Primitives) (log : StreamLog) (event : PollEvent) : Prop :=
  ∀ room, event.call = .read room → 0 < room →
    (log.stream.pollRead primitives event.finishes room).1 = .ready (.ok []) →
      ∃ message ∈ [closeNotify, "early eof"],
        (log.stream.pollRead primitives event.finishes room).2.received.getLast? =
          some (.error message)

namespace MirageStream

variable (primitives) {stream : MirageStream} {reader : CryptoReader} (finishes : Bool) (room : ℕ)

theorem left_eq_nil : stream.left = [] ↔ ¬ stream.readPos < stream.readBuf.length := by
  rw [left, List.drop_eq_nil_iff]
  omega

theorem take_append_drop_min (bytes : List UInt8) :
    bytes.take room ++ bytes.drop (min bytes.length room) = bytes := by
  rw [List.take_eq_take_min, Nat.min_comm]
  exact List.take_append_drop _ _

theorem putSlice_eq : stream.putSlice room = (.ready (.ok (stream.left.take room)),
    { stream with readPos := stream.readPos + min stream.left.length room }) := by
  have cut : stream.left.take (min stream.left.length room) = stream.left.take room := by
    rw [Nat.min_comm, ← List.take_eq_take_min]
  rw [← cut]
  rfl

/-- Bytes which are left over are given out, whatever the read half is doing. -/
theorem pollRead_left (there : stream.left ≠ []) :
    stream.pollRead primitives finishes room =
      (.ready (.ok (stream.left.take room)),
        { stream with readPos := stream.readPos + min stream.left.length room }) := by
  rw [Ne, left_eq_nil, not_not] at there
  rw [pollRead, if_pos there, putSlice_eq]

theorem pollRead_pending (drained : stream.left = []) (holds : stream.read.Holds reader) :
    stream.pollRead primitives false room = (.pending, { stream with read := .busy reader }) := by
  rw [pollRead, if_neg (left_eq_nil.mp drained)]
  rcases holds with idle | busy
  · rw [idle]
    rfl
  · rw [busy]
    rfl

theorem pollRead_future (drained : stream.left = []) (holds : stream.read.Holds reader) :
    stream.pollRead primitives true room = stream.pollReadFuture primitives reader true room := by
  rw [pollRead, if_neg (left_eq_nil.mp drained)]
  rcases holds with idle | busy
  · rw [idle]
    rfl
  · rw [busy]
    rfl

/-- The stream once a call of `recv_data` is over. -/
def receives (stream : MirageStream) (received : Except String (List UInt8) × CryptoReader) :
    MirageStream :=
  { stream with read := .idle received.2, received := stream.received ++ [received.1] }

theorem pollReadFuture_empty (received : (reader.recvData primitives).1 = .ok []) :
    stream.pollReadFuture primitives reader true room =
      (.ready (.ok []), stream.receives (reader.recvData primitives)) := by
  simp only [pollReadFuture, if_true, received, mapReceived, receives]

theorem pollReadFuture_data {content : List UInt8} (notEmpty : content ≠ [])
    (received : (reader.recvData primitives).1 = .ok content) :
    stream.pollReadFuture primitives reader true room =
      (.ready (.ok (content.take room)),
        { stream.receives (reader.recvData primitives) with
          readBuf := content
          readPos := min content.length room }) := by
  simp only [pollReadFuture, if_true, received, mapReceived, receives]
  cases content with
  | nil => exact absurd rfl notEmpty
  | cons byte rest =>
      simp only [putSlice_eq, left, List.drop_zero, Nat.zero_add]

theorem pollReadFuture_error {message : String}
    (failed : (reader.recvData primitives).1 = .error message) :
    stream.pollReadFuture primitives reader true room =
      (if message = closeNotify then .ready (.ok []) else .ready (.error message),
        stream.receives (reader.recvData primitives)) := by
  simp only [pollReadFuture, if_true, failed, mapReceived, recvErrToEofOrIo, receives]
  cases closes : containsText message "close_notify" with
  | true =>
      rw [if_pos (recvData_closeNotify failed closes)]
      rfl
  | false =>
      have other : message ≠ closeNotify := by
        rintro rfl
        exact absurd closes (by decide)
      rw [if_neg other]
      rfl

@[simp]
theorem receives_left (received : Except String (List UInt8) × CryptoReader) :
    (stream.receives received).left = stream.left :=
  rfl

/-- However a call of `recv_data` ends, the reader is back and the data is given out or left. -/
theorem pollReadFuture_gives (drained : stream.left = []) :
    let polled := stream.pollReadFuture primitives reader true room
    polled.2.read = .idle (reader.recvData primitives).2 ∧
      polled.2.received = stream.received ++ [(reader.recvData primitives).1] ∧
      polled.1.bytes ++ polled.2.left = BufferedReader.payload (reader.recvData primitives).1 := by
  cases received : (reader.recvData primitives).1 with
  | error message =>
      rw [pollReadFuture_error primitives room received, ← received]
      refine ⟨rfl, rfl, ?_⟩
      rw [received, receives_left, drained, List.append_nil]
      dsimp only
      split <;> rfl
  | ok content =>
      by_cases empty : content = []
      · subst empty
        rw [pollReadFuture_empty primitives room received, ← received]
        refine ⟨rfl, rfl, ?_⟩
        rw [received, receives_left, drained]
        rfl
      · rw [pollReadFuture_data primitives room empty received, ← received]
        refine ⟨rfl, rfl, ?_⟩
        rw [received]
        exact take_append_drop_min room content

/-- The polls of the write half do not touch the read half. -/
theorem pollWrite_read (stream : MirageStream) (finishes : Bool) (data : List UInt8) :
    let after := (stream.pollWrite primitives finishes data).2
    after.read = stream.read ∧ after.received = stream.received ∧ after.left = stream.left := by
  cases half : stream.write with
  | idle writer => simp [pollWrite, half, accept, left]
  | poisoned => simp [pollWrite, half, left]
  | busy writer pending =>
      cases finishes with
      | false => simp [pollWrite, half, pollWriteFuture, left]
      | true =>
          cases result : (writer.sendData primitives pending).result <;>
            simp [pollWrite, half, pollWriteFuture, result, accept, left]

theorem pollFlush_read (stream : MirageStream) (finishes : Bool) :
    let after := (stream.pollFlush primitives finishes).2
    after.read = stream.read ∧ after.received = stream.received ∧ after.left = stream.left := by
  cases half : stream.write with
  | idle writer => simp [pollFlush, half, left]
  | poisoned => simp [pollFlush, half, left]
  | busy writer pending =>
      cases finishes <;> simp [pollFlush, half, pollWriteFuture, left]

end MirageStream

namespace Reads

variable {reader : CryptoReader} {log after : StreamLog}

/-- A poll of the write half leaves the read half alone. -/
theorem of_read_eq (reads : Reads primitives reader log)
    (read_eq : after.stream.read = log.stream.read)
    (received_eq : after.stream.received = log.stream.received)
    (left_eq : after.stream.left = log.stream.left)
    (delivered_eq : after.delivered = log.delivered) : Reads primitives reader after := by
  constructor
  · rw [received_eq]
    exact reads.received
  · rw [read_eq, received_eq]
    exact reads.holds
  · rw [delivered_eq, left_eq, received_eq]
    exact reads.inOrder

/-- A call of `recv_data` is over, and what it returned is given out or left over. -/
theorem receive (reads : Reads primitives reader log)
    {holder : CryptoReader}
    (holder_eq : holder =
      (calls (CryptoReader.recvData primitives) log.stream.received.length reader).2)
    (drained : log.stream.left = [])
    (read_eq : after.stream.read = .idle (holder.recvData primitives).2)
    (received_eq : after.stream.received = log.stream.received ++ [(holder.recvData primitives).1])
    (data : after.delivered ++ after.stream.left =
      log.delivered ++ BufferedReader.payload (holder.recvData primitives).1) :
    Reads primitives reader after := by
  subst holder_eq
  have inOrder := reads.inOrder
  rw [drained, List.append_nil] at inOrder
  constructor
  · rw [received_eq, List.length_append, List.length_singleton, calls_succ, ← reads.received]
  · rw [received_eq, List.length_append, List.length_singleton, calls_succ]
    exact Or.inl read_eq
  · rw [data, inOrder, received_eq, List.flatMap_append, List.flatMap_singleton]

theorem start (reader : CryptoReader) (writer : CryptoWriter) :
    Reads primitives reader (.start reader writer) :=
  ⟨rfl, Or.inl rfl, rfl⟩

/-- The results of a poll of the read half, and that it keeps the order of the bytes. -/
theorem read (reads : Reads primitives reader log) (finishes : Bool) (room : ℕ) :
    Reads primitives reader (log.read primitives finishes room) := by
  by_cases drained : log.stream.left = []
  · cases finishes with
    | false =>
        have polled := MirageStream.pollRead_pending primitives room drained reads.holds
        constructor
        · simpa only [StreamLog.read, polled] using reads.received
        · simp only [StreamLog.read, polled]
          exact Or.inr rfl
        · have inOrder := reads.inOrder
          simp only [StreamLog.read, polled, Poll.bytes, List.append_nil]
          exact inOrder
    | true =>
        have polled := MirageStream.pollRead_future primitives room drained reads.holds
        rcases @MirageStream.pollReadFuture_gives primitives log.stream
          (calls (CryptoReader.recvData primitives) log.stream.received.length reader).2 room
            drained with ⟨idle, received, data⟩
        rw [← polled] at idle received data
        refine reads.receive rfl drained idle received ?_
        simp only [StreamLog.read, List.append_assoc, data]
  · have polled := MirageStream.pollRead_left primitives finishes room drained
    constructor
    · simpa only [StreamLog.read, polled] using reads.received
    · simpa only [StreamLog.read, polled] using reads.holds
    · have inOrder := reads.inOrder
      simp only [StreamLog.read, polled, Poll.bytes, List.append_assoc]
      have whole : log.stream.left.take room ++ MirageStream.left { log.stream with
          readPos := log.stream.readPos + min log.stream.left.length room } = log.stream.left := by
        conv_rhs => rw [← MirageStream.take_append_drop_min room log.stream.left]
        rw [MirageStream.left, MirageStream.left, List.drop_drop]
      rw [whole]
      exact inOrder

theorem step (reads : Reads primitives reader log) (event : PollEvent) :
    Reads primitives reader (log.step primitives event) := by
  rcases event with ⟨call, finishes⟩
  cases call with
  | read room => exact reads.read finishes room
  | write data =>
      rcases MirageStream.pollWrite_read primitives log.stream finishes data with
        ⟨same_read, same_received, same_left⟩
      exact reads.of_read_eq same_read same_received same_left rfl
  | flush =>
      rcases MirageStream.pollFlush_read primitives log.stream finishes with
        ⟨same_read, same_received, same_left⟩
      exact reads.of_read_eq same_read same_received same_left rfl
  | shutdown =>
      rcases MirageStream.pollFlush_read primitives log.stream finishes with
        ⟨same_read, same_received, same_left⟩
      exact reads.of_read_eq same_read same_received same_left rfl

/-- While no record without data is opened, the end is told at the right place. -/
theorem endsTruly (reads : Reads primitives reader log)
    (noEmpty : ∀ count, .ok [] ∉ (calls (CryptoReader.recvData primitives) count reader).1)
    (event : PollEvent) : EndsTruly primitives log event := by
  rcases event with ⟨call, finishes⟩
  rintro room - positive told
  by_cases drained : log.stream.left = []
  · cases finishes with
    | false =>
        rw [MirageStream.pollRead_pending primitives room drained reads.holds] at told
        cases told
    | true =>
        rw [MirageStream.pollRead_future primitives room drained reads.holds] at told ⊢
        have next := noEmpty (log.stream.received.length + 1)
        rw [calls_succ, List.mem_append, List.mem_singleton, not_or] at next
        generalize (calls (CryptoReader.recvData primitives)
          log.stream.received.length reader).2 = holder at told next ⊢
        cases received : (holder.recvData primitives).1 with
        | error message =>
            rw [MirageStream.pollReadFuture_error primitives room received] at told ⊢
            split at told
            · rename_i closes
              refine ⟨message, by rw [closes]; exact List.mem_cons_self, ?_⟩
              simp only [MirageStream.receives, received, List.getLast?_concat]
            · cases told
        | ok content =>
            have notEmpty : content ≠ [] := by
              rintro rfl
              exact next.2 received.symm
            rw [MirageStream.pollReadFuture_data primitives room notEmpty received] at told
            simp only [Poll.ready.injEq, Except.ok.injEq, List.take_eq_nil_iff] at told
            exact absurd told (not_or.mpr ⟨positive.ne', notEmpty⟩)
  · rw [MirageStream.pollRead_left primitives finishes room drained] at told
    simp only [Poll.ready.injEq, Except.ok.injEq, List.take_eq_nil_iff] at told
    exact absurd told (not_or.mpr ⟨positive.ne', drained⟩)

end Reads

/-- A poll which has room for all of a record leaves nothing over. -/
theorem MirageStream.left_pollRead_all (primitives : Primitives) {stream : MirageStream}
    {reader : CryptoReader} (drained : stream.left = []) (holds : stream.read.Holds reader)
    (notEmpty : (reader.recvData primitives).1 ≠ .ok []) :
    MirageStream.left (stream.pollRead primitives true
      (BufferedReader.payload (reader.recvData primitives).1).length).2 = [] := by
  rw [pollRead_future primitives _ drained holds]
  cases received : (reader.recvData primitives).1 with
  | error message =>
      rw [pollReadFuture_error primitives _ received]
      exact drained
  | ok content =>
      have some_data : content ≠ [] := by
        rintro rfl
        exact notEmpty received
      rw [pollReadFuture_data primitives _ some_data received]
      simp [left, BufferedReader.payload]

/-- A stream which tells its end truly opens no record without data. -/
theorem noEmpty_of_endsTruly {log : StreamLog} {reader : CryptoReader}
    (drained : log.stream.left = []) (holds : log.stream.read.Holds reader)
    (truly : ∀ events, Along (StreamLog.step primitives) (EndsTruly primitives) log events)
    (count : ℕ) : .ok [] ∉ (calls (CryptoReader.recvData primitives) count reader).1 := by
  induction count generalizing log reader with
  | zero => exact List.not_mem_nil
  | succ count ih =>
      rw [calls, List.mem_cons, not_or]
      have first : (reader.recvData primitives).1 ≠ .ok [] := by
        intro received
        have polled := MirageStream.pollRead_future primitives 1 drained holds
        rw [MirageStream.pollReadFuture_empty primitives 1 received] at polled
        rcases (truly [⟨.read 1, true⟩]).1 1 rfl Nat.one_pos (congrArg Prod.fst polled) with
          ⟨message, _, last⟩
        rw [polled] at last
        simp [MirageStream.receives, received] at last
      refine ⟨fun same => first same.symm, ?_⟩
      let room := (BufferedReader.payload (reader.recvData primitives).1).length
      have polled := MirageStream.pollRead_future primitives room drained holds
      rcases @MirageStream.pollReadFuture_gives primitives log.stream reader room drained with
        ⟨idle, -, -⟩
      rw [← polled] at idle
      refine @ih (log.step primitives ⟨.read room, true⟩) _ ?_ (Or.inl idle)
        fun events => (truly (⟨.read room, true⟩ :: events)).2
      exact MirageStream.left_pollRead_all primitives drained holds first

/--
The stream gives out the data of the records in order and without loss, whatever the
polls; and it tells its end only at a close_notify or at the end of the transport exactly
if no record is opened which carries no data.
-/
theorem reads_in_order_iff (reader : CryptoReader) (writer : CryptoWriter) :
    (∀ events,
        Throughout (StreamLog.step primitives) (Reads primitives reader) (.start reader writer)
            events ∧
          Along (StreamLog.step primitives) (EndsTruly primitives) (.start reader writer) events) ↔
      ∀ count, .ok [] ∉ (calls (CryptoReader.recvData primitives) count reader).1 := by
  constructor
  · intro inOrder
    exact noEmpty_of_endsTruly rfl (Or.inl rfl) fun events => (inOrder events).2
  · intro noEmpty events
    have guarded : Along (StreamLog.step primitives) (fun _ _ => True) (.start reader writer)
        events := Along.of_forall fun _ _ => trivial
    constructor
    · exact throughout_of_along _ id (fun reads _ => reads.step _) guarded
        (Reads.start reader writer)
    · exact Along.of_invariant _ (fun reads _ => reads.endsTruly noEmpty _)
        (fun reads _ => reads.step _) guarded (Reads.start reader writer)

/-- The writer of a scheme whose records have no room for data. -/
def tightWriter : CryptoWriter :=
  .new .transparent .faultless [] false true
    (setPaddingScheme [⟨1, 1, by decide, by decide, by decide⟩]) lowestDraws

/-- The first record which `send_data` makes of a byte under the scheme `1-1`. -/
def tightRecord : SealedRecord :=
  ⟨tightWriter.cipher, 0, (tightWriter.fillBuffer [7]).1⟩

def tightReader : CryptoReader :=
  .new .transparent (tightRecord.framed .transparent) [] true

/-- A peer with the scheme `1-1` sends a byte, and the stream tells its end before it. -/
theorem ends_at_emptyRecord :
    (parsePaddingScheme "1-1").map (List.map fun range => (range.lo, range.hi)) = some [(1, 1)] ∧
      ¬ Along (StreamLog.step .transparent) (EndsTruly .transparent)
        (.start tightReader tightWriter) [⟨.read 64, true⟩] := by
  refine ⟨by rfl, ?_⟩
  rintro ⟨truly, -⟩
  rcases truly 64 rfl (by decide) (by rfl) with ⟨message, -, last⟩
  have received : ((MirageStream.fromTunnel tightReader tightWriter).pollRead .transparent true
      64).2.received = [.ok []] := by rfl
  rw [StreamLog.start, received] at last
  cases last

/-! ## Writing -/

/-- Calls of `send_data` one after another, whether they succeed or not. -/
def sendEach (primitives : Primitives) :
    CryptoWriter → List (List UInt8) → List SendCall × CryptoWriter
  | writer, [] => ([], writer)
  | writer, data :: rest =>
      let sent := writer.sendData primitives data
      let later := sendEach primitives sent.writer rest
      (⟨data, sent.result⟩ :: later.1, later.2)

def SendCall.error (send : SendCall) : Option String :=
  match send.result with
  | .ok () => none
  | .error message => some message

/-- The data of the call which is in flight. -/
def WriteState.pending : WriteState → List (List UInt8)
  | .busy _ data => [data]
  | _ => []

@[simp]
theorem WriteState.pending_idle (writer : CryptoWriter) : (WriteState.idle writer).pending = [] :=
  rfl

@[simp]
theorem WriteState.pending_busy (writer : CryptoWriter) (data : List UInt8) :
    (WriteState.busy writer data).pending = [data] :=
  rfl

/-- A half which is idle or in a future: `writer` is what it holds. -/
def WriteState.Holds (state : WriteState) (writer : CryptoWriter) : Prop :=
  state = .idle writer ∨ ∃ data, state = .busy writer data

/--
`send_data` was called with the data which was accepted, in order and once for each, but
for the call in flight; and its errors are those which the polls have reported.
-/
structure Writes (primitives : Primitives) (writer : CryptoWriter) (log : StreamLog) : Prop where
  called : log.stream.sends = (sendEach primitives writer (log.stream.sends.map SendCall.data)).1
  holds : log.stream.write.Holds
    (sendEach primitives writer (log.stream.sends.map SendCall.data)).2
  handed : log.accepted = log.stream.sends.map SendCall.data ++ log.stream.write.pending
  reported : log.writeErrors = log.stream.sends.filterMap SendCall.error

theorem sendEach_append (primitives : Primitives) (writer : CryptoWriter)
    (first second : List (List UInt8)) :
    sendEach primitives writer (first ++ second) =
      ((sendEach primitives writer first).1 ++
          (sendEach primitives (sendEach primitives writer first).2 second).1,
        (sendEach primitives (sendEach primitives writer first).2 second).2) := by
  induction first generalizing writer with
  | nil => rfl
  | cons data first ih =>
      simp only [List.cons_append, sendEach]
      rw [ih]

/-- Calls without an error are the calls of a sequence which goes on to its end. -/
theorem sendAll_of_noError (primitives : Primitives) (writer : CryptoWriter)
    (datas : List (List UInt8))
    (noError : (sendEach primitives writer datas).1.filterMap SendCall.error = []) :
    (writer.sendAll primitives datas).result = .ok () ∧
      (writer.sendAll primitives datas).writer = (sendEach primitives writer datas).2 := by
  induction datas generalizing writer with
  | nil => exact ⟨rfl, rfl⟩
  | cons data datas ih =>
      simp only [sendEach] at noError ⊢
      simp only [CryptoWriter.sendAll]
      rcases sending : writer.sendData primitives data with ⟨_ | _, records, middle⟩
      · rw [sending] at noError
        simp [SendCall.error] at noError
      · rw [sending] at noError
        exact ih middle noError

namespace MirageStream

variable (primitives) {stream : MirageStream} {holder : CryptoWriter} {pending : List UInt8}
  (finishes : Bool) (data : List UInt8)

/-- The stream once a call of `send_data` is over. -/
def sent (stream : MirageStream) (sent : Sent) (pending : List UInt8) : MirageStream :=
  { stream with
    write := .idle sent.writer
    sends := stream.sends ++ [⟨pending, sent.result⟩] }

theorem pollWrite_idle (idle : stream.write = .idle holder) :
    stream.pollWrite primitives finishes data =
      (.ready (.ok data.length), { stream with write := .busy holder data }) := by
  simp only [pollWrite, idle, accept]

theorem pollWrite_pending (busy : stream.write = .busy holder pending) :
    stream.pollWrite primitives false data = (.pending, stream) := by
  simp only [pollWrite, busy, pollWriteFuture, Bool.false_eq_true, if_false]
  rw [← busy]

theorem pollWrite_error {message : String} (busy : stream.write = .busy holder pending)
    (failed : (holder.sendData primitives pending).result = .error message) :
    stream.pollWrite primitives true data =
      (.ready (.error message), stream.sent (holder.sendData primitives pending) pending) := by
  simp only [pollWrite, busy, pollWriteFuture, if_true, failed, sent]

/-- A call which is over makes room for the data at once. -/
theorem pollWrite_ok {done : Unit} (busy : stream.write = .busy holder pending)
    (succeeded : (holder.sendData primitives pending).result = .ok done) :
    stream.pollWrite primitives true data =
      (.ready (.ok data.length),
        { stream.sent (holder.sendData primitives pending) pending with
          write := .busy (holder.sendData primitives pending).writer data }) := by
  simp only [pollWrite, busy, pollWriteFuture, if_true, succeeded, sent, accept]

theorem pollFlush_idle (idle : stream.write = .idle holder) :
    stream.pollFlush primitives finishes = (.ready (.ok ()), stream) := by
  simp only [pollFlush, idle]
  rw [← idle]

theorem pollFlush_pending (busy : stream.write = .busy holder pending) :
    stream.pollFlush primitives false = (.pending, stream) := by
  simp only [pollFlush, busy, pollWriteFuture, Bool.false_eq_true, if_false]
  rw [← busy]

theorem pollFlush_sent (busy : stream.write = .busy holder pending) :
    stream.pollFlush primitives true =
      (.ready (holder.sendData primitives pending).result,
        stream.sent (holder.sendData primitives pending) pending) := by
  simp only [pollFlush, busy, pollWriteFuture, if_true, sent]

/-- The polls of the read half do not touch the write half. -/
theorem pollRead_write (stream : MirageStream) (finishes : Bool) (room : ℕ) :
    let after := (stream.pollRead primitives finishes room).2
    after.write = stream.write ∧ after.sends = stream.sends := by
  have future : ∀ stream : MirageStream, ∀ reader,
      let after := (stream.pollReadFuture primitives reader finishes room).2
      after.write = stream.write ∧ after.sends = stream.sends := by
    intro stream reader
    cases finishes with
    | false => exact ⟨rfl, rfl⟩
    | true =>
        cases received : (reader.recvData primitives).1 with
        | error message =>
            rw [pollReadFuture_error primitives room received]
            exact ⟨rfl, rfl⟩
        | ok content =>
            by_cases empty : content = []
            · subst empty
              rw [pollReadFuture_empty primitives room received]
              exact ⟨rfl, rfl⟩
            · rw [pollReadFuture_data primitives room empty received]
              exact ⟨rfl, rfl⟩
  simp only [pollRead]
  split
  · exact ⟨rfl, rfl⟩
  · cases stream.read with
    | idle reader => exact future _ reader
    | busy reader => exact future _ reader
    | poisoned => exact ⟨rfl, rfl⟩

end MirageStream

namespace Writes

variable {writer : CryptoWriter} {log after : StreamLog}

theorem start (reader : CryptoReader) (writer : CryptoWriter) :
    Writes primitives writer (.start reader writer) :=
  ⟨rfl, Or.inl rfl, rfl, rfl⟩

theorem holder (writes : Writes primitives writer log) :
    ∃ holder, log.stream.write.Holds holder :=
  ⟨_, writes.holds⟩

/-- A poll which leaves the half, the calls and the reports as they are. -/
theorem of_write_eq (writes : Writes primitives writer log)
    (write_eq : after.stream.write = log.stream.write)
    (sends_eq : after.stream.sends = log.stream.sends) (accepted_eq : after.accepted = log.accepted)
    (errors_eq : after.writeErrors = log.writeErrors) : Writes primitives writer after := by
  constructor
  · rw [sends_eq]
    exact writes.called
  · rw [write_eq, sends_eq]
    exact writes.holds
  · rw [accepted_eq, write_eq, sends_eq]
    exact writes.handed
  · rw [errors_eq, sends_eq]
    exact writes.reported

/-- An idle half takes data into a new future. -/
theorem accept {holder : CryptoWriter} (data : List UInt8)
    (writes : Writes primitives writer log) (idle : log.stream.write = .idle holder)
    (write_eq : after.stream.write = .busy holder data)
    (sends_eq : after.stream.sends = log.stream.sends)
    (accepted_eq : after.accepted = log.accepted ++ [data])
    (errors_eq : after.writeErrors = log.writeErrors) : Writes primitives writer after := by
  have holds := writes.holds
  rcases holds with same | ⟨_, busy⟩
  · rw [idle, WriteState.idle.injEq] at same
    constructor
    · rw [sends_eq]
      exact writes.called
    · rw [write_eq, sends_eq, same]
      exact Or.inr ⟨data, rfl⟩
    · have handed := writes.handed
      rw [idle, WriteState.pending_idle, List.append_nil] at handed
      rw [accepted_eq, write_eq, sends_eq, handed]
      rfl
    · rw [errors_eq, sends_eq]
      exact writes.reported
  · rw [idle] at busy
    cases busy

/-- The call in flight is over, and an error is reported by the poll which finds it. -/
theorem finish {holder : CryptoWriter} {pending : List UInt8}
    (writes : Writes primitives writer log) (busy : log.stream.write = .busy holder pending)
    (write_eq : after.stream.write = .idle (holder.sendData primitives pending).writer)
    (sends_eq : after.stream.sends =
      log.stream.sends ++ [⟨pending, (holder.sendData primitives pending).result⟩])
    (accepted_eq : after.accepted = log.accepted)
    (errors_eq : after.writeErrors = log.writeErrors ++
      (SendCall.error ⟨pending, (holder.sendData primitives pending).result⟩).toList) :
    Writes primitives writer after := by
  have holds := writes.holds
  rcases holds with idle | ⟨data, same⟩
  · rw [busy] at idle
    cases idle
  · rw [busy, WriteState.busy.injEq] at same
    constructor
    · rw [sends_eq, List.map_append, List.map_singleton, sendEach_append, ← writes.called,
        ← same.1]
      rfl
    · rw [write_eq, sends_eq, List.map_append, List.map_singleton, sendEach_append, ← same.1]
      exact Or.inl rfl
    · have handed := writes.handed
      rw [busy, WriteState.pending_busy] at handed
      rw [accepted_eq, write_eq, sends_eq, handed, List.map_append]
      exact (List.append_nil _).symm
    · rw [errors_eq, sends_eq, writes.reported, List.filterMap_append]
      rfl

theorem write (writes : Writes primitives writer log) (finishes : Bool) (data : List UInt8) :
    Writes primitives writer (log.write primitives finishes data) := by
  rcases writes.holder with ⟨holder, idle | ⟨pending, busy⟩⟩
  · have polled := MirageStream.pollWrite_idle primitives finishes data idle
    apply writes.accept data idle
    · simp only [StreamLog.write, polled]
    · simp only [StreamLog.write, polled]
    · simp only [StreamLog.write, polled, Poll.taken, List.take_length]
    · simp only [StreamLog.write, polled, Poll.error, List.append_nil]
  · cases finishes with
    | false =>
        have polled := MirageStream.pollWrite_pending primitives data busy
        apply writes.of_write_eq
        · simp only [StreamLog.write, polled]
        · simp only [StreamLog.write, polled]
        · simp only [StreamLog.write, polled, Poll.taken, List.append_nil]
        · simp only [StreamLog.write, polled, Poll.error, List.append_nil]
    | true =>
        cases result : (holder.sendData primitives pending).result with
        | error message =>
            have polled := MirageStream.pollWrite_error primitives data busy result
            apply writes.finish busy
            · simp only [StreamLog.write, polled, MirageStream.sent]
            · simp only [StreamLog.write, polled, MirageStream.sent]
            · simp only [StreamLog.write, polled, Poll.taken, List.append_nil]
            · simp only [StreamLog.write, polled, Poll.error, result]
              rfl
        | ok done =>
            have polled := MirageStream.pollWrite_ok primitives data busy result
            -- The half is idle in between, and takes the new data.
            have between : Writes primitives writer { log with
                stream := log.stream.sent (holder.sendData primitives pending) pending } := by
              apply writes.finish busy
              · rfl
              · rfl
              · rfl
              · simp only [result]
                exact (List.append_nil _).symm
            apply between.accept data rfl
            · simp only [StreamLog.write, polled]
            · simp only [StreamLog.write, polled]
            · simp only [StreamLog.write, polled, Poll.taken, List.take_length]
            · simp only [StreamLog.write, polled, Poll.error, List.append_nil]

theorem flush (writes : Writes primitives writer log) (finishes : Bool) :
    Writes primitives writer (log.complete (log.stream.pollFlush primitives finishes)) := by
  rcases writes.holder with ⟨holder, idle | ⟨pending, busy⟩⟩
  · have polled := MirageStream.pollFlush_idle primitives finishes idle
    apply writes.of_write_eq
    · simp only [StreamLog.complete, polled]
    · simp only [StreamLog.complete, polled]
    · simp only [StreamLog.complete]
    · simp only [StreamLog.complete, polled, Poll.error, List.append_nil]
  · cases finishes with
    | false =>
        have polled := MirageStream.pollFlush_pending primitives busy
        apply writes.of_write_eq
        · simp only [StreamLog.complete, polled]
        · simp only [StreamLog.complete, polled]
        · simp only [StreamLog.complete]
        · simp only [StreamLog.complete, polled, Poll.error, List.append_nil]
    | true =>
        have polled := MirageStream.pollFlush_sent primitives busy
        apply writes.finish busy
        · simp only [StreamLog.complete, polled, MirageStream.sent]
        · simp only [StreamLog.complete, polled, MirageStream.sent]
        · simp only [StreamLog.complete]
        · simp only [StreamLog.complete, polled, Poll.error]
          cases (holder.sendData primitives pending).result <;> rfl

theorem step (writes : Writes primitives writer log) (event : PollEvent) :
    Writes primitives writer (log.step primitives event) := by
  rcases event with ⟨call, finishes⟩
  cases call with
  | read room =>
      rcases MirageStream.pollRead_write primitives log.stream finishes room with
        ⟨same_write, same_sends⟩
      exact writes.of_write_eq same_write same_sends rfl rfl
  | write data => exact writes.write finishes data
  | flush => exact writes.flush finishes
  | shutdown => exact writes.flush finishes

end Writes

/-- While no error was reported, what was handed over is in the records. -/
theorem Writes.sealed {writer : CryptoWriter} {log : StreamLog}
    (writes : Writes primitives writer log) (noError : log.writeErrors = []) :
    (writer.sendAll primitives (log.stream.sends.map SendCall.data)).records.flatMap
        SealedRecord.content ++ log.stream.write.pending.flatten = log.accepted.flatten := by
  have none : (sendEach primitives writer (log.stream.sends.map SendCall.data)).1.filterMap
      SendCall.error = [] := by
    rw [← writes.called, ← writes.reported, noError]
  have succeeded := (sendAll_of_noError primitives writer _ none).1
  have sends := @CryptoWriter.sends_sendAll primitives writer
    (log.stream.sends.map SendCall.data)
  rw [sends.complete succeeded, writes.handed, List.flatten_append]

namespace MirageStream

variable {stream : MirageStream}

/-- A poll of a half which holds its reader or its writer does not panic. -/
theorem pollRead_isPanic {reader : CryptoReader} (holds : stream.read.Holds reader)
    (finishes : Bool) (room : ℕ) :
    (stream.pollRead primitives finishes room).1.isPanic = false := by
  by_cases drained : stream.left = []
  · cases finishes with
    | false => rw [pollRead_pending primitives room drained holds, Poll.isPanic_pending]
    | true =>
        rw [pollRead_future primitives room drained holds]
        cases received : (reader.recvData primitives).1 with
        | error message =>
            rw [pollReadFuture_error primitives room received]
            dsimp only
            split <;> rfl
        | ok content =>
            by_cases empty : content = []
            · subst empty
              rw [pollReadFuture_empty primitives room received, Poll.isPanic_ready]
            · rw [pollReadFuture_data primitives room empty received, Poll.isPanic_ready]
  · rw [pollRead_left primitives finishes room drained, Poll.isPanic_ready]

theorem pollWrite_isPanic {holder : CryptoWriter} (holds : stream.write.Holds holder)
    (finishes : Bool) (data : List UInt8) :
    (stream.pollWrite primitives finishes data).1.isPanic = false := by
  rcases holds with idle | ⟨pending, busy⟩
  · rw [pollWrite_idle primitives finishes data idle, Poll.isPanic_ready]
  · cases finishes with
    | false => rw [pollWrite_pending primitives data busy, Poll.isPanic_pending]
    | true =>
        cases result : (holder.sendData primitives pending).result with
        | error message =>
            rw [pollWrite_error primitives data busy result, Poll.isPanic_ready]
        | ok done => rw [pollWrite_ok primitives data busy result, Poll.isPanic_ready]

theorem pollFlush_isPanic {holder : CryptoWriter} (holds : stream.write.Holds holder)
    (finishes : Bool) : (stream.pollFlush primitives finishes).1.isPanic = false := by
  rcases holds with idle | ⟨pending, busy⟩
  · rw [pollFlush_idle primitives finishes idle, Poll.isPanic_ready]
  · cases finishes with
    | false => rw [pollFlush_pending primitives busy, Poll.isPanic_pending]
    | true => rw [pollFlush_sent primitives busy, Poll.isPanic_ready]

end MirageStream

/-- What the polls keep: both halves hold what they were given, and no poll panics. -/
structure Usable (primitives : Primitives) (reader : CryptoReader) (writer : CryptoWriter)
    (log : StreamLog) : Prop where
  reads : Reads primitives reader log
  writes : Writes primitives writer log
  notPanicked : log.panicked = false

theorem Usable.step {reader : CryptoReader} {writer : CryptoWriter} {log : StreamLog}
    (usable : Usable primitives reader writer log) (event : PollEvent) :
    Usable primitives reader writer (log.step primitives event) := by
  refine ⟨usable.reads.step event, usable.writes.step event, ?_⟩
  rcases event with ⟨call, finishes⟩
  have before := usable.notPanicked
  rcases usable.writes.holder with ⟨holder, holds⟩
  cases call with
  | read room =>
      simp only [StreamLog.step, StreamLog.read, before, Bool.false_or]
      exact MirageStream.pollRead_isPanic usable.reads.holds finishes room
  | write data =>
      simp only [StreamLog.step, StreamLog.write, before, Bool.false_or]
      exact MirageStream.pollWrite_isPanic holds finishes data
  | flush =>
      simp only [StreamLog.step, StreamLog.complete, before, Bool.false_or]
      exact MirageStream.pollFlush_isPanic holds finishes
  | shutdown =>
      simp only [StreamLog.step, StreamLog.complete, before, Bool.false_or]
      exact MirageStream.pollFlush_isPanic holds finishes

/-- A flush or a shutdown which succeeds leaves no call in flight. -/
def FlushesAll (primitives : Primitives) (log : StreamLog) (event : PollEvent) : Prop :=
  event.call = .flush ∨ event.call = .shutdown →
    (log.stream.pollFlush primitives event.finishes).1 = .ready (.ok ()) →
      (log.step primitives event).stream.sends.map SendCall.data =
        (log.step primitives event).accepted

theorem Writes.flushesAll {writer : CryptoWriter} {log : StreamLog}
    (writes : Writes primitives writer log) (event : PollEvent) :
    FlushesAll primitives log event := by
  intro flushes succeeded
  have handed := (writes.step event).handed
  have polled : (log.step primitives event).stream =
      (log.stream.pollFlush primitives event.finishes).2 := by
    rcases event with ⟨call, finishes⟩
    rcases flushes with flushes | flushes <;> cases flushes <;> rfl
  have empty : (log.step primitives event).stream.write.pending = [] := by
    rw [polled]
    rcases writes.holder with ⟨holder, idle | ⟨pending, busy⟩⟩
    · rw [MirageStream.pollFlush_idle primitives event.finishes idle, idle]
      rfl
    · cases finishes_eq : event.finishes with
      | false =>
          rw [finishes_eq, MirageStream.pollFlush_pending primitives busy] at succeeded
          cases succeeded
      | true =>
          rw [MirageStream.pollFlush_sent primitives busy]
          rfl
  rw [handed, empty, List.append_nil]

/--
After any polls no half is poisoned and no poll has panicked; `send_data` was called with
the data which was accepted, once and in order, except for a call in flight; its errors
were reported, and if there are none all of the data is in the records.
-/
theorem writes_in_order (reader : CryptoReader) (writer : CryptoWriter)
    (events : List PollEvent) :
    Throughout (StreamLog.step primitives)
        (fun log => log.panicked = false ∧ log.stream.read ≠ .poisoned ∧
          log.stream.write ≠ .poisoned ∧ Writes primitives writer log ∧
          (log.writeErrors = [] →
            (writer.sendAll primitives (log.stream.sends.map SendCall.data)).records.flatMap
                SealedRecord.content ++ log.stream.write.pending.flatten =
              log.accepted.flatten))
        (.start reader writer) events ∧
      Along (StreamLog.step primitives) (FlushesAll primitives) (.start reader writer) events := by
  have guarded : Along (StreamLog.step primitives) (fun _ _ => True) (.start reader writer)
      events := Along.of_forall fun _ _ => trivial
  have initially : Usable primitives reader writer (.start reader writer) :=
    ⟨Reads.start reader writer, Writes.start reader writer, rfl⟩
  constructor
  · refine throughout_of_along (Usable primitives reader writer) ?_
      (fun usable _ => usable.step _) guarded initially
    intro log usable
    refine ⟨usable.notPanicked, ?_, ?_, usable.writes, usable.writes.sealed⟩
    · intro poisoned
      rcases usable.reads.holds with idle | busy
      · rw [poisoned] at idle
        cases idle
      · rw [poisoned] at busy
        cases busy
    · intro poisoned
      rcases usable.writes.holder with ⟨holder, idle | ⟨pending, busy⟩⟩
      · rw [poisoned] at idle
        cases idle
      · rw [poisoned] at busy
        cases busy
  · exact Along.of_invariant (Usable primitives reader writer)
      (fun usable _ => usable.writes.flushesAll _) (fun usable _ => usable.step _) guarded initially

end Mirage.Proxy
