import Mirage.Crypto.Receiving
import Mirage.Foundations.Text

/-!
# A tunnel as a stream of bytes

`MirageStream` makes a byte stream of the calls `recv_data` and `send_data`.  Each half
is either idle, or moved into the future of a call which is in flight; while a call of
`poll_*` looks at a half it leaves `Poisoned` in its place.

Whether the transport lets a future finish is decided by the polls: each carries a
flag, and no call of `poll_*` polls a future more than once.  The two logs record what
the calls of `recv_data` have returned and what `send_data` was called with.
-/

namespace Mirage.Proxy

open Mirage.Foundations Mirage.Crypto

/-- What a call of `poll_*` returns; `panicked` is the `unreachable!` of a poisoned half. -/
inductive Poll (Value : Type) where
  | pending
  | ready (result : Except String Value)
  | panicked
  deriving DecidableEq

inductive ReadState where
  | idle (reader : CryptoReader)
  | busy (reader : CryptoReader)
  | poisoned

/-- A busy writer has the data of the pending call. -/
inductive WriteState where
  | idle (writer : CryptoWriter)
  | busy (writer : CryptoWriter) (data : List UInt8)
  | poisoned

/-- A call of `send_data` which is over. -/
structure SendCall where
  data : List UInt8
  result : Except String Unit

structure MirageStream where
  read : ReadState
  write : WriteState
  /-- The last record, of which `readPos` bytes were given out. -/
  readBuf : List UInt8
  readPos : ℕ
  received : List (Except String (List UInt8))
  sends : List SendCall

/-- A close_notify is the end of the stream, which is told by no bytes. -/
def recvErrToEofOrIo (message : String) : Except String (List UInt8) :=
  if containsText message "close_notify" then .ok [] else .error message

/-- The future of the read half: `recv_data` with its errors mapped. -/
def mapReceived : Except String (List UInt8) → Except String (List UInt8)
  | .ok content => .ok content
  | .error message => recvErrToEofOrIo message

namespace MirageStream

variable (primitives : Primitives)

def fromTunnel (reader : CryptoReader) (writer : CryptoWriter) : MirageStream where
  read := .idle reader
  write := .idle writer
  readBuf := []
  readPos := 0
  received := []
  sends := []

/-! ## Reading -/

/-- Give out what is left of the last record, as far as it fits into `room` bytes. -/
def putSlice (stream : MirageStream) (room : ℕ) : Poll (List UInt8) × MirageStream :=
  let remaining := stream.readBuf.drop stream.readPos
  let n := min remaining.length room
  (.ready (.ok (remaining.take n)), { stream with readPos := stream.readPos + n })

/-- Poll the future of the read half, which holds the reader. -/
def pollReadFuture (stream : MirageStream) (reader : CryptoReader) (finishes : Bool)
    (room : ℕ) : Poll (List UInt8) × MirageStream :=
  if finishes then
    let (result, reader) := reader.recvData primitives
    let stream :=
      { stream with read := .idle reader, received := stream.received ++ [result] }
    match mapReceived result with
    | .ok [] => (.ready (.ok []), stream)
    -- The loop goes on with what was received.
    | .ok content => putSlice { stream with readBuf := content, readPos := 0 } room
    | .error message => (.ready (.error message), stream)
  else (.pending, { stream with read := .busy reader })

/-- `poll_read` with a buffer that has room for `room` bytes. -/
def pollRead (stream : MirageStream) (finishes : Bool) (room : ℕ) :
    Poll (List UInt8) × MirageStream :=
  if stream.readPos < stream.readBuf.length then stream.putSlice room
  else
    let taken := { stream with read := .poisoned }
    match stream.read with
    -- A new future is polled at once.
    | .idle reader => taken.pollReadFuture primitives reader finishes room
    | .busy reader => taken.pollReadFuture primitives reader finishes room
    | .poisoned => (.panicked, taken)

/-! ## Writing -/

/-- Poll the future of the write half; its result is `none` while it is pending. -/
def pollWriteFuture (stream : MirageStream) (writer : CryptoWriter) (data : List UInt8)
    (finishes : Bool) : Option (Except String Unit) × MirageStream :=
  if finishes then
    let sent := writer.sendData primitives data
    (some sent.result,
      { stream with
        write := .idle sent.writer
        sends := stream.sends ++ [⟨data, sent.result⟩] })
  else (none, { stream with write := .busy writer data })

/-- All of the data is put into a new future, which is not polled yet. -/
def accept (stream : MirageStream) (writer : CryptoWriter) (data : List UInt8) :
    Poll ℕ × MirageStream :=
  (.ready (.ok data.length), { stream with write := .busy writer data })

def pollWrite (stream : MirageStream) (finishes : Bool) (data : List UInt8) :
    Poll ℕ × MirageStream :=
  let taken := { stream with write := .poisoned }
  match stream.write with
  | .idle writer => taken.accept writer data
  | .busy writer pending =>
      match taken.pollWriteFuture primitives writer pending finishes with
      | (none, stream) => (.pending, stream)
      | (some (.error message), stream) => (.ready (.error message), stream)
      | (some (.ok ()), stream) =>
          -- The loop goes on: the half is idle again, and is taken once more.
          match stream.write with
          | .idle writer => { stream with write := .poisoned }.accept writer data
          | _ => (.panicked, { stream with write := .poisoned })
  | .poisoned => (.panicked, taken)

def pollFlush (stream : MirageStream) (finishes : Bool) : Poll Unit × MirageStream :=
  let taken := { stream with write := .poisoned }
  match stream.write with
  | .idle writer => (.ready (.ok ()), { taken with write := .idle writer })
  | .busy writer pending =>
      match taken.pollWriteFuture primitives writer pending finishes with
      | (none, stream) => (.pending, stream)
      | (some result, stream) => (.ready result, stream)
  | .poisoned => (.panicked, taken)

def pollShutdown (stream : MirageStream) (finishes : Bool) : Poll Unit × MirageStream :=
  stream.pollFlush primitives finishes

end MirageStream

end Mirage.Proxy
