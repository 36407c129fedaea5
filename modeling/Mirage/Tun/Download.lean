import Mirage.Crypto.Receiving
import Mirage.Foundations.Run

/-!
# The download loop of a proxied connection

`relay_proxy` moves records from the tunnel to the local stream by calling
`recv_data_to` under a timeout, round after round.  The call reads a header,
then a body, opens it and writes the content; it may be suspended anywhere in
between.  When the timeout fires the call is dropped where it stands, and the
loop ends, or goes on with a new call if the connection was active lately.

Time is a clock in milliseconds.  The transport hands over bytes and the local
stream takes them in pieces of any size.  The idle timeouts in seconds, before
and after the first bytes, are the parameter `adaptiveTimeout`.
-/

namespace Mirage.Tun

open Mirage.Foundations Mirage.Crypto

/-- Where the pending call of `recv_data_to` stands. -/
inductive DownloadPhase where
  | header (got : List UInt8)
  | body (len : ℕ) (got : List UInt8)
  | writing (rest : List UInt8) (count : ℕ)
  | ended
  deriving DecidableEq

def DownloadPhase.isWriting : DownloadPhase → Bool
  | .writing _ _ => true
  | _ => false

structure Download where
  tunReader : CryptoReader
  phase : DownloadPhase
  /-- What the local stream has taken. -/
  written : List UInt8
  downBytes : ℕ
  timeoutSecs : ℕ
  /-- The last activity of either direction, in seconds. -/
  lastActive : ℕ
  clock : ℕ
  /-- When the timeout around the pending call fires. -/
  deadline : ℕ

inductive DownloadEvent where
  | read (count : ℕ)
  | readFailed
  | accept (count : ℕ)
  | writeFailed
  | uploadActive
  | tick (milliseconds : ℕ)
  | timeout
  | stop
  deriving DecidableEq

namespace Download

variable (primitives : Primitives) (adaptiveTimeout : Bool → ℕ)

def unixNowSecs (download : Download) : ℕ :=
  download.clock / 1000

/-- A new round of the loop: a new call, under a new timeout. -/
def nextRound (download : Download) : Download :=
  { download with
    phase := .header []
    deadline := download.clock + download.timeoutSecs * 1000 }

def start (tunReader : CryptoReader) (clock lastActive : ℕ) : Download :=
  nextRound
    { tunReader, phase := .ended, written := [], downBytes := 0,
      timeoutSecs := adaptiveTimeout false, lastActive, clock, deadline := clock }

/-- `Ok(Ok(Some(count)))`: the call has written a whole record. -/
def roundDone (download : Download) (count : ℕ) : Download :=
  nextRound
    { download with
      timeoutSecs := if download.downBytes = 0 then adaptiveTimeout true else download.timeoutSecs
      downBytes := download.downBytes + count
      lastActive := download.unixNowSecs }

/-- The body is read: open it and start writing its content. -/
def bodyRead (download : Download) (body : List UInt8) : Download :=
  match download.tunReader.openBody primitives body with
  | (.ok (some content), tunReader) =>
      if content = [] then { download with tunReader }.roundDone adaptiveTimeout 0
      else { download with tunReader, phase := .writing content content.length }
  | (_, tunReader) => { download with tunReader, phase := .ended }

/-- The header is read: check it and start reading the body. -/
def headerRead (download : Download) (header : List UInt8) : Download :=
  match CryptoReader.parseHeader header with
  | .error _ => { download with phase := .ended }
  | .ok len =>
      if len = 0 then download.bodyRead primitives adaptiveTimeout []
      else { download with phase := .body len [] }

/-- Take up to `count` bytes from the transport. -/
def take (download : Download) (count : ℕ) : List UInt8 × Download :=
  (download.tunReader.reader.take count,
    { download with
      tunReader :=
        { download.tunReader with reader := download.tunReader.reader.drop count } })

def step (download : Download) : DownloadEvent → Download
  | .read count =>
      match download.phase with
      | .header got =>
          let (fresh, download) := download.take (min count (5 - got.length))
          if (got ++ fresh).length < 5 then { download with phase := .header (got ++ fresh) }
          else download.headerRead primitives adaptiveTimeout (got ++ fresh)
      | .body len got =>
          let (fresh, download) := download.take (min count (len - got.length))
          if (got ++ fresh).length < len then { download with phase := .body len (got ++ fresh) }
          else download.bodyRead primitives adaptiveTimeout (got ++ fresh)
      | _ => download
  | .readFailed =>
      match download.phase with
      | .header _ | .body _ _ => { download with phase := .ended }
      | _ => download
  | .accept count =>
      match download.phase with
      | .writing rest whole =>
          let download := { download with written := download.written ++ rest.take count }
          if rest.drop count = [] then download.roundDone adaptiveTimeout whole
          else { download with phase := .writing (rest.drop count) whole }
      | _ => download
  | .writeFailed =>
      match download.phase with
      | .writing _ _ => { download with phase := .ended }
      | _ => download
  | .uploadActive => { download with lastActive := download.unixNowSecs }
  | .tick milliseconds => { download with clock := download.clock + milliseconds }
  | .timeout =>
      if download.phase = .ended ∨ download.clock < download.deadline then download
      else if download.unixNowSecs - download.lastActive < download.timeoutSecs then
        -- The pending call is dropped, with what it has read or not yet written.
        download.nextRound
      else { download with phase := .ended }
  | .stop => { download with phase := .ended }

/-- The event drops a call which has not written all of its record, and the loop goes on. -/
def CutsRecord (download : Download) (event : DownloadEvent) : Prop :=
  event = .timeout ∧ download.deadline ≤ download.clock ∧
    download.unixNowSecs - download.lastActive < download.timeoutSecs ∧
    download.phase.isWriting = true

instance decidableCutsRecord (download : Download) (event : DownloadEvent) :
    Decidable (download.CutsRecord event) :=
  inferInstanceAs (Decidable (_ ∧ _ ∧ _ ∧ _))

end Download

/-- The plaintext of a record stream, up to the first record which is not data. -/
def plainStream : List SealedRecord → List UInt8
  | [] => []
  | record :: records =>
      match CryptoReader.processPlaintextMobile record.buffer with
      | .ok (some count) => record.buffer.take count ++ plainStream records
      | _ => []

/-- What opens in a stream of records under some counter was sealed under that counter. -/
def Authentic (primitives : Primitives) (key : LessSafeKey) (records : List SealedRecord) : Prop :=
  ∀ counter window plaintext,
    window <:+: records.flatMap (SealedRecord.framed primitives) →
    primitives.aead.openInPlace key (formatNonce counter) window = some plaintext →
    ∃ record ∈ records, record.nonce = counter ∧ record.buffer = plaintext

end Mirage.Tun
