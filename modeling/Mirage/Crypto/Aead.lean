import Mathlib.Data.Rat.Defs
import Mathlib.Data.Stream.Init
import Mirage.Crypto.Cipher
import Mirage.Foundations.Sealing

/-!
# The record layer

`CryptoWriter` cuts what it is given into records, pads the first ones to
random sizes and seals each under a counter; `CryptoReader` opens them again.
The AEAD algorithms and the key derivation are the parameter `Primitives`.

The random generator and the transport below the writer are streams of
outcomes, one element for each draw and one for each `write_all` or `flush`.
A future which is dropped at such a call leaves the writer in the state of a
call which failed there.  `rekey` is the release build's: a refused cipher is
ignored, where a debug build stops at its assertion.
-/

namespace Mirage.Crypto

open Mirage.Foundations

structure LessSafeKey where
  algorithm : Cipher
  bytes : List UInt8
  deriving DecidableEq

/-- HKDF expansion of a master key and an info text, and the AEAD algorithms. -/
structure Primitives where
  expand : List UInt8 → String → List UInt8
  aead : Aead LessSafeKey tagSize

/-- The transparent cipher, under keys which spell out what they are derived from. -/
def Primitives.transparent : Primitives where
  expand master info := master ++ info.toList.map fun char => UInt8.ofNat char.toNat
  aead := .transparent LessSafeKey tagSize

def expandKey (primitives : Primitives) (master : List UInt8) (info : String) (cipher : Cipher) :
    LessSafeKey :=
  ⟨cipher, primitives.expand master (info ++ cipher.hkdfSuffix)⟩

def formatNonce (n : UInt64) : List UInt8 :=
  List.replicate 4 0 ++ bigEndian 8 n.toNat

theorem formatNonce_length (n : UInt64) : (formatNonce n).length = nonceSize := by
  simp [formatNonce, nonceSize]

theorem formatNonce_inj {first second : UInt64} (same : formatNonce first = formatNonce second) :
    first = second := by
  apply UInt64.toNat_inj.mp
  have fits : ∀ counter : UInt64, counter.toNat < 256 ^ 8 := fun counter => counter.toNat_lt
  exact bigEndian_inj (fits first) (fits second) (List.append_cancel_left same)

def maxNonce : UInt64 :=
  UInt64.ofNat u64Max

def nonceExhausted : String :=
  "AEAD nonce 耗尽, 拒绝复用"

/-- A record as it is sealed: the buffer of the writer, and the key and counter used for it. -/
structure SealedRecord where
  key : LessSafeKey
  nonce : UInt64
  buffer : List UInt8
  deriving DecidableEq

namespace SealedRecord

def body (primitives : Primitives) (record : SealedRecord) : List UInt8 :=
  primitives.aead.sealAppendTag record.key (formatNonce record.nonce) record.buffer

/-- The TLS record header; the length is cast to `u16`. -/
def header (primitives : Primitives) (record : SealedRecord) : List UInt8 :=
  [0x17, 0x03, 0x03] ++ bigEndian 2 (record.body primitives).length

def framed (primitives : Primitives) (record : SealedRecord) : List UInt8 :=
  record.header primitives ++ record.body primitives

end SealedRecord

/-- What the random generator returns for one record. -/
structure Draw where
  usize : PadRange → ℕ
  usize_mem : ∀ range, range.lo ≤ usize range ∧ usize range ≤ range.hi
  f64 : ℚ

/-- What becomes of a `write_all` or a `flush`: a failed write may have passed some bytes on. -/
inductive WriteOutcome where
  | done
  | failed (passed : ℕ) (message : String)

/-- `BufWriter<W>`: the bytes it has taken, and what will become of the next calls. -/
structure Transport where
  taken : List UInt8
  outcomes : Stream' WriteOutcome

def Transport.writeAll (transport : Transport) (bytes : List UInt8) :
    Except String Unit × Transport :=
  match transport.outcomes.head with
  | .done => (.ok (), ⟨transport.taken ++ bytes, transport.outcomes.tail⟩)
  | .failed passed message =>
      (.error message, ⟨transport.taken ++ bytes.take passed, transport.outcomes.tail⟩)

def Transport.flush (transport : Transport) : Except String Unit × Transport :=
  transport.writeAll []

/-- The state of a `CryptoWriter`, without its reused buffer. -/
structure CryptoWriter where
  writer : Transport
  cipher : LessSafeKey
  nonce : UInt64
  master : List UInt8
  cipherKind : Cipher
  isInitiator : Bool
  rng : Stream' Draw
  padding : Bool
  recordsSent : ℕ
  scheme : List PadRange

/-- What a sending call leaves: its result, the records it sealed, and the writer. -/
structure Sent where
  result : Except String Unit
  records : List SealedRecord
  writer : CryptoWriter

namespace CryptoWriter

def info (writer : CryptoWriter) : String :=
  if writer.isInitiator then "c2s" else "s2c"

/-- `new`; `padding` and `scheme` are the snapshots of the global settings. -/
def new (primitives : Primitives) (transport : Transport) (masterKey : List UInt8)
    (isInitiator padding : Bool) (scheme : List PadRange) (rng : Stream' Draw) : CryptoWriter where
  writer := transport
  cipher := expandKey primitives masterKey (if isInitiator then "c2s" else "s2c") .chaCha20Poly1305
  nonce := 0
  master := masterKey
  cipherKind := .chaCha20Poly1305
  isInitiator := isInitiator
  rng := rng
  padding := padding
  recordsSent := 0
  scheme := scheme

def rekey (primitives : Primitives) (writer : CryptoWriter) (cipher : Cipher) : CryptoWriter :=
  if cipher = writer.cipherKind ∨ cipher = .chaCha20Poly1305 then writer
  else
    { writer with
      cipher := expandKey primitives writer.master writer.info cipher
      cipherKind := cipher
      nonce := 0 }

/-- The size limit of an unshaped record. -/
def bucket (r : ℚ) : ℕ :=
  if r ≤ 0.50 then 16384 else if r ≤ 0.85 then 8192 else 4096

/-- One round of the loop of `send_data`: the buffer to seal, and how much data it took. -/
def fillBuffer (writer : CryptoWriter) (remaining : List UInt8) : List UInt8 × ℕ :=
  if shaped : writer.padding ∧ writer.recordsSent < writer.scheme.length then
    let target := writer.rng.head.usize (writer.scheme.get ⟨_, shaped.2⟩)
    let take := min (target - 1) remaining.length
    let buffer := remaining.take take ++ [0x17]
    -- `resize(target, 0)`, when the buffer is shorter than the target.
    (buffer ++ List.replicate (target - buffer.length) 0, take)
  else
    let take := min (bucket writer.rng.head.f64) remaining.length
    (remaining.take take ++ [0x17], take)

/-- The generator has moved on, and the record is counted with `saturating_add`. -/
def countRecord (writer : CryptoWriter) : CryptoWriter :=
  { writer with
    rng := writer.rng.tail
    recordsSent := min (writer.recordsSent + 1) u32Max }

/-- Seal a buffer under the next nonce, which is used up before anything is written. -/
def sealBuffer (writer : CryptoWriter) (buffer : List UInt8) :
    Option (SealedRecord × CryptoWriter) :=
  if writer.nonce = maxNonce then none
  else some (⟨writer.cipher, writer.nonce, buffer⟩, { writer with nonce := writer.nonce + 1 })

def writeRecord (primitives : Primitives) (writer : CryptoWriter) (record : SealedRecord) :
    Except String Unit × CryptoWriter :=
  match writer.writer.writeAll (record.header primitives) with
  | (.error message, transport) => (.error message, { writer with writer := transport })
  | (.ok (), transport) =>
      let (result, transport) := transport.writeAll (record.body primitives)
      (result, { writer with writer := transport })

def flush (writer : CryptoWriter) : Sent :=
  ⟨writer.writer.flush.1, [], { writer with writer := writer.writer.flush.2 }⟩

theorem sealBuffer_eq_some {writer after : CryptoWriter} {buffer : List UInt8}
    {record : SealedRecord} (done : writer.sealBuffer buffer = some (record, after)) :
    writer.nonce ≠ maxNonce ∧ record = ⟨writer.cipher, writer.nonce, buffer⟩ ∧
      after = { writer with nonce := writer.nonce + 1 } := by
  simp only [sealBuffer] at done
  split at done
  · simp at done
  · rename_i notExhausted
    simp only [Option.some.injEq, Prod.mk.injEq] at done
    exact ⟨notExhausted, done.1.symm, done.2.symm⟩

theorem toNat_succ {n : UInt64} (notExhausted : n ≠ maxNonce) : (n + 1).toNat = n.toNat + 1 := by
  have bound : n.toNat < u64Max := by
    have notMax : n.toNat ≠ u64Max := fun equal => notExhausted (UInt64.toNat_inj.mp equal)
    have small := n.toNat_lt
    simp only [u64Max] at *
    omega
  rw [UInt64.toNat_add]
  simp only [u64Max] at bound
  change (n.toNat + 1) % 2 ^ 64 = _
  omega

@[simp]
theorem writeRecord_nonce (primitives : Primitives) (writer : CryptoWriter)
    (record : SealedRecord) : (writer.writeRecord primitives record).2.nonce = writer.nonce := by
  simp only [writeRecord]
  split <;> rfl

/-- The loop of `send_data` over the data which is left. -/
def sendLoop (primitives : Primitives) (writer : CryptoWriter) (remaining : List UInt8) : Sent :=
  if remaining = [] then writer.flush
  else
    let (buffer, take) := writer.fillBuffer remaining
    match _sealing : writer.countRecord.sealBuffer buffer with
    | none => ⟨.error nonceExhausted, [], writer.countRecord⟩
    | some (record, counted) =>
        match _writing : counted.writeRecord primitives record with
        | (.error message, written) => ⟨.error message, [record], written⟩
        | (.ok (), written) =>
            let later := written.sendLoop primitives (remaining.drop take)
            ⟨later.result, record :: later.records, later.writer⟩
termination_by u64Max - writer.nonce.toNat
decreasing_by
  -- Every round uses up a nonce, so the loop ends even where a record takes no data.
  rcases sealBuffer_eq_some _sealing with ⟨notExhausted, _, rfl⟩
  have counted_nonce := congrArg (fun result => result.2.nonce.toNat) _writing
  have next : (writer.nonce + 1).toNat = writer.nonce.toNat + 1 := toNat_succ notExhausted
  have small := (writer.nonce + 1).toNat_lt
  simp only [writeRecord_nonce] at counted_nonce
  change (writer.nonce + 1).toNat = _ at counted_nonce
  simp only [u64Max]
  omega

def sendData (primitives : Primitives) (writer : CryptoWriter) (plaintext : List UInt8) : Sent :=
  writer.sendLoop primitives plaintext

def sendCloseNotify (primitives : Primitives) (writer : CryptoWriter) : Sent :=
  match writer.sealBuffer [0x01, 0x00, 0x15] with
  | none => ⟨.error nonceExhausted, [], writer⟩
  | some (record, counted) =>
      match counted.writeRecord primitives record with
      | (.error message, written) => ⟨.error message, [record], written⟩
      | (.ok (), written) =>
          let flushed := written.flush
          ⟨flushed.result, [record], flushed.writer⟩

end CryptoWriter

/-- The state of a `CryptoReader`; `reader` holds the bytes which will arrive. -/
structure CryptoReader where
  reader : List UInt8
  cipher : LessSafeKey
  nonce : UInt64
  master : List UInt8
  cipherKind : Cipher
  isInitiator : Bool

namespace CryptoReader

def info (reader : CryptoReader) : String :=
  if reader.isInitiator then "s2c" else "c2s"

def new (primitives : Primitives) (bytes masterKey : List UInt8) (isInitiator : Bool) :
    CryptoReader where
  reader := bytes
  cipher := expandKey primitives masterKey (if isInitiator then "s2c" else "c2s") .chaCha20Poly1305
  nonce := 0
  master := masterKey
  cipherKind := .chaCha20Poly1305
  isInitiator := isInitiator

def rekey (primitives : Primitives) (reader : CryptoReader) (cipher : Cipher) : CryptoReader :=
  if cipher = reader.cipherKind ∨ cipher = .chaCha20Poly1305 then reader
  else
    { reader with
      cipher := expandKey primitives reader.master reader.info cipher
      cipherKind := cipher
      nonce := 0 }

/-- `process_plaintext_mobile`: the length of the content, or `none` for a close_notify. -/
def processPlaintextMobile (pt : List UInt8) : Except String (Option ℕ) :=
  if pt = [] then .error "empty plaintext received"
  else
    let stripped := pt.rdropWhile (· == 0)
    match stripped.getLast? with
    | none => .error "padding-only record (no content type)"
    | some innerType =>
        let contentLen := stripped.length - 1
        if innerType = 0x17 then .ok (some contentLen)
        else if innerType = 0x15 then .ok none
        else
          .error ("unknown TLS inner content type 0x" ++
            String.ofList (Nat.toDigits 16 innerType.toNat))

/-- `read_exact`: the bytes read, if as many will arrive. -/
def readExact (count : ℕ) (bytes : List UInt8) : Option (List UInt8 × List UInt8) :=
  if count ≤ bytes.length then some (bytes.take count, bytes.drop count) else none

/-- The checks of a record header: the length of the body. -/
def parseHeader (header : List UInt8) : Except String ℕ :=
  if header.take 3 ≠ [0x17, 0x03, 0x03] then .error "invalid TLS header magic bytes"
  else
    let len := ofBigEndian (header.drop 3)
    if len > maxRecordSize + 1 + tagSize then .error "TLS record exceeds max size" else .ok len

/-- Open a body which was read: its content, or `none` for a close_notify. -/
def openBody (primitives : Primitives) (reader : CryptoReader) (body : List UInt8) :
    Except String (Option (List UInt8)) × CryptoReader :=
  if reader.nonce = maxNonce then (.error nonceExhausted, reader)
  else
    let after := { reader with nonce := reader.nonce + 1 }
    match primitives.aead.openInPlace reader.cipher (formatNonce reader.nonce) body with
    | none => (.error "decryption failed: Unspecified", after)
    | some plaintext => ((processPlaintextMobile plaintext).map (Option.map plaintext.take), after)

/-- The common part of `recv_data_borrowed` and `recv_data_to`: the content of the next record. -/
def receive (primitives : Primitives) (reader : CryptoReader) :
    Except String (Option (List UInt8)) × CryptoReader :=
  match readExact 5 reader.reader with
  | none => (.error "early eof", { reader with reader := [] })
  | some (header, rest) =>
      match parseHeader header with
      | .error message => (.error message, { reader with reader := rest })
      | .ok len =>
          match readExact len rest with
          | none => (.error "early eof", { reader with reader := [] })
          | some (body, rest) => { reader with reader := rest }.openBody primitives body

/-- `recv_data`, and `recv_data_borrowed`, where a close_notify is an error. -/
def recvData (primitives : Primitives) (reader : CryptoReader) :
    Except String (List UInt8) × CryptoReader :=
  match reader.receive primitives with
  | (.error message, after) => (.error message, after)
  | (.ok none, after) => (.error "peer sent TLS alert (close_notify)", after)
  | (.ok (some content), after) => (.ok content, after)

end CryptoReader

end Mirage.Crypto
