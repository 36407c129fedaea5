import Mirage.Crypto.Sending

/-!
# What the receiving calls do

A reader whose session is the one a record was sealed in takes exactly the
record's bytes from its input, opens it, and moves to the next session.

The three receiving calls are three copies of one text, two of which work in the
scratch buffer of the reader.  They return the same data and fail at the same
record.
-/

namespace Mirage.Crypto

open Mirage.Foundations

namespace SealedRecord

variable {primitives : Primitives} {record : SealedRecord}

theorem body_length (primitives : Primitives) (record : SealedRecord) :
    (record.body primitives).length = record.buffer.length + tagSize :=
  primitives.aead.seal_length _ _ _

theorem body_length_le (primitives : Primitives)
    (fits : record.buffer.length ≤ maxRecordSize + 1) :
    (record.body primitives).length ≤ maxRecordSize + 1 + tagSize := by
  rw [body_length]
  omega

theorem header_length (primitives : Primitives) (record : SealedRecord) :
    (record.header primitives).length = 5 := by
  simp [header]

theorem header_field (primitives : Primitives)
    (fits : record.buffer.length ≤ maxRecordSize + 1) :
    ofBigEndian ((record.header primitives).drop 3) = (record.body primitives).length := by
  have small := body_length_le primitives fits
  simp only [maxRecordSize, tagSize] at small
  apply ofBigEndian_bigEndian
  omega

end SealedRecord

namespace CryptoReader

variable {primitives : Primitives} {reader : CryptoReader} {record : SealedRecord}

theorem readExact_append (first second : List UInt8) :
    readExact first.length (first ++ second) = some (first, second) := by
  simp [readExact]

/-- The plaintext of a data record is cut to its content. -/
theorem processPlaintext_of_isData (isData : record.IsData) :
    (processPlaintextMobile record.buffer).map (Option.map record.buffer.take) =
      .ok (some record.content) := by
  rcases isData with ⟨chunk, zeros, shape⟩
  have notEmpty : record.buffer ≠ [] := by simp [shape]
  rw [processPlaintextMobile, if_neg notEmpty, SealedRecord.content_eq shape, shape,
    SealedRecord.rdropWhile_padded]
  simp [Except.map]

/-- A reader in the session of a record opens it. -/
theorem receive_framed {rest : List UInt8}
    (input : reader.reader = record.framed primitives ++ rest)
    (notExhausted : reader.nonce ≠ maxNonce) (key_eq : record.key = reader.cipher)
    (nonce_eq : record.nonce = reader.nonce) (fits : record.buffer.length ≤ maxRecordSize + 1) :
    reader.receive primitives =
      ((processPlaintextMobile record.buffer).map (Option.map record.buffer.take),
        { reader with reader := rest, nonce := reader.nonce + 1 }) := by
  have header_read : readExact 5 reader.reader =
      some (record.header primitives, record.body primitives ++ rest) := by
    rw [input, SealedRecord.framed, List.append_assoc, ← record.header_length primitives]
    exact readExact_append _ _
  have magic : (record.header primitives).take 3 = [0x17, 0x03, 0x03] := rfl
  have field := SealedRecord.header_field primitives fits
  have accepted := SealedRecord.body_length_le primitives fits
  have opened : primitives.aead.openInPlace reader.cipher (formatNonce reader.nonce)
      (record.body primitives) = some record.buffer := by
    rw [← key_eq, ← nonce_eq]
    exact primitives.aead.open_seal _ _ _
  have parsed : parseHeader (record.header primitives) =
      .ok (record.body primitives).length := by
    rw [parseHeader, if_neg (by rw [magic]; simp), field, if_neg (by omega)]
  simp only [receive, header_read, parsed, readExact_append]
  rw [openBody, if_neg notExhausted, opened]

theorem processPlaintextMobile_le {pt : List UInt8} {contentLen : ℕ}
    (processed : processPlaintextMobile pt = .ok (some contentLen)) : contentLen ≤ pt.length := by
  have stripped := (List.rdropWhile_prefix (· == 0) pt).length_le
  simp only [processPlaintextMobile] at processed
  split at processed
  · cases processed
  · split at processed
    · cases processed
    · split at processed
      · cases processed
        omega
      · split at processed <;> cases processed

theorem readExact_length {count : ℕ} {bytes read rest : List UInt8}
    (arrived : readExact count bytes = some (read, rest)) : read.length = count := by
  rw [readExact, Option.ite_none_right_eq_some] at arrived
  rcases arrived with ⟨enough, same⟩
  cases same
  rw [List.length_take, Nat.min_eq_left enough]

theorem underscore_toDigits (innerType : UInt8) : '_' ∉ Nat.toDigits 16 innerType.toNat := by
  have every : ∀ code : Fin 256, '_' ∉ Nat.toDigits 16 code.val := by decide +kernel
  exact every ⟨innerType.toNat, innerType.toNat_lt⟩

/-- No error has an underscore in it, as the one of a close_notify has. -/
theorem processPlaintextMobile_underscore {pt : List UInt8} {message : String}
    (failed : processPlaintextMobile pt = .error message) : '_' ∉ message.toList := by
  simp only [processPlaintextMobile] at failed
  split at failed
  · cases failed
    decide
  · split at failed
    · cases failed
      decide
    · split at failed
      · cases failed
      · split at failed
        · cases failed
        · cases failed
          rw [String.toList_append, List.mem_append]
          rintro (there | there)
          · exact absurd there (by decide)
          · rw [String.toList_ofList] at there
            exact underscore_toDigits _ there

end CryptoReader

/-- The results of calls one after another, whether they succeed or not, and what they leave. -/
def calls {State Result : Type} (call : State → Result × State) : ℕ → State → List Result × State
  | 0, state => ([], state)
  | count + 1, state =>
      let later := calls call count (call state).2
      ((call state).1 :: later.1, later.2)

/-- The last of the calls, split off. -/
theorem calls_succ {State Result : Type} (call : State → Result × State) (count : ℕ)
    (state : State) :
    calls call (count + 1) state =
      ((calls call count state).1 ++ [(call (calls call count state).2).1],
        (call (calls call count state).2).2) := by
  induction count generalizing state with
  | zero => rfl
  | succ count ih =>
      rw [calls, ih]
      rfl

/-! ## The three receiving calls -/

/--
`open_in_place` on a buffer: the length of the plaintext, which then stands at its start, and
the buffer.  What it leaves after a failure is not specified.
-/
structure InPlace (primitives : Primitives) where
  openBuffer : LessSafeKey → List UInt8 → List UInt8 → Option ℕ × List UInt8
  length_eq : ∀ key nonce body, (openBuffer key nonce body).2.length = body.length
  within : ∀ key nonce body plaintextLen,
    (openBuffer key nonce body).1 = some plaintextLen → plaintextLen ≤ body.length
  opens : ∀ key nonce body, primitives.aead.openInPlace key nonce body =
    (openBuffer key nonce body).1.map (openBuffer key nonce body).2.take

/-- The transparent cipher leaves the tag where it was. -/
def InPlace.transparent : InPlace .transparent where
  openBuffer key nonce body :=
    ((Primitives.transparent.aead.openInPlace key nonce body).map List.length, body)
  length_eq _ _ _ := rfl
  within key nonce body plaintextLen opened := by
    simp only [Primitives.transparent, Aead.transparent] at opened
    split at opened
    · cases opened
      simp
    · cases opened
  opens key nonce body := by
    simp only [Primitives.transparent, Aead.transparent]
    split
    · simp
    · rfl

/-- The buffer which a reader allocates once, and uses for every record. -/
structure Scratch where
  bytes : List UInt8
  length_eq : bytes.length = maxRecordSize + 1 + tagSize

namespace Scratch

/-- Some bytes are put at the start, as far as they fit. -/
def fill (scratch : Scratch) (front : List UInt8) : Scratch where
  bytes := (front ++ scratch.bytes.drop front.length).take (maxRecordSize + 1 + tagSize)
  length_eq := by
    rw [List.length_take, List.length_append, List.length_drop, scratch.length_eq]
    omega

theorem take_fill (scratch : Scratch) {front : List UInt8} {len : ℕ}
    (inside : len ≤ front.length) (fits : front.length ≤ maxRecordSize + 1 + tagSize) :
    (scratch.fill front).bytes.take len = front.take len := by
  rw [fill, List.take_take, Nat.min_eq_left (inside.trans fits),
    List.take_append_of_le_length inside]

end Scratch

structure BufferedReader where
  inner : CryptoReader
  scratch : Scratch

namespace BufferedReader

open CryptoReader (readExact)

/-- The bytes which are still to arrive, and what was read into the buffer. -/
def reads (state : BufferedReader) (rest front : List UInt8) : BufferedReader where
  inner := { state.inner with reader := rest }
  scratch := state.scratch.fill front

def useNonce (state : BufferedReader) : BufferedReader :=
  { state with inner := { state.inner with nonce := state.inner.nonce + 1 } }

def processPlaintext (pt : List UInt8) : Except String ℕ :=
  match CryptoReader.processPlaintextMobile pt with
  | .error message => .error message
  | .ok (some contentLen) => .ok contentLen
  | .ok none => .error "peer sent TLS alert (close_notify)"

section Calls

variable {primitives : Primitives} (inPlace : InPlace primitives)

def recvDataBorrowed (state : BufferedReader) : Except String (List UInt8) × BufferedReader :=
  match readExact 5 state.inner.reader with
  | none => (.error "early eof", state.reads [] [])
  | some (header, rest) =>
      if header.take 3 ≠ [0x17, 0x03, 0x03] then
        (.error "invalid TLS header magic bytes", state.reads rest [])
      else
        let len := ofBigEndian (header.drop 3)
        if len > maxRecordSize + 1 + tagSize then
          (.error "TLS record exceeds max size", state.reads rest [])
        else
          match readExact len rest with
          | none => (.error "early eof", state.reads [] rest)
          | some (body, rest) =>
              let state := state.reads rest body
              if state.inner.nonce = maxNonce then (.error nonceExhausted, state)
              else
                let opening := inPlace.openBuffer state.inner.cipher
                  (formatNonce state.inner.nonce) (state.scratch.bytes.take len)
                let state := { state.useNonce with scratch := state.scratch.fill opening.2 }
                match opening.1 with
                | none => (.error "decryption failed: Unspecified", state)
                | some plaintextLen =>
                    match processPlaintext (state.scratch.bytes.take plaintextLen) with
                    | .error message => (.error message, state)
                    | .ok contentLen => (.ok (state.scratch.bytes.take contentLen), state)

/-- The number of bytes which were written, or `none` for a close_notify. -/
def recvDataTo (state : BufferedReader) (writer : Transport) :
    Except String (Option ℕ) × BufferedReader × Transport :=
  match readExact 5 state.inner.reader with
  | none => (.error "early eof", state.reads [] [], writer)
  | some (header, rest) =>
      if header.take 3 ≠ [0x17, 0x03, 0x03] then
        (.error "invalid TLS header magic bytes", state.reads rest [], writer)
      else
        let len := ofBigEndian (header.drop 3)
        if len > maxRecordSize + 1 + tagSize then
          (.error "TLS record exceeds max size", state.reads rest [], writer)
        else
          match readExact len rest with
          | none => (.error "early eof", state.reads [] rest, writer)
          | some (body, rest) =>
              let state := state.reads rest body
              if state.inner.nonce = maxNonce then (.error nonceExhausted, state, writer)
              else
                let opening := inPlace.openBuffer state.inner.cipher
                  (formatNonce state.inner.nonce) (state.scratch.bytes.take len)
                let state := { state.useNonce with scratch := state.scratch.fill opening.2 }
                match opening.1 with
                | none => (.error "decryption failed: Unspecified", state, writer)
                | some plaintextLen =>
                    match CryptoReader.processPlaintextMobile
                      (state.scratch.bytes.take plaintextLen) with
                    | .error message => (.error message, state, writer)
                    | .ok none => (.ok none, state, writer)
                    | .ok (some n) =>
                        match writer.writeAll (state.scratch.bytes.take n) with
                        | (.error message, writer) => (.error message, state, writer)
                        | (.ok (), writer) => (.ok (some n), state, writer)

/-- `recv_data`, with `to_vec` on what is borrowed. -/
def recvData (state : BufferedReader) : Except String (List UInt8) × BufferedReader :=
  match state.recvDataBorrowed inPlace with
  | (.error message, state) => (.error message, state)
  | (.ok content, state) => (.ok content, state)

/-- What was received, and what `recv_data_to` returns for it. -/
inductive SameReport : Except String (List UInt8) → Except String (Option ℕ) → Prop
  | data (content : List UInt8) : SameReport (.ok content) (.ok (some content.length))
  | closeNotify : SameReport (.error "peer sent TLS alert (close_notify)") (.ok none)
  | failed {message : String} (other : message ≠ "peer sent TLS alert (close_notify)") :
      SameReport (.error message) (.error message)

/-- The data of a call. -/
def payload : Except String (List UInt8) → List UInt8
  | .ok content => content
  | .error _ => []

/-- A call of `recv_data_to` does what a call of `recv_data_borrowed` does, and writes the data. -/
structure Agree (writer : Transport) (borrowed : Except String (List UInt8) × BufferedReader)
    (forwarded : Except String (Option ℕ) × BufferedReader × Transport) : Prop where
  report : SameReport borrowed.1 forwarded.1
  reader : forwarded.2.1 = borrowed.2
  reliable : forwarded.2.2.Reliable
  taken : forwarded.2.2.taken = writer.taken ++ payload borrowed.1

variable {inPlace} {writer : Transport}

theorem Agree.failed {message : String} {state : BufferedReader} (reliable : writer.Reliable)
    (other : message ≠ "peer sent TLS alert (close_notify)") :
    Agree writer (.error message, state) (.error message, state, writer) :=
  ⟨.failed other, rfl, reliable, (List.append_nil _).symm⟩

theorem processPlaintextMobile_error {pt : List UInt8} {message : String}
    (failed : CryptoReader.processPlaintextMobile pt = .error message) :
    message ≠ "peer sent TLS alert (close_notify)" := by
  rintro rfl
  exact CryptoReader.processPlaintextMobile_underscore failed (by decide)

/-- The end of the two calls, once a record was opened. -/
theorem agree_opened (state : BufferedReader) {plaintextLen : ℕ} (reliable : writer.Reliable)
    (fits : plaintextLen ≤ maxRecordSize + 1 + tagSize) :
    Agree writer
      (match processPlaintext (state.scratch.bytes.take plaintextLen) with
      | .error message => (.error message, state)
      | .ok contentLen => (.ok (state.scratch.bytes.take contentLen), state))
      (match CryptoReader.processPlaintextMobile (state.scratch.bytes.take plaintextLen) with
      | .error message => (.error message, state, writer)
      | .ok none => (.ok none, state, writer)
      | .ok (some n) =>
          match writer.writeAll (state.scratch.bytes.take n) with
          | (.error message, writer) => (.error message, state, writer)
          | (.ok (), writer) => (.ok (some n), state, writer)) := by
  cases processed : CryptoReader.processPlaintextMobile (state.scratch.bytes.take plaintextLen) with
  | error message =>
      rw [processPlaintext, processed]
      exact .failed reliable (processPlaintextMobile_error processed)
  | ok found =>
      cases found with
      | none =>
          rw [processPlaintext, processed]
          exact ⟨.closeNotify, rfl, reliable, (List.append_nil _).symm⟩
      | some n =>
          have inside := CryptoReader.processPlaintextMobile_le processed
          rw [List.length_take, state.scratch.length_eq] at inside
          have length_eq : (state.scratch.bytes.take n).length = n := by
            rw [List.length_take, state.scratch.length_eq]
            omega
          rcases reliable.writeAll (state.scratch.bytes.take n) with ⟨written, still⟩
          rw [written] at still
          simp only [processPlaintext, processed, written]
          have report := SameReport.data (state.scratch.bytes.take n)
          rw [length_eq] at report
          exact ⟨report, rfl, still, rfl⟩

theorem recvDataTo_agrees (state : BufferedReader) (reliable : writer.Reliable) :
    Agree writer (state.recvDataBorrowed inPlace) (state.recvDataTo inPlace writer) := by
  simp only [recvDataBorrowed, recvDataTo]
  cases readExact 5 state.inner.reader with
  | none => exact .failed reliable (by decide)
  | some found =>
      rcases found with ⟨header, rest⟩
      dsimp only
      split
      · exact .failed reliable (by decide)
      · split
        · exact .failed reliable (by decide)
        · rename_i fits
          cases arrived : readExact (ofBigEndian (header.drop 3)) rest with
          | none => exact .failed reliable (by decide)
          | some read =>
              rcases read with ⟨body, rest⟩
              dsimp only
              split
              · exact .failed reliable (by decide)
              · split
                · exact .failed reliable (by decide)
                · rename_i plaintextLen opened
                  have within := inPlace.within _ _ _ plaintextLen opened
                  rw [List.length_take, Scratch.length_eq] at within
                  refine agree_opened { (state.reads rest body).useNonce with scratch := _ }
                    reliable ?_
                  omega

theorem recvData_eq (state : BufferedReader) :
    state.recvData inPlace = state.recvDataBorrowed inPlace := by
  rw [recvData]
  rcases state.recvDataBorrowed inPlace with ⟨_ | _, _⟩ <;> rfl

theorem calls_agree (state : BufferedReader) (reliable : writer.Reliable) (count : ℕ) :
    List.Forall₂ SameReport (calls (recvDataBorrowed inPlace) count state).1
        (calls (fun (state, writer) => recvDataTo inPlace state writer) count (state, writer)).1 ∧
      (calls (fun (state, writer) => recvDataTo inPlace state writer) count
        (state, writer)).2.1 = (calls (recvDataBorrowed inPlace) count state).2 ∧
      (calls (fun (state, writer) => recvDataTo inPlace state writer) count
        (state, writer)).2.2.taken =
          writer.taken ++ (calls (recvDataBorrowed inPlace) count state).1.flatMap payload := by
  induction count generalizing state writer with
  | zero => exact ⟨.nil, rfl, (List.append_nil _).symm⟩
  | succ count ih =>
      have agree := @recvDataTo_agrees primitives inPlace writer state reliable
      rcases ih (state.recvDataBorrowed inPlace).2 agree.reliable with ⟨reports, readers, taken⟩
      simp only [calls]
      rw [← agree.reader] at reports readers taken ⊢
      refine ⟨.cons agree.report reports, readers, ?_⟩
      rw [List.flatMap_cons, ← List.append_assoc, ← agree.taken]
      exact taken

/--
Any number of calls of the three kinds on one input give the same data and fail at the same
records, with the same message except for a close_notify, and leave the reader in the same
state.  The writer of `recv_data_to` is one which accepts what is written.
-/
theorem readers_agree (inPlace : InPlace primitives) (state : BufferedReader)
    (reliable : writer.Reliable) (count : ℕ) :
    let owned := calls (recvData inPlace) count state
    let borrowed := calls (recvDataBorrowed inPlace) count state
    let forwarded := calls (fun (state, writer) => recvDataTo inPlace state writer) count
      (state, writer)
    owned = borrowed ∧ List.Forall₂ SameReport borrowed.1 forwarded.1 ∧
      forwarded.2.1 = borrowed.2 ∧
      forwarded.2.2.taken = writer.taken ++ borrowed.1.flatMap payload := by
  have same : recvData inPlace = recvDataBorrowed inPlace := funext recvData_eq
  exact ⟨by rw [same], calls_agree state reliable count⟩

/-- Data, a close_notify, and the beginning of a record. -/
def closedInput : BufferedReader where
  inner :=
    CryptoReader.new .transparent
      (SealedRecord.framed .transparent ⟨⟨.chaCha20Poly1305, []⟩, 0, [7, 0, 0x17, 0]⟩ ++
        SealedRecord.framed .transparent ⟨⟨.chaCha20Poly1305, []⟩, 1, [1, 0, 0x15]⟩ ++ [0x17])
      [] true
  scratch := ⟨List.replicate _ 0, List.length_replicate⟩

theorem readers_agree_closedInput :
    List.Forall₂ SameReport (calls (recvDataBorrowed .transparent) 3 closedInput).1
      (calls (fun (state, writer) => recvDataTo .transparent state writer) 3
        (closedInput, ⟨[], Stream'.const .done⟩)).1 :=
  (@readers_agree _ ⟨[], Stream'.const .done⟩ .transparent closedInput (fun _ => rfl) 3).2.1

/-- What was opened in the buffer is taken from its start. -/
theorem recvData_opened (state : BufferedReader) (after : CryptoReader) {plaintextLen : ℕ}
    {plaintext : List UInt8} (taken : state.scratch.bytes.take plaintextLen = plaintext)
    (same : state.inner = after) :
    let borrowed : Except String (List UInt8) × BufferedReader :=
      match processPlaintext (state.scratch.bytes.take plaintextLen) with
      | .error message => (.error message, state)
      | .ok contentLen => (.ok (state.scratch.bytes.take contentLen), state)
    let received : Except String (List UInt8) × CryptoReader :=
      match ((CryptoReader.processPlaintextMobile plaintext).map (Option.map plaintext.take),
        after) with
      | (.error message, after) => (.error message, after)
      | (.ok none, after) => (.error "peer sent TLS alert (close_notify)", after)
      | (.ok (some content), after) => (.ok content, after)
    borrowed.1 = received.1 ∧ borrowed.2.inner = received.2 := by
  rw [processPlaintext, taken]
  cases processed : CryptoReader.processPlaintextMobile plaintext with
  | error message => exact ⟨rfl, same⟩
  | ok found =>
      cases found with
      | none => exact ⟨rfl, same⟩
      | some contentLen =>
          have inside := CryptoReader.processPlaintextMobile_le processed
          refine ⟨congrArg Except.ok ?_, same⟩
          rw [← taken, List.length_take] at inside
          dsimp only
          rw [← taken, List.take_take, Nat.min_eq_left (by omega)]

/-- The scratch buffer is only a place: the calls are those of a reader without one. -/
theorem recvDataBorrowed_eq (state : BufferedReader) :
    (state.recvDataBorrowed inPlace).1 = (state.inner.recvData primitives).1 ∧
      (state.recvDataBorrowed inPlace).2.inner = (state.inner.recvData primitives).2 := by
  simp only [recvDataBorrowed, CryptoReader.recvData, CryptoReader.receive,
    CryptoReader.parseHeader]
  cases readExact 5 state.inner.reader with
  | none => exact ⟨rfl, rfl⟩
  | some found =>
      rcases found with ⟨header, rest⟩
      dsimp only
      split
      · exact ⟨rfl, rfl⟩
      · split
        · exact ⟨rfl, rfl⟩
        · rename_i fits
          dsimp only
          cases arrived : readExact (ofBigEndian (header.drop 3)) rest with
          | none => exact ⟨rfl, rfl⟩
          | some read =>
              rcases read with ⟨body, rest⟩
              have body_length := CryptoReader.readExact_length arrived
              have whole : (state.reads rest body).scratch.bytes.take
                  (ofBigEndian (header.drop 3)) = body := by
                rw [reads, Scratch.take_fill _ body_length.ge (by omega), ← body_length,
                  List.take_length]
              by_cases exhausted : state.inner.nonce = maxNonce
              · simp only [CryptoReader.openBody, reads, exhausted, if_true, and_self]
              · have length_eq := inPlace.length_eq state.inner.cipher
                  (formatNonce state.inner.nonce) body
                have within := inPlace.within state.inner.cipher
                  (formatNonce state.inner.nonce) body
                simp only [reads] at whole
                simp only [CryptoReader.openBody, reads, exhausted, if_false, inPlace.opens, whole,
                  useNonce]
                generalize inPlace.openBuffer state.inner.cipher (formatNonce state.inner.nonce)
                  body = opened at length_eq within ⊢
                rcases opened with ⟨_ | plaintextLen, buffer⟩
                · exact ⟨rfl, rfl⟩
                · have inside := within plaintextLen rfl
                  rw [← length_eq] at inside
                  dsimp only at inside length_eq
                  have small : buffer.length ≤ maxRecordSize + 1 + tagSize := by omega
                  apply recvData_opened ⟨_, _⟩ _ _ rfl
                  exact Scratch.take_fill _ inside small

end Calls

end BufferedReader

end Mirage.Crypto
