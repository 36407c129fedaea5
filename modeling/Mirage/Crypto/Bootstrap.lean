import Mirage.Crypto.RoundTrip
import Mirage.TimeSync

/-!
# The start of a session

After the handshake the server tells its time, and whether it can change the cipher.  If
it can, the client says whether it has AES in hardware, the server answers with the cipher
of the session, and both ends change to it.  A tunnel comes out of this only with both of
its directions under one cipher.
-/

namespace Mirage.Crypto

open Mirage.Foundations Mirage.TimeSync

namespace Cipher

def toWire : Cipher → UInt8
  | .chaCha20Poly1305 => 0x01
  | .aes256Gcm => 0x02

def fromWire (byte : UInt8) : Option Cipher :=
  if byte = 0x01 then some .chaCha20Poly1305
  else if byte = 0x02 then some .aes256Gcm
  else none

theorem fromWire_toWire (cipher : Cipher) : fromWire cipher.toWire = some cipher := by
  cases cipher <;> rfl

end Cipher

def cipherNegoSentinel : List UInt8 := [0xFF, 0xFF]

def cipherAckType : UInt8 := 0x03

def buildCipherNego (clientSupportsAes : Bool) : List UInt8 :=
  cipherNegoSentinel ++ [if clientSupportsAes then 1 else 0]

def parseCipherNego (frame : List UInt8) : Option Bool :=
  match frame with
  | [first, second, aes] => if [first, second] = cipherNegoSentinel then some (aes != 0) else none
  | _ => none

def negotiate (clientAes serverAes : Bool) : Cipher :=
  if clientAes && serverAes then .aes256Gcm else .chaCha20Poly1305

def buildCipherAck (finalCipher : Cipher) : List UInt8 :=
  [cipherAckType, finalCipher.toWire]

def parseCipherAck (frame : List UInt8) : Option Cipher :=
  match frame with
  | [kind, cipher] => if kind = cipherAckType then Cipher.fromWire cipher else none
  | _ => none

theorem parseCipherNego_build (aes : Bool) : parseCipherNego (buildCipherNego aes) = some aes := by
  cases aes <;> rfl

theorem parseCipherAck_build (cipher : Cipher) :
    parseCipherAck (buildCipherAck cipher) = some cipher := by
  cases cipher <;> rfl

/-- `AuthFailure`, which pauses the pool in the end, and the other errors -/
inductive ConnectError where
  | authFailure (message : String)
  | other (message : String)
  deriving DecidableEq, Repr

/-- Which of the two frames of the server come within three seconds -/
structure InTime where
  sync : Bool
  ack : Bool
  deriving DecidableEq, Repr

/-- The rest of `connect_upstream` once the server has said whether it can change the cipher -/
def agreeCipher (primitives : Primitives) (supportsAes : Bool) (inTime : InTime)
    (reader : CryptoReader) (writer : CryptoWriter) :
    Except ConnectError (CryptoReader × CryptoWriter) :=
  let sent := writer.sendData primitives (buildCipherNego supportsAes)
  match sent.result with
  | .error message => .error (.other ("cipher agility: 发送 CIPHER_NEGO 失败: " ++ message))
  | .ok () =>
      if inTime.ack then
        match reader.recvData primitives with
        | (.error message, _) =>
            .error (.other ("cipher agility: 接收 CIPHER_ACK 失败: " ++ message))
        | (.ok ack, reader) =>
            match parseCipherAck ack with
            | some finalCipher =>
                if finalCipher ≠ sent.writer.cipherKind then
                  .ok (reader.rekey primitives finalCipher,
                    sent.writer.rekey primitives finalCipher)
                else .ok (reader, sent.writer)
            | none => .error (.other "cipher agility: CIPHER_ACK 格式异常")
      else .error (.other "cipher agility: 等待 CIPHER_ACK 超时 (3s)")

/-- `connect_upstream` after the handshake, and the stored time offset after it -/
def connectUpstream (primitives : Primitives) (supportsAes : Bool) (inTime : InTime)
    (localTime : UInt64) (stored : Int64) (reader : CryptoReader) (writer : CryptoWriter) :
    Except ConnectError (CryptoReader × CryptoWriter) × Int64 :=
  if inTime.sync then
    match reader.recvData primitives with
    | (.error message, _) =>
        (.error (.authFailure ("TIME_SYNC 接收/解密失败: " ++ message)), stored)
    | (.ok data, reader) =>
        match processTimeSyncFrame data localTime stored with
        | (.error message, stored) => (.error (.authFailure message), stored)
        | (.ok true, stored) => (agreeCipher primitives supportsAes inTime reader writer, stored)
        | (.ok false, stored) => (.ok (reader, writer), stored)
  else (.error (.authFailure "TIME_SYNC 等待超时 (3s)"), stored)

/-! ## Whatever arrives -/

section Lockstep

variable {primitives : Primitives} {reader : CryptoReader} {writer : CryptoWriter}

/-- The two directions of a tunnel -/
structure Paired (primitives : Primitives) (masterKey : List UInt8) (reader : CryptoReader)
    (writer : CryptoWriter) : Prop where
  cipher_eq : reader.cipherKind = writer.cipherKind
  reader_keyed : reader.session.Keyed primitives
  writer_keyed : writer.session.Keyed primitives
  reader_master : reader.session.master = masterKey ∧ reader.session.info = "s2c"
  writer_master : writer.session.master = masterKey ∧ writer.session.info = "c2s"

variable {masterKey : List UInt8}

theorem CryptoReader.openBody_session (reader : CryptoReader) (body : List UInt8) :
    ∃ nonce, (reader.openBody primitives body).2 = { reader with nonce := nonce } := by
  rw [openBody]
  split
  · exact ⟨reader.nonce, rfl⟩
  · dsimp only
    split <;> exact ⟨_, rfl⟩

/-- Receiving moves on in the stream and in the nonces. -/
theorem CryptoReader.recvData_session (reader : CryptoReader) :
    ∃ rest nonce, (reader.recvData primitives).2 =
      { reader with reader := rest, nonce := nonce } := by
  have received : ∃ rest nonce, (reader.receive primitives).2 =
      { reader with reader := rest, nonce := nonce } := by
    rw [receive]
    split
    · exact ⟨[], reader.nonce, rfl⟩
    · rename_i header rest _
      split
      · exact ⟨rest, reader.nonce, rfl⟩
      · split
        · exact ⟨[], reader.nonce, rfl⟩
        · rename_i body rest _
          rcases openBody_session { reader with reader := rest } body with ⟨nonce, after⟩
          exact ⟨rest, nonce, after⟩
  rcases received with ⟨rest, nonce, after⟩
  refine ⟨rest, nonce, ?_⟩
  rw [recvData]
  split
  · rename_i received
    rw [received] at after
    exact after
  · rename_i received
    rw [received] at after
    exact after
  · rename_i received
    rw [received] at after
    exact after

theorem Session.after_records (session : Session) (records : List SealedRecord) :
    ∃ nonce, session.after primitives (records.map .sealedRecord) =
      { session with nonce := nonce } := by
  induction records generalizing session with
  | nil => exact ⟨session.nonce, rfl⟩
  | cons record records ih =>
      rcases ih (session.next primitives (.sealedRecord record)) with ⟨nonce, later⟩
      exact ⟨nonce, later⟩

theorem Paired.new (primitives : Primitives) (bytes masterKey : List UInt8) (transport : Transport)
    (padding : Bool) (scheme : List PadRange) (rng : Stream' Draw) :
    Paired primitives masterKey (.new primitives bytes masterKey true)
      (.new primitives transport masterKey true padding scheme rng) where
  cipher_eq := rfl
  reader_keyed := Session.Keyed.bootstrap masterKey "s2c"
  writer_keyed := Session.Keyed.bootstrap masterKey "c2s"
  reader_master := ⟨rfl, rfl⟩
  writer_master := ⟨rfl, rfl⟩

theorem Paired.recvData (paired : Paired primitives masterKey reader writer) :
    Paired primitives masterKey (reader.recvData primitives).2 writer := by
  rcases @CryptoReader.recvData_session primitives reader with ⟨rest, nonce, after⟩
  rw [after]
  exact ⟨paired.cipher_eq, paired.reader_keyed, paired.writer_keyed, paired.reader_master,
    paired.writer_master⟩

theorem sendData_session (writer : CryptoWriter) (plaintext : List UInt8) :
    ∃ nonce, (writer.sendData primitives plaintext).writer.session =
      { writer.session with nonce := nonce } := by
  rw [(writer.sends_sendData primitives plaintext).session_eq]
  exact Session.after_records _ _

theorem Paired.sendData (paired : Paired primitives masterKey reader writer)
    (plaintext : List UInt8) :
    Paired primitives masterKey reader (writer.sendData primitives plaintext).writer := by
  rcases sendData_session writer plaintext with ⟨nonce, after⟩
  have kind := congrArg Session.cipherKind after
  refine ⟨paired.cipher_eq.trans kind.symm, paired.reader_keyed, ?_, paired.reader_master, ?_⟩
  · rw [after]
    exact paired.writer_keyed
  · rw [after]
    exact paired.writer_master

/-- From the cipher at the start a session changes to any. -/
theorem Session.rekey_cipherKind {session : Session}
    (kind : session.cipherKind = .chaCha20Poly1305) (cipher : Cipher) :
    (session.rekey primitives cipher).cipherKind = cipher := by
  rw [rekey]
  split
  · rename_i same
    rcases same with same | same
    · exact same.symm
    · rw [kind, same]
  · rfl

theorem Session.rekey_rest (session : Session) (cipher : Cipher) :
    (session.rekey primitives cipher).master = session.master ∧
      (session.rekey primitives cipher).info = session.info := by
  rw [rekey]
  split <;> exact ⟨rfl, rfl⟩

theorem Paired.rekey (paired : Paired primitives masterKey reader writer)
    (kind : writer.cipherKind = .chaCha20Poly1305) (cipher : Cipher) :
    Paired primitives masterKey (reader.rekey primitives cipher)
        (writer.rekey primitives cipher) ∧
      (writer.rekey primitives cipher).cipherKind = cipher := by
  have reader_kind : reader.session.cipherKind = .chaCha20Poly1305 := paired.cipher_eq.trans kind
  have writer_after : (writer.rekey primitives cipher).cipherKind = cipher := by
    have after := @Session.rekey_cipherKind primitives writer.session kind cipher
    rw [← CryptoWriter.rekey_session] at after
    exact after
  have reader_after : (reader.rekey primitives cipher).cipherKind = cipher := by
    have after := @Session.rekey_cipherKind primitives _ reader_kind cipher
    rw [← CryptoReader.rekey_session] at after
    exact after
  rcases @Session.rekey_rest primitives reader.session cipher with
    ⟨reader_master, reader_info⟩
  rcases @Session.rekey_rest primitives writer.session cipher with
    ⟨writer_master, writer_info⟩
  refine ⟨⟨reader_after.trans writer_after.symm, ?_, ?_, ?_, ?_⟩, writer_after⟩
  · rw [CryptoReader.rekey_session]
    exact paired.reader_keyed.next (.rekeyed cipher)
  · rw [CryptoWriter.rekey_session]
    exact paired.writer_keyed.next (.rekeyed cipher)
  · rw [CryptoReader.rekey_session, reader_master, reader_info]
    exact paired.reader_master
  · rw [CryptoWriter.rekey_session, writer_master, writer_info]
    exact paired.writer_master

/-- The answer of the server is the cipher of both directions, or there is no tunnel. -/
theorem agreeCipher_paired (paired : Paired primitives masterKey reader writer)
    (kind : writer.cipherKind = .chaCha20Poly1305) {supportsAes : Bool} {inTime : InTime}
    {newReader : CryptoReader} {newWriter : CryptoWriter}
    (agreed : agreeCipher primitives supportsAes inTime reader writer =
      .ok (newReader, newWriter)) :
    Paired primitives masterKey newReader newWriter ∧ inTime.ack = true ∧
      ∃ ack, (reader.recvData primitives).1 = .ok ack ∧
        parseCipherAck ack = some newWriter.cipherKind := by
  have sent := paired.sendData (buildCipherNego supportsAes)
  have sent_kind : (writer.sendData primitives (buildCipherNego supportsAes)).writer.cipherKind =
      .chaCha20Poly1305 := sent.cipher_eq.symm.trans (paired.cipher_eq.trans kind)
  rw [agreeCipher] at agreed
  split at agreed
  · exact nomatch agreed
  · split at agreed
    · rename_i ack_in_time
      split at agreed
      · exact nomatch agreed
      · rename_i ack after received
        have received_paired := sent.recvData
        rw [received] at received_paired ⊢
        split at agreed
        · rename_i finalCipher parsed
          have rekeyed := received_paired.rekey sent_kind finalCipher
          split at agreed
          · rw [Except.ok.injEq, Prod.mk.injEq] at agreed
            rcases agreed with ⟨rfl, rfl⟩
            exact ⟨rekeyed.1, ack_in_time, ack, rfl, parsed.trans (congrArg some rekeyed.2.symm)⟩
          · rename_i same
            rw [Except.ok.injEq, Prod.mk.injEq] at agreed
            rcases agreed with ⟨rfl, rfl⟩
            exact ⟨received_paired, ack_in_time, ack, rfl,
              parsed.trans (congrArg some (not_not.mp same))⟩
        · exact nomatch agreed
    · exact nomatch agreed

end Lockstep

/--
Whatever comes from the other end, and whatever becomes of what is sent: there is a tunnel
only after a frame with the time of the server came in time, which sets the offset, and its
two directions are under one cipher, each with the key of its own that is derived for this
cipher.  It is the one which the server has answered, or the one at the start if the server
offers no other, and then nothing was sent.
-/
theorem connect_paired (primitives : Primitives) (bytes masterKey : List UInt8)
    (transport : Transport) (padding : Bool) (scheme : List PadRange) (rng : Stream' Draw)
    (supportsAes : Bool) (inTime : InTime) (localTime : UInt64) (stored : Int64) :
    let reader := CryptoReader.new primitives bytes masterKey true
    let writer := CryptoWriter.new primitives transport masterKey true padding scheme rng
    let connected := connectUpstream primitives supportsAes inTime localTime stored reader writer
    let Synced := fun (agility : Bool) => inTime.sync = true ∧ ∃ data serverTime,
      (reader.recvData primitives).1 = .ok data ∧
        readTimeSync data = some (serverTime, agility) ∧
        connected.2 = setOffsetFromServerTime serverTime localTime stored
    match connected.1 with
    | .ok (newReader, newWriter) =>
        Paired primitives masterKey newReader newWriter ∧
          ((Synced false ∧ newReader = (reader.recvData primitives).2 ∧ newWriter = writer) ∨
            (Synced true ∧ inTime.ack = true ∧ ∃ ack,
              ((reader.recvData primitives).2.recvData primitives).1 = .ok ack ∧
                parseCipherAck ack = some newWriter.cipherKind))
    | .error _ => connected.2 = stored ∨ Synced true := by
  intro reader writer connected Synced
  have paired : Paired primitives masterKey reader writer :=
    Paired.new primitives bytes masterKey transport padding scheme rng
  have connected_eq : connected =
      connectUpstream primitives supportsAes inTime localTime stored reader writer := rfl
  rw [connectUpstream] at connected_eq
  split at connected_eq
  · rename_i sync
    split at connected_eq
    · rw [connected_eq]
      exact .inl rfl
    · rename_i data after received
      have after_paired := paired.recvData
      rw [received] at after_paired
      rw [processTimeSyncFrame] at connected_eq
      cases frame : readTimeSync data with
      | none =>
          simp only [frame] at connected_eq
          rw [connected_eq]
          exact .inl rfl
      | some content =>
          rcases content with ⟨serverTime, agility⟩
          simp only [frame] at connected_eq
          have synced : connected.2 = setOffsetFromServerTime serverTime localTime stored →
              Synced agility := fun offset =>
            ⟨sync, data, serverTime, congrArg Prod.fst received, frame, offset⟩
          cases agility with
          | false =>
              simp only at connected_eq
              have offset := synced (congrArg Prod.snd connected_eq)
              rw [connected_eq]
              exact ⟨after_paired, .inl ⟨offset, (congrArg Prod.snd received).symm, rfl⟩⟩
          | true =>
              simp only at connected_eq
              have offset := synced (congrArg Prod.snd connected_eq)
              rw [connected_eq]
              cases agreed : agreeCipher primitives supportsAes inTime after writer with
              | error message => exact .inr offset
              | ok tunnel =>
                  rcases agreeCipher_paired after_paired rfl agreed with ⟨both, ack⟩
                  refine ⟨both, .inr ⟨offset, ?_⟩⟩
                  rw [received]
                  exact ack
  · rw [connected_eq]
    exact .inl rfl

/-! ## With the other end -/

def syncFrame (agility : Bool) (time : UInt64) : List UInt8 :=
  [0x01, if agility then protoVerAgility else protoVerLegacy] ++ bigEndian 8 time.toNat

theorem readTimeSync_syncFrame (agility : Bool) (time : UInt64) :
    readTimeSync (syncFrame agility time) = some (time, agility) := by
  have decoded : UInt64.ofNat (ofBigEndian (bigEndian 8 time.toNat)) = time := by
    rw [ofBigEndian_bigEndian 8 time.toNat time.toNat_lt, UInt64.ofNat_toNat]
  cases agility with
  | false => simp [readTimeSync, syncFrame, protoVerLegacy, protoVerAgility, decoded]
  | true => simp [readTimeSync, syncFrame, protoVerLegacy, protoVerAgility, decoded]

/-- The server tells its time, answers with the cipher if it can change it, and sends data. -/
def serve (primitives : Primitives) (writer : CryptoWriter) (time : UInt64)
    (finalCipher : Option Cipher) (plaintexts : List (List UInt8)) : Sent :=
  let synced := (writer.sendData primitives (syncFrame finalCipher.isSome time)).writer
  match finalCipher with
  | none => synced.sendAll primitives plaintexts
  | some cipher =>
      let acked := (synced.sendData primitives (buildCipherAck cipher)).writer
      (acked.rekey primitives cipher).sendAll primitives plaintexts

/-- The server reads what the client supports, if it has offered to change the cipher. -/
def heed (primitives : Primitives) (serverAes agility : Bool) (reader : CryptoReader) :
    Option (Option Cipher × CryptoReader) :=
  if agility then
    match reader.recvData primitives with
    | (.ok frame, reader) => (parseCipherNego frame).map fun clientAes =>
        let cipher := negotiate clientAes serverAes
        (some cipher, reader.rekey primitives cipher)
    | (.error _, _) => none
  else some (none, reader)

section Ends

variable {primitives : Primitives} {reader : CryptoReader} {writer : CryptoWriter}
  {plaintext rest : List UInt8} {sent : Sent}

/-- What is short enough for every range of the scheme goes into one record. -/
theorem sendData_short (reliable : writer.writer.Reliable) (notEmpty : plaintext ≠ [])
    (wide : ∀ range ∈ writer.scheme, plaintext.length < range.lo) (short : plaintext.length ≤ 4096)
    (notExhausted : writer.nonce ≠ maxNonce) :
    (writer.sendData primitives plaintext).result = .ok () ∧
      ∃ record, (writer.sendData primitives plaintext).records = [record] := by
  have taken : (writer.fillBuffer plaintext).2 = plaintext.length := by
    simp only [CryptoWriter.fillBuffer]
    split
    · rename_i shaped
      have drawn := writer.rng.head.usize_mem (writer.scheme.get ⟨_, shaped.2⟩)
      have fits := wide _ (List.get_mem writer.scheme ⟨_, shaped.2⟩)
      dsimp only
      omega
    · have large : 4096 ≤ CryptoWriter.bucket writer.rng.head.f64 := by
        rw [CryptoWriter.bucket]
        split
        · decide
        · split <;> decide
      dsimp only
      omega
  have sealing : ∃ record counted, writer.countRecord.sealBuffer (writer.fillBuffer plaintext).1 =
      some (record, counted) ∧ counted.writer = writer.writer := by
    have fresh : writer.countRecord.nonce ≠ maxNonce := notExhausted
    rw [CryptoWriter.sealBuffer, if_neg fresh]
    exact ⟨_, _, rfl, rfl⟩
  rcases sealing with ⟨record, counted, sealing, same⟩
  have still : counted.writer.Reliable := same ▸ reliable
  rcases CryptoWriter.writeRecord_reliable primitives still record with ⟨written, after, _⟩
  have nothing_left (last : CryptoWriter) : last.sendLoop primitives [] = last.flush := by
    rw [CryptoWriter.sendLoop, if_pos rfl]
  have sent := (CryptoWriter.sendLoop_of_sealed notEmpty sealing _).2 (Prod.ext written rfl)
  rw [taken, List.drop_length, nothing_left] at sent
  rw [CryptoWriter.sendData, sent]
  refine ⟨?_, record, rfl⟩
  exact congrArg Prod.fst (after.writeAll []).1

/-- The reader at the other end gets what was sent in one record. -/
theorem recvData_sent (sends : Sends primitives writer plaintext sent)
    (succeeded : sent.result = .ok ()) {record : SealedRecord} (one : sent.records = [record])
    (linked : reader.session = writer.session)
    (input : reader.reader = sent.records.flatMap (SealedRecord.framed primitives) ++ rest) :
    ∃ after, reader.recvData primitives = (.ok plaintext, after) ∧
      after.session = sent.writer.session ∧ after.reader = rest := by
  have follows := sends.follows
  have session := sends.session_eq
  have content := sends.complete succeeded
  have isData := sends.isData
  rw [one] at follows session content isData input
  rw [← linked] at follows session
  rcases follows with ⟨⟨notExhausted, key_eq, nonce_eq, fits⟩, _⟩
  rw [List.flatMap_cons, List.flatMap_nil, List.append_nil] at input
  have received := CryptoReader.receive_framed input notExhausted key_eq nonce_eq fits
  rw [CryptoReader.processPlaintext_of_isData (isData record (List.mem_singleton_self record))]
    at received
  rw [List.flatMap_cons, List.flatMap_nil, List.append_nil] at content
  refine ⟨{ reader with reader := rest, nonce := reader.nonce + 1 }, ?_, session.symm, rfl⟩
  rw [CryptoReader.recvData, received, content]

/-- A frame of the start which the other end gets in one call -/
structure Crosses (primitives : Primitives) (writer : CryptoWriter) (plaintext frame : List UInt8)
    (sent : Sent) : Prop where
  succeeded : sent.result = .ok ()
  reliable : sent.writer.writer.Reliable
  scheme_eq : sent.writer.scheme = writer.scheme
  nonce_eq : sent.writer.nonce = writer.nonce + 1
  kind_eq : sent.writer.cipherKind = writer.cipherKind
  taken : sent.writer.writer.taken = writer.writer.taken ++ frame
  received : ∀ (reader : CryptoReader) (rest : List UInt8), reader.session = writer.session →
    reader.reader = frame ++ rest → ∃ after, reader.recvData primitives = (.ok plaintext, after) ∧
      after.session = sent.writer.session ∧ after.reader = rest

theorem sendData_crosses (reliable : writer.writer.Reliable) (notEmpty : plaintext ≠ [])
    (wide : ∀ range ∈ writer.scheme, plaintext.length < range.lo) (short : plaintext.length ≤ 4096)
    (notExhausted : writer.nonce ≠ maxNonce) :
    ∃ frame, Crosses primitives writer plaintext frame (writer.sendData primitives plaintext) := by
  rcases @sendData_short primitives writer plaintext reliable notEmpty wide short notExhausted with
    ⟨succeeded, record, one⟩
  have sends := writer.sends_sendData primitives plaintext
  have session := sends.session_eq
  rw [one] at session
  exact ⟨_, succeeded, sends.reliable reliable, sends.scheme_eq, congrArg Session.nonce session,
    congrArg Session.cipherKind session, sends.taken reliable, fun reader rest linked input =>
      recvData_sent sends succeeded one linked input⟩

/-- What is sent after the start comes to a reader in the same session. -/
theorem sendAll_crosses (reliable : writer.writer.Reliable) (plaintexts : List (List UInt8)) :
    let sent := writer.sendAll primitives plaintexts
    ∃ stream, sent.writer.writer.taken = writer.writer.taken ++ stream ∧
      (sent.result = .ok () → ∀ reader : CryptoReader, reader.session = writer.session →
        reader.reader = stream → ∃ after,
          CryptoReader.recvMany primitives sent.records.length reader =
            .ok (plaintexts.flatten, after) ∧ after.reader = []) := by
  intro sent
  have sends : Sends primitives writer plaintexts.flatten sent := writer.sends_sendAll plaintexts
  refine ⟨_, sends.taken reliable, fun succeeded reader linked input => ?_⟩
  have follows := sends.follows
  rw [← linked] at follows
  rcases CryptoReader.recvMany_records (input.trans (List.append_nil _).symm) follows sends.isData
    with ⟨after, received, rest_eq⟩
  rw [sends.complete succeeded] at received
  exact ⟨after, received, rest_eq⟩

theorem rekey_writer (writer : CryptoWriter) (cipher : Cipher) :
    (writer.rekey primitives cipher).writer = writer.writer := by
  rw [CryptoWriter.rekey]
  split <;> rfl

theorem rekey_reader (reader : CryptoReader) (cipher : Cipher) :
    (reader.rekey primitives cipher).reader = reader.reader := by
  rw [CryptoReader.rekey]
  split <;> rfl

/-- Not to change the cipher when it is the same is to change to it. -/
theorem agreeCipher_answered {supportsAes : Bool} {cipher : Cipher} {after : CryptoReader}
    (sent_ok : (writer.sendData primitives (buildCipherNego supportsAes)).result = .ok ())
    (received : reader.recvData primitives = (.ok (buildCipherAck cipher), after))
    (same : after.cipherKind =
      (writer.sendData primitives (buildCipherNego supportsAes)).writer.cipherKind) :
    agreeCipher primitives supportsAes ⟨true, true⟩ reader writer =
      .ok (after.rekey primitives cipher, (writer.sendData primitives
        (buildCipherNego supportsAes)).writer.rekey primitives cipher) := by
  simp only [agreeCipher, sent_ok, received, parseCipherAck_build, if_true]
  split
  · rfl
  · rename_i unchanged
    have sender := not_not.mp unchanged
    rw [CryptoReader.rekey, CryptoWriter.rekey, if_pos (.inl (sender.trans same.symm)),
      if_pos (.inl sender)]

theorem connectUpstream_synced {supportsAes agility : Bool} {after : CryptoReader}
    {serverTime : UInt64} (localTime : UInt64) (stored : Int64)
    (received : reader.recvData primitives = (.ok (syncFrame agility serverTime), after)) :
    connectUpstream primitives supportsAes ⟨true, true⟩ localTime stored reader writer =
      (if agility then agreeCipher primitives supportsAes ⟨true, true⟩ after writer
        else .ok (after, writer), setOffsetFromServerTime serverTime localTime stored) := by
  simp only [connectUpstream, received, processTimeSyncFrame, readTimeSync_syncFrame, if_true]
  cases agility <;> rfl

end Ends

/--
A client whose server keeps to the frames gets a tunnel, and sets its clock by the server.
If the server offers to change the cipher, both ends come to AES exactly if both have it,
and a server which reads what the client supports comes to the same cipher as the client.
What either end sends then comes to the other as it is.  The ranges of a scheme have to be
wider than the frames: a frame which is cut into two records is not understood.
-/
theorem session_round_trip (primitives : Primitives) (masterKey : List UInt8)
    (agility serverAes supportsAes serverPadding clientPadding : Bool)
    {serverScheme clientScheme : List PadRange} (serverWide : ∀ range ∈ serverScheme, 10 < range.lo)
    (clientWide : ∀ range ∈ clientScheme, 3 < range.lo) (serverRng clientRng : Stream' Draw)
    (serverTime localTime : UInt64) (stored : Int64) (down up : List (List UInt8)) :
    let finalCipher := if agility then some (negotiate supportsAes serverAes) else none
    let served := serve primitives
      (.new primitives .faultless masterKey false serverPadding serverScheme serverRng)
      serverTime finalCipher down
    let connected := connectUpstream primitives supportsAes ⟨true, true⟩ localTime stored
      (.new primitives served.writer.writer.taken masterKey true)
      (.new primitives .faultless masterKey true clientPadding clientScheme clientRng)
    connected.2 = setOffsetFromServerTime serverTime localTime stored ∧
      ∃ reader writer, connected.1 = .ok (reader, writer) ∧
        writer.cipherKind = finalCipher.getD .chaCha20Poly1305 ∧
        (served.result = .ok () → ∃ after,
          CryptoReader.recvMany primitives served.records.length reader =
            .ok (down.flatten, after) ∧ after.reader = []) ∧
        let sent := writer.sendAll primitives up
        ∃ serverReader, heed primitives serverAes agility
            (.new primitives sent.writer.writer.taken masterKey false) =
              some (finalCipher, serverReader) ∧
          (sent.result = .ok () → ∃ after,
            CryptoReader.recvMany primitives sent.records.length serverReader =
              .ok (up.flatten, after) ∧ after.reader = []) := by
  intro finalCipher served connected
  let start : CryptoWriter :=
    .new primitives .faultless masterKey false serverPadding serverScheme serverRng
  let client : CryptoWriter :=
    .new primitives .faultless masterKey true clientPadding clientScheme clientRng
  have frame_length (agility : Bool) : (syncFrame agility serverTime).length = 10 := by
    simp [syncFrame]
  have sync_crosses := @sendData_crosses primitives start _ (fun _ => rfl)
    (List.ne_nil_of_length_pos (by rw [frame_length finalCipher.isSome]; decide))
    (fun range range_mem => by rw [frame_length]; exact serverWide range range_mem)
    (by rw [frame_length]; decide) (show (0 : UInt64) ≠ maxNonce by decide)
  rcases sync_crosses with ⟨syncBytes, sync⟩
  let synced := (start.sendData primitives (syncFrame finalCipher.isSome serverTime)).writer
  have linked : (CryptoReader.new primitives served.writer.writer.taken masterKey true).session =
      start.session := CryptoReader.new_session _ _ _ _ false _ _ _
  cases agility with
  | false =>
      have served_eq : served = synced.sendAll primitives down := rfl
      rcases @sendAll_crosses primitives _ sync.reliable down with
        ⟨downBytes, downTaken, downReceived⟩
      have arrives : served.writer.writer.taken = syncBytes ++ downBytes := by
        rw [served_eq, downTaken, sync.taken]
        rfl
      rcases sync.received _ downBytes linked arrives with ⟨reader, received, session, rest⟩
      have connected_eq : connected = _ := connectUpstream_synced localTime stored received
      refine ⟨congrArg Prod.snd connected_eq, reader, client, congrArg Prod.fst connected_eq, rfl,
        fun succeeded => downReceived succeeded reader session rest, ?_⟩
      rcases @sendAll_crosses primitives client (fun _ => rfl) up with
        ⟨upBytes, upTaken, upReceived⟩
      refine ⟨_, rfl, fun succeeded => upReceived succeeded _
        (CryptoReader.new_session _ _ _ _ true _ _ _) upTaken⟩
  | true =>
      let cipher := negotiate supportsAes serverAes
      let acked := (synced.sendData primitives (buildCipherAck cipher)).writer
      have narrower : ∀ range ∈ synced.scheme, (buildCipherAck cipher).length < range.lo := by
        intro range range_mem
        rw [sync.scheme_eq] at range_mem
        exact Nat.lt_trans (show 2 < 10 by decide) (serverWide range range_mem)
      have second : (0 : UInt64) + 1 ≠ maxNonce := by decide
      rcases @sendData_crosses primitives synced (buildCipherAck cipher) sync.reliable
        (List.cons_ne_nil _ _) narrower (show 2 ≤ 4096 by decide) (sync.nonce_eq.trans_ne second)
        with ⟨ackBytes, ack⟩
      have served_eq : served = (acked.rekey primitives cipher).sendAll primitives down := rfl
      have acked_taken : acked.writer.taken = syncBytes ++ ackBytes :=
        ack.taken.trans (congrArg (· ++ ackBytes) sync.taken)
      rcases @sendAll_crosses primitives (acked.rekey primitives cipher)
        (by rw [rekey_writer]; exact ack.reliable) down with ⟨downBytes, downTaken, downReceived⟩
      have arrives : served.writer.writer.taken = syncBytes ++ (ackBytes ++ downBytes) := by
        rw [served_eq, downTaken, rekey_writer, acked_taken, List.append_assoc]
      rcases sync.received _ (ackBytes ++ downBytes) linked arrives with
        ⟨reader, received, session, rest⟩
      rcases ack.received reader downBytes session rest with
        ⟨ackReader, ackReceived, ackSession, ackRest⟩
      -- The client offers what it supports, and changes to the answer.
      rcases @sendData_crosses primitives client (buildCipherNego supportsAes) (fun _ => rfl)
        (List.cons_ne_nil _ _) clientWide (show 3 ≤ 4096 by decide)
        (show (0 : UInt64) ≠ maxNonce by decide) with
        ⟨negoBytes, nego⟩
      let offered := (client.sendData primitives (buildCipherNego supportsAes)).writer
      have reader_kind : ackReader.cipherKind = .chaCha20Poly1305 :=
        (congrArg Session.cipherKind ackSession).trans (ack.kind_eq.trans sync.kind_eq)
      have offered_kind : offered.cipherKind = .chaCha20Poly1305 := nego.kind_eq
      have connected_eq : connected = _ := connectUpstream_synced localTime stored received
      have agreed := agreeCipher_answered nego.succeeded ackReceived
        (reader_kind.trans offered_kind.symm)
      have changed : (ackReader.rekey primitives cipher).session =
          (acked.rekey primitives cipher).session := by
        rw [CryptoReader.rekey_session, CryptoWriter.rekey_session, ackSession]
      have final_kind : (offered.rekey primitives cipher).session.cipherKind = cipher := by
        rw [CryptoWriter.rekey_session]
        exact Session.rekey_cipherKind offered_kind cipher
      refine ⟨congrArg Prod.snd connected_eq, ackReader.rekey primitives cipher,
        offered.rekey primitives cipher, (congrArg Prod.fst connected_eq).trans agreed, final_kind,
        fun succeeded => downReceived succeeded _ changed ((rekey_reader _ _).trans ackRest), ?_⟩
      -- The server hears the offer, and changes too.
      rcases @sendAll_crosses primitives (offered.rekey primitives cipher)
        (by rw [rekey_writer]; exact nego.reliable) up with ⟨upBytes, upTaken, upReceived⟩
      have offered_taken : offered.writer.taken = negoBytes := nego.taken
      rw [rekey_writer, offered_taken] at upTaken
      rcases nego.received (.new primitives _ masterKey false) upBytes
        (CryptoReader.new_session _ _ _ _ true _ _ _) upTaken with
        ⟨hearer, heard, heardSession, heardRest⟩
      have heeded : (hearer.rekey primitives cipher).session =
          (offered.rekey primitives cipher).session := by
        rw [CryptoReader.rekey_session, CryptoWriter.rekey_session, heardSession]
      refine ⟨hearer.rekey primitives cipher, ?_, fun succeeded =>
        upReceived succeeded _ heeded ((rekey_reader _ _).trans heardRest)⟩
      simp only [heed, heard, parseCipherNego_build, if_true]
      rfl

/-- The schemes which come with the program are wide enough. -/
theorem session_round_trip_default :
    let served := serve .transparent
      (.new .transparent .faultless [] false true defaultPadScheme lowestDraws) 7
      (some .aes256Gcm) [[1, 2]]
    let connected := connectUpstream .transparent true ⟨true, true⟩ 5 0
      (.new .transparent served.writer.writer.taken [] true)
      (.new .transparent .faultless [] true true defaultPadScheme lowestDraws)
    ∃ reader writer, connected.1 = .ok (reader, writer) ∧ writer.cipherKind = .aes256Gcm := by
  have wide : ∀ range ∈ defaultPadScheme, 10 < range.lo := by decide
  have wide' : ∀ range ∈ defaultPadScheme, 3 < range.lo := by decide
  rcases session_round_trip .transparent [] true true true true true wide wide' lowestDraws
    lowestDraws 7 5 0 [[1, 2]] [] with ⟨_, reader, writer, connected, kind, _⟩
  exact ⟨reader, writer, connected, kind⟩

end Mirage.Crypto
