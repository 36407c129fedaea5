import Mirage.Crypto.Receiving

/-!
# The round trip of a stream

The reader which opens the records of a sequence of `send_data` calls in order
gets the data back, whatever the random generator and the padding scheme do to
the cuts between records.
-/

namespace Mirage.Crypto

open Mirage.Foundations

variable {primitives : Primitives}

/-- A sequence of `send_data` calls, up to the first which fails. -/
def CryptoWriter.sendAll (primitives : Primitives) (writer : CryptoWriter) :
    List (List UInt8) → Sent
  | [] => ⟨.ok (), [], writer⟩
  | plaintext :: plaintexts =>
      match writer.sendData primitives plaintext with
      | ⟨.error message, records, middle⟩ => ⟨.error message, records, middle⟩
      | ⟨.ok (), records, middle⟩ =>
          let later := middle.sendAll primitives plaintexts
          ⟨later.result, records ++ later.records, later.writer⟩

/-- Receive a number of records, and concatenate what `recv_data` returns. -/
def CryptoReader.recvMany (primitives : Primitives) :
    ℕ → CryptoReader → Except String (List UInt8 × CryptoReader)
  | 0, reader => .ok ([], reader)
  | count + 1, reader =>
      match reader.recvData primitives with
      | (.error message, _) => .error message
      | (.ok content, reader) =>
          (recvMany primitives count reader).map fun (contents, reader) =>
            (content ++ contents, reader)

theorem CryptoWriter.sends_sendAll (writer : CryptoWriter) (plaintexts : List (List UInt8)) :
    Sends primitives writer plaintexts.flatten (writer.sendAll primitives plaintexts) := by
  induction plaintexts generalizing writer with
  | nil =>
      exact Sends.of_unsealed rfl (fun _ => rfl) rfl (fun _ => le_rfl)
        (fun reliable => ⟨reliable, by simp, by simp⟩)
  | cons plaintext plaintexts ih =>
      have sends := writer.sends_sendData primitives plaintext
      simp only [sendAll, List.flatten_cons]
      split
      · rename_i message records middle failed
        rw [failed] at sends
        exact sends.weaken (List.prefix_append _ _)
      · rename_i records middle succeeded
        rw [succeeded] at sends
        exact sends.append (ih middle)

/-- A reader in the session in which data records were sealed gets their contents. -/
theorem CryptoReader.recvMany_records {reader : CryptoReader} {records : List SealedRecord}
    {rest : List UInt8}
    (input : reader.reader = records.flatMap (SealedRecord.framed primitives) ++ rest)
    (follows : reader.session.Follows primitives (records.map .sealedRecord))
    (isData : ∀ record ∈ records, record.IsData) :
    ∃ after, CryptoReader.recvMany primitives records.length reader =
      .ok (records.flatMap SealedRecord.content, after) ∧ after.reader = rest := by
  induction records generalizing reader with
  | nil => exact ⟨reader, rfl, input⟩
  | cons record records ih =>
      rcases follows with ⟨⟨notExhausted, key_eq, nonce_eq, fits⟩, follows⟩
      rw [List.flatMap_cons, List.append_assoc] at input
      have received := receive_framed input notExhausted key_eq nonce_eq fits
      rw [processPlaintext_of_isData (isData record List.mem_cons_self)] at received
      rcases @ih { reader with reader := _, nonce := reader.nonce + 1 } rfl follows
        fun record record_mem => isData record (List.mem_cons_of_mem _ record_mem)
        with ⟨after, contents, rest_eq⟩
      refine ⟨after, ?_, rest_eq⟩
      simp only [List.length_cons, recvMany, recvData, received, contents]
      rfl

theorem Session.Follows.fits {session : Session} {records : List SealedRecord}
    (follows : session.Follows primitives (records.map .sealedRecord)) :
    ∀ record ∈ records, record.buffer.length ≤ maxRecordSize + 1 := by
  induction records generalizing session with
  | nil => simp
  | cons record records ih =>
      rcases follows with ⟨⟨_, _, _, fits⟩, follows⟩
      exact List.forall_mem_cons.mpr ⟨fits, ih follows⟩

def Transport.faultless : Transport where
  taken := []
  outcomes := Stream'.const .done

/--
The reader gets back what was sent, and accepts the length field of every
record.  A call fails only when all nonces are used up, after which the reader
has a prefix of the data; that takes `2 ^ 64 - 1` bytes and shaped records.
-/
theorem stream_round_trip (primitives : Primitives) (masterKey : List UInt8)
    (isInitiator padding : Bool) {schemeText : String} {scheme : List PadRange}
    (accepted : parsePaddingScheme schemeText = some scheme) (rng : Stream' Draw)
    (plaintexts : List (List UInt8)) :
    let writer := CryptoWriter.new primitives .faultless masterKey isInitiator padding
      (setPaddingScheme scheme) rng
    let sent := writer.sendAll primitives plaintexts
    let reader := CryptoReader.new primitives sent.writer.writer.taken masterKey (!isInitiator)
    (∀ record ∈ sent.records,
        ofBigEndian ((record.header primitives).drop 3) ≤ maxRecordSize + 1 + tagSize) ∧
      ∃ contents after,
        CryptoReader.recvMany primitives sent.records.length reader = .ok (contents, after) ∧
        after.reader = [] ∧
        (sent.result = .ok () → contents = plaintexts.flatten) ∧
        (∀ message, sent.result = .error message →
          message = nonceExhausted ∧ sent.writer.nonce = maxNonce ∧
            contents <+: plaintexts.flatten) ∧
        (scheme.length ≤ u32Max → plaintexts.flatten.length + scheme.length < u64Max →
          sent.result = .ok ()) := by
  intro writer sent reader
  have sends : Sends primitives writer plaintexts.flatten sent := writer.sends_sendAll plaintexts
  have reliable : writer.writer.Reliable := fun _ => rfl
  have input : reader.reader = sent.records.flatMap (SealedRecord.framed primitives) ++ [] := by
    rw [List.append_nil]
    exact sends.taken reliable
  have same_session : reader.session = writer.session := CryptoReader.new_session ..
  have follows : reader.session.Follows primitives (sent.records.map .sealedRecord) := by
    rw [same_session]
    exact sends.follows
  refine ⟨?_, ?_⟩
  · intro record record_mem
    have fits := follows.fits record record_mem
    rw [SealedRecord.header_field primitives fits]
    exact SealedRecord.body_length_le primitives fits
  · rcases CryptoReader.recvMany_records input follows sends.isData with ⟨after, received, rest_eq⟩
    refine ⟨_, after, received, rest_eq, sends.complete, ?_, ?_⟩
    · intro message failed
      rcases sends.exhausted reliable message failed with ⟨message_eq, nonce_eq⟩
      exact ⟨message_eq, nonce_eq, sends.started⟩
    · intro scheme_le small
      cases result_eq : sent.result with
      | ok _ => rfl
      | error message =>
          -- All nonces were used, so there are more records than bytes and ranges.
          exfalso
          have final := congrArg (fun session => session.nonce.toNat) sends.session_eq
          have scheme_eq := setPaddingScheme_of_accepted accepted
          have progress := sends.progress (by
            change (setPaddingScheme scheme).length ≤ u32Max
            rwa [scheme_eq])
          have started := sends.started.length_le
          have shaped : writer.shapedLeft ≤ scheme.length := by
            simp only [writer, CryptoWriter.shapedLeft, CryptoWriter.new, scheme_eq]
            omega
          simp only [sends.follows.after_nonce] at final
          change sent.writer.nonce.toNat = 0 + sent.records.length at final
          rw [(sends.exhausted reliable message result_eq).2] at final
          change u64Max = _ at final
          omega

def lowestDraws : Stream' Draw :=
  Stream'.const
    { usize := PadRange.lo
      usize_mem := fun range => ⟨le_rfl, range.lo_le_hi⟩
      f64 := 0 }

/-- Data with trailing zeros, cut by a scheme whose second record takes no data. -/
theorem stream_round_trip_shaped :
    let writer := CryptoWriter.new .transparent .faultless [] true true
      (setPaddingScheme [⟨2, 3, by decide, by decide, by decide⟩,
        ⟨1, 1, by decide, by decide, by decide⟩]) lowestDraws
    let sent := writer.sendAll .transparent [[7, 0], [0, 0]]
    ∃ contents after,
      CryptoReader.recvMany .transparent sent.records.length
          (CryptoReader.new .transparent sent.writer.writer.taken [] false) =
        .ok (contents, after) ∧
      contents = [7, 0, 0, 0] := by
  intro writer sent
  rcases stream_round_trip .transparent [] true true (show parsePaddingScheme "2-3;1-1" =
      some [⟨2, 3, by decide, by decide, by decide⟩, ⟨1, 1, by decide, by decide, by decide⟩]
      by rfl) lowestDraws [[7, 0], [0, 0]] with
    ⟨_, contents, after, received, _, complete, _, succeeds⟩
  exact ⟨contents, after, received, complete (succeeds (by decide) (by decide))⟩

end Mirage.Crypto
