import Mirage.Crypto.KeySchedule

/-!
# What the sending calls do

`Sends` collects what one call leaves behind: records which follow the key
schedule, each carrying a piece of the data, and the bytes of the records on
the transport.  It is closed under doing one thing after another, so the loop
of `send_data` and a sequence of calls are both proved by composing rounds.
-/

namespace Mirage.Crypto

open Mirage.Foundations

namespace SealedRecord

/-- The record is data: content, the type `0x17`, and padding. -/
def IsData (record : SealedRecord) : Prop :=
  ∃ chunk zeros, record.buffer = chunk ++ 0x17 :: List.replicate zeros 0

def content (record : SealedRecord) : List UInt8 :=
  (record.buffer.rdropWhile (· == 0)).dropLast

theorem rdropWhile_padded (chunk : List UInt8) (zeros : ℕ) :
    (chunk ++ 0x17 :: List.replicate zeros 0).rdropWhile (· == 0) = chunk ++ [0x17] := by
  induction zeros with
  | zero => simp
  | succ zeros ih =>
      rw [List.replicate_succ', ← List.cons_append, ← List.append_assoc,
        List.rdropWhile_concat_pos _ _ _ (by rfl)]
      exact ih

theorem content_eq {record : SealedRecord} {chunk : List UInt8} {zeros : ℕ}
    (shape : record.buffer = chunk ++ 0x17 :: List.replicate zeros 0) :
    record.content = chunk := by
  rw [content, shape, rdropWhile_padded, List.dropLast_concat]

end SealedRecord

def Transport.Reliable (transport : Transport) : Prop :=
  ∀ call, transport.outcomes.get call = .done

theorem Transport.Reliable.writeAll {transport : Transport} (reliable : transport.Reliable)
    (bytes : List UInt8) :
    transport.writeAll bytes = (.ok (), ⟨transport.taken ++ bytes, transport.outcomes.tail⟩) ∧
      (transport.writeAll bytes).2.Reliable := by
  have first : transport.outcomes.head = .done := reliable 0
  have result : transport.writeAll bytes =
      (.ok (), ⟨transport.taken ++ bytes, transport.outcomes.tail⟩) := by
    simp only [Transport.writeAll, first]
  refine ⟨result, ?_⟩
  rw [result]
  exact fun call => reliable (call + 1)

def CryptoWriter.shapedLeft (writer : CryptoWriter) : ℕ :=
  writer.scheme.length - writer.recordsSent

/-- The records of a sending call follow the key schedule, and so does the writer. -/
structure Logs (primitives : Primitives) (writer : CryptoWriter) (sent : Sent) : Prop where
  follows : writer.session.Follows primitives (sent.records.map .sealedRecord)
  session_eq :
    sent.writer.session = writer.session.after primitives (sent.records.map .sealedRecord)

/-- What a sending call does with the data it is given. -/
structure Sends (primitives : Primitives) (writer : CryptoWriter) (plaintext : List UInt8)
    (sent : Sent) : Prop extends Logs primitives writer sent where
  isData : ∀ record ∈ sent.records, record.IsData
  started : sent.records.flatMap SealedRecord.content <+: plaintext
  complete : sent.result = .ok () → sent.records.flatMap SealedRecord.content = plaintext
  scheme_eq : sent.writer.scheme = writer.scheme
  /-- Every record takes data or uses up a range of the scheme. -/
  progress : writer.scheme.length ≤ u32Max → sent.records.length + sent.writer.shapedLeft ≤
    (sent.records.flatMap SealedRecord.content).length + writer.shapedLeft
  reliable : writer.writer.Reliable → sent.writer.writer.Reliable
  taken : writer.writer.Reliable → sent.writer.writer.taken =
    writer.writer.taken ++ sent.records.flatMap (SealedRecord.framed primitives)
  exhausted : writer.writer.Reliable → ∀ message, sent.result = .error message →
    message = nonceExhausted ∧ sent.writer.nonce = maxNonce

namespace Sends

variable {primitives : Primitives} {writer middle : CryptoWriter} {first second : List UInt8}
  {records : List SealedRecord} {later : Sent}

/-- A call which succeeded, and what is done after it. -/
theorem append (sends : Sends primitives writer first ⟨.ok (), records, middle⟩)
    (continues : Sends primitives middle second later) :
    Sends primitives writer (first ++ second)
      ⟨later.result, records ++ later.records, later.writer⟩ := by
  have middle_session := sends.session_eq
  have first_eq := sends.complete rfl
  simp only at middle_session first_eq
  refine ⟨⟨?_, ?_⟩, ?_, ?_, ?_, ?_, ?_, ?_, ?_, ?_⟩
  · rw [List.map_append, Session.follows_append, ← middle_session]
    exact ⟨sends.follows, continues.follows⟩
  · simp only [List.map_append, Session.after_append]
    rw [← middle_session]
    exact continues.session_eq
  · intro record record_mem
    rcases List.mem_append.mp record_mem with earlier | afterwards
    · exact sends.isData record earlier
    · exact continues.isData record afterwards
  · simp only [List.flatMap_append, first_eq]
    exact (List.prefix_append_right_inj first).mpr continues.started
  · intro succeeded
    simp only [List.flatMap_append, first_eq]
    rw [continues.complete succeeded]
  · exact continues.scheme_eq.trans sends.scheme_eq
  · intro scheme_le
    have first_progress := sends.progress scheme_le
    have second_progress := continues.progress (sends.scheme_eq ▸ scheme_le)
    simp only at first_progress
    simp only [List.length_append, List.flatMap_append]
    omega
  · intro reliable
    exact continues.reliable (sends.reliable reliable)
  · intro reliable
    have first_taken := sends.taken reliable
    simp only at first_taken
    simp only [List.flatMap_append]
    rw [continues.taken (sends.reliable reliable), first_taken, List.append_assoc]
  · intro reliable message failed
    exact continues.exhausted (sends.reliable reliable) message failed

/-- A call which failed, as a part of one with more data. -/
theorem weaken {message : String}
    (sends : Sends primitives writer first ⟨.error message, records, middle⟩)
    (part : first <+: second) :
    Sends primitives writer second ⟨.error message, records, middle⟩ := by
  refine ⟨sends.toLogs, sends.isData, sends.started.trans part, ?_, sends.scheme_eq,
    sends.progress, sends.reliable, sends.taken, sends.exhausted⟩
  intro succeeded
  simp at succeeded

/-- A call which seals nothing. -/
theorem of_unsealed {result : Except String Unit} (session_eq : middle.session = writer.session)
    (complete : result = .ok () → first = []) (scheme_eq : middle.scheme = writer.scheme)
    (counted : writer.scheme.length ≤ u32Max → middle.shapedLeft ≤ writer.shapedLeft)
    (reliable : writer.writer.Reliable → middle.writer.Reliable ∧
      middle.writer.taken = writer.writer.taken ∧
      ∀ message, result = .error message → message = nonceExhausted ∧ middle.nonce = maxNonce) :
    Sends primitives writer first ⟨result, [], middle⟩ := by
  refine ⟨⟨trivial, session_eq⟩, by simp, List.nil_prefix, ?_, scheme_eq, ?_, ?_, ?_, ?_⟩
  · intro succeeded
    exact (complete succeeded).symm
  · simpa using counted
  · exact fun isReliable => (reliable isReliable).1
  · intro isReliable
    rw [(reliable isReliable).2.1]
    simp
  · exact fun isReliable => (reliable isReliable).2.2

end Sends

namespace CryptoWriter

variable {primitives : Primitives} {writer : CryptoWriter}

theorem sealBuffer_eq_none {buffer : List UInt8} (exhausted : writer.sealBuffer buffer = none) :
    writer.nonce = maxNonce := by
  by_contra notExhausted
  simp [sealBuffer, notExhausted] at exhausted

/-- A filled buffer carries the bytes it took, and fits a record. -/
theorem fillBuffer_spec (writer : CryptoWriter) (remaining : List UInt8) :
    ∃ zeros, (writer.fillBuffer remaining).1 =
        remaining.take (writer.fillBuffer remaining).2 ++ 0x17 :: List.replicate zeros 0 ∧
      (writer.fillBuffer remaining).1.length ≤ maxRecordSize + 1 := by
  simp only [fillBuffer]
  split
  · rename_i shaped
    have drawn := writer.rng.head.usize_mem (writer.scheme.get ⟨_, shaped.2⟩)
    have hi_le := (writer.scheme.get ⟨_, shaped.2⟩).hi_le
    refine ⟨_, by rw [List.append_assoc]; rfl, ?_⟩
    simp only [List.length_append, List.length_take, List.length_cons, List.length_nil,
      List.length_replicate]
    omega
  · refine ⟨0, rfl, ?_⟩
    have bucket_le : bucket writer.rng.head.f64 ≤ maxRecordSize := by
      simp only [bucket, maxRecordSize]
      split
      · omega
      · split <;> omega
    simp only [List.length_append, List.length_take, List.length_cons, List.length_nil]
    omega

/-- A round takes data or uses up a range of the scheme. -/
theorem fillBuffer_progress {remaining : List UInt8} (notEmpty : remaining ≠ [])
    (scheme_le : writer.scheme.length ≤ u32Max) :
    1 + writer.countRecord.shapedLeft ≤
      (remaining.take (writer.fillBuffer remaining).2).length + writer.shapedLeft := by
  have positive : 0 < remaining.length := List.length_pos_iff.mpr notEmpty
  simp only [fillBuffer, shapedLeft, countRecord, List.length_take]
  split
  · rename_i shaped
    have in_scheme := shaped.2
    simp only
    generalize u32Max = limit at *
    omega
  · have bucket_pos : 0 < bucket writer.rng.head.f64 := by
      simp only [bucket]
      split
      · omega
      · split <;> omega
    simp only
    omega

/-- Writing a record which was sealed changes the transport only. -/
theorem writeRecord_eq (primitives : Primitives) (writer : CryptoWriter) (record : SealedRecord) :
    ∃ transport, (writer.writeRecord primitives record).2 =
      { writer with writer := transport } := by
  simp only [writeRecord]
  split <;> exact ⟨_, rfl⟩

theorem writeRecord_reliable (primitives : Primitives) (reliable : writer.writer.Reliable)
    (record : SealedRecord) :
    (writer.writeRecord primitives record).1 = .ok () ∧
      (writer.writeRecord primitives record).2.writer.Reliable ∧
      (writer.writeRecord primitives record).2.writer.taken =
        writer.writer.taken ++ record.framed primitives := by
  rcases reliable.writeAll (record.header primitives) with ⟨header_eq, after_header⟩
  rw [header_eq] at after_header
  rcases after_header.writeAll (record.body primitives) with ⟨body_eq, after_body⟩
  rw [body_eq] at after_body
  simp only [writeRecord, header_eq, body_eq]
  refine ⟨trivial, after_body, ?_⟩
  simp [SealedRecord.framed]

/-- Sealing a buffer and writing it, in whatever way the writing ends. -/
theorem logs_sealed (primitives : Primitives) {after : CryptoWriter} {buffer : List UInt8}
    {record : SealedRecord} (done : writer.sealBuffer buffer = some (record, after))
    (fits : buffer.length ≤ maxRecordSize + 1) (result : Except String Unit) :
    Logs primitives writer ⟨result, [record], (after.writeRecord primitives record).2⟩ := by
  rcases sealBuffer_eq_some done with ⟨notExhausted, rfl, rfl⟩
  constructor
  · exact ⟨⟨notExhausted, rfl, rfl, fits⟩, trivial⟩
  · simp only
    rcases writeRecord_eq primitives _ _ with ⟨transport, written_eq⟩
    rw [written_eq]
    rfl

theorem sends_round (primitives : Primitives) {after : CryptoWriter} {remaining : List UInt8}
    {record : SealedRecord} (notEmpty : remaining ≠ [])
    (done : writer.countRecord.sealBuffer (writer.fillBuffer remaining).1 =
      some (record, after)) :
    Sends primitives writer (remaining.take (writer.fillBuffer remaining).2)
      ⟨(after.writeRecord primitives record).1, [record],
        (after.writeRecord primitives record).2⟩ := by
  rcases writer.fillBuffer_spec remaining with ⟨zeros, shape, fits⟩
  have logs := logs_sealed primitives done fits
    (after.writeRecord primitives record).1
  rcases sealBuffer_eq_some done with ⟨_, record_eq, after_eq⟩
  have buffer_eq : record.buffer = (writer.fillBuffer remaining).1 := by rw [record_eq]
  rw [← buffer_eq] at shape
  have content := SealedRecord.content_eq shape
  have transport_eq : after.writer = writer.writer := by rw [after_eq]; rfl
  have written : writer.writer.Reliable → _ := fun reliable =>
    writeRecord_reliable primitives (transport_eq ▸ reliable) record
  have fixed : (after.writeRecord primitives record).2.scheme = writer.scheme ∧
      (after.writeRecord primitives record).2.shapedLeft = writer.countRecord.shapedLeft := by
    rcases writeRecord_eq primitives after record with ⟨transport, written_eq⟩
    rw [written_eq, after_eq]
    exact ⟨rfl, rfl⟩
  refine ⟨⟨logs.follows, logs.session_eq⟩, ?_, ?_, ?_, ?_, ?_, ?_, ?_, ?_⟩
  · intro other record_mem
    rw [List.mem_singleton.mp record_mem]
    exact ⟨_, zeros, shape⟩
  · simp only [List.flatMap_cons, List.flatMap_nil, List.append_nil]
    rw [content]
  · intro _
    simp only [List.flatMap_cons, List.flatMap_nil, List.append_nil]
    exact content
  · exact fixed.1
  · intro scheme_le
    simp only [List.flatMap_cons, List.flatMap_nil, List.append_nil, content, fixed.2]
    exact fillBuffer_progress notEmpty scheme_le
  · exact fun reliable => (written reliable).2.1
  · intro reliable
    simp only [List.flatMap_cons, List.flatMap_nil, List.append_nil]
    rw [(written reliable).2.2, transport_eq]
  · intro reliable message failed
    rw [(written reliable).1] at failed
    simp at failed

theorem sends_flush (writer : CryptoWriter) : Sends primitives writer [] writer.flush := by
  apply Sends.of_unsealed
  · rfl
  · exact fun _ => rfl
  · rfl
  · exact fun _ => le_rfl
  · intro reliable
    rcases reliable.writeAll [] with ⟨flush_eq, afterwards⟩
    refine ⟨afterwards, ?_, ?_⟩
    · change (writer.writer.writeAll []).2.taken = _
      rw [flush_eq, List.append_nil]
    · intro message failed
      change (writer.writer.writeAll []).1 = _ at failed
      rw [flush_eq] at failed
      simp at failed

theorem sendLoop_of_exhausted {primitives : Primitives} {writer : CryptoWriter}
    {remaining : List UInt8} (notEmpty : remaining ≠ [])
    (exhausted : writer.countRecord.sealBuffer (writer.fillBuffer remaining).1 = none) :
    writer.sendLoop primitives remaining = ⟨.error nonceExhausted, [], writer.countRecord⟩ := by
  rw [sendLoop, if_neg notEmpty]
  split
  rename_i filled
  rw [filled] at exhausted
  split
  · rfl
  · simp_all

/-- A turn which seals a record ends with a failure to write it, and goes on otherwise. -/
theorem sendLoop_of_sealed {primitives : Primitives} {writer counted : CryptoWriter}
    {remaining : List UInt8} {record : SealedRecord} (notEmpty : remaining ≠ [])
    (sealing : writer.countRecord.sealBuffer (writer.fillBuffer remaining).1 =
      some (record, counted)) (written : CryptoWriter) :
    (∀ message, counted.writeRecord primitives record = (.error message, written) →
      writer.sendLoop primitives remaining = ⟨.error message, [record], written⟩) ∧
    (counted.writeRecord primitives record = (.ok (), written) →
      writer.sendLoop primitives remaining =
        (let later := written.sendLoop primitives (remaining.drop (writer.fillBuffer remaining).2)
         ⟨later.result, record :: later.records, later.writer⟩)) := by
  rw [sendLoop, if_neg notEmpty]
  split
  rename_i filled
  rw [filled] at sealing
  split
  · simp_all
  · rename_i sealing_eq
    rw [sealing] at sealing_eq
    cases sealing_eq
    split
    · simp_all
    · simp_all

/-- `send_data` sends what it is given, or fails with the transport or for want of nonces. -/
theorem sends_sendData (primitives : Primitives) (writer : CryptoWriter) (plaintext : List UInt8) :
    Sends primitives writer plaintext (writer.sendData primitives plaintext) := by
  rw [sendData]
  induction writer, plaintext using sendLoop.induct primitives with
  | case1 writer =>
      rw [sendLoop, if_pos rfl]
      exact writer.sends_flush
  | case2 writer remaining notEmpty buffer take filled exhausted =>
      rw [sendLoop_of_exhausted notEmpty (by rw [filled]; exact exhausted)]
      apply Sends.of_unsealed
      · rfl
      · intro succeeded
        simp at succeeded
      · rfl
      · intro scheme_le
        simp only [shapedLeft, countRecord]
        generalize u32Max = limit at *
        omega
      · intro reliable
        refine ⟨reliable, rfl, ?_⟩
        intro message failed
        exact ⟨(Except.error.inj failed).symm, sealBuffer_eq_none exhausted⟩
  | case3 writer remaining notEmpty buffer take filled record counted sealing message written
      writing =>
      have buffer_eq : (writer.fillBuffer remaining).1 = buffer := by rw [filled]
      rw [← buffer_eq] at sealing
      have round := sends_round primitives notEmpty sealing
      rw [writing] at round
      rw [(sendLoop_of_sealed notEmpty sealing _).1 _ writing]
      exact round.weaken (List.take_prefix _ _)
  | case4 writer remaining notEmpty buffer take filled record counted sealing written writing ih =>
      have buffer_eq : (writer.fillBuffer remaining).1 = buffer := by rw [filled]
      have take_eq : (writer.fillBuffer remaining).2 = take := by rw [filled]
      rw [← buffer_eq] at sealing
      rw [← take_eq] at ih
      have round := sends_round primitives notEmpty sealing
      rw [writing] at round
      have whole := round.append ih
      rw [List.take_append_drop] at whole
      rw [(sendLoop_of_sealed notEmpty sealing _).2 writing]
      exact whole

/-- `send_close_notify` logs at most its own record. -/
theorem logs_sendCloseNotify (writer : CryptoWriter) :
    Logs primitives writer (writer.sendCloseNotify primitives) := by
  simp only [sendCloseNotify]
  split
  · exact ⟨trivial, rfl⟩
  · rename_i record counted sealing
    have logs := logs_sealed primitives sealing (by decide) (.ok ())
    split
    · rename_i message written writing
      rw [writing] at logs
      exact ⟨logs.follows, logs.session_eq⟩
    · rename_i written writing
      rw [writing] at logs
      exact ⟨logs.follows, logs.session_eq⟩

end CryptoWriter

end Mirage.Crypto
