import Mathlib.Data.List.Nodup
import Mirage.Crypto.Receiving
import Mirage.Foundations.Run

/-!
# Nonces of a writer, and the reader in step with it

A run of a writer is logged: the records it seals, delivered or not, and its
calls of `rekey`.  The log follows the key schedule, so no key is used twice
with one nonce, and a reader which is given the records of an initial part of
the log, and is rekeyed where the writer was, is in the session in which the
next record was sealed.
-/

namespace Mirage.Crypto

open Mirage.Foundations

variable {primitives : Primitives}

inductive WriterCall where
  | sendData (plaintext : List UInt8)
  | sendCloseNotify
  | rekey (cipher : Cipher)

structure WriterRun where
  writer : CryptoWriter
  log : List LogEntry

namespace WriterRun

def record (state : WriterRun) (sent : Sent) : WriterRun :=
  ⟨sent.writer, state.log ++ sent.records.map .sealedRecord⟩

def step (primitives : Primitives) (state : WriterRun) : WriterCall → WriterRun
  | .sendData plaintext => state.record (state.writer.sendData primitives plaintext)
  | .sendCloseNotify => state.record (state.writer.sendCloseNotify primitives)
  | .rekey cipher =>
      ⟨state.writer.rekey primitives cipher, state.log ++ [.rekeyed cipher]⟩

/-- The log is what the schedule prescribes since `start`, and the writer is where it leads. -/
structure FollowsFrom (primitives : Primitives) (start : Session) (state : WriterRun) : Prop where
  follows : start.Follows primitives state.log
  session_eq : state.writer.session = start.after primitives state.log

namespace FollowsFrom

variable {start : Session} {state : WriterRun}

theorem record (followed : FollowsFrom primitives start state) {sent : Sent}
    (logs : Logs primitives state.writer sent) :
    FollowsFrom primitives start (state.record sent) := by
  have follows := logs.follows
  have session_eq := logs.session_eq
  rw [followed.session_eq] at follows session_eq
  constructor
  · exact Session.follows_append.mpr ⟨followed.follows, follows⟩
  · simp only [WriterRun.record, Session.after_append]
    exact session_eq

theorem step (followed : FollowsFrom primitives start state) (call : WriterCall) :
    FollowsFrom primitives start (state.step primitives call) := by
  cases call with
  | sendData plaintext =>
      exact followed.record (state.writer.sends_sendData primitives plaintext).toLogs
  | sendCloseNotify => exact followed.record state.writer.logs_sendCloseNotify
  | rekey cipher =>
      constructor
      · exact Session.follows_append.mpr ⟨followed.follows, trivial⟩
      · simp only [WriterRun.step, CryptoWriter.rekey_session, Session.after_append,
          followed.session_eq]
        rfl

end FollowsFrom

end WriterRun

def wireBytes (primitives : Primitives) (log : List LogEntry) : List UInt8 :=
  (sealedRecords log).flatMap (SealedRecord.framed primitives)

/-- The reader receives the records of a log, and is rekeyed where the writer was. -/
def CryptoReader.replay (primitives : Primitives) (reader : CryptoReader) :
    LogEntry → CryptoReader
  | .sealedRecord _ => (reader.receive primitives).2
  | .rekeyed cipher => reader.rekey primitives cipher

theorem CryptoReader.rekey_reader (reader : CryptoReader) (cipher : Cipher) :
    (reader.rekey primitives cipher).reader = reader.reader := by
  simp only [rekey]
  split <;> rfl

/-- A reader in the session where a log starts ends in the session where it ends. -/
theorem CryptoReader.replay_session {reader : CryptoReader} {log : List LogEntry}
    {rest : List UInt8} (input : reader.reader = wireBytes primitives log ++ rest)
    (follows : reader.session.Follows primitives log) :
    (run (replay primitives) reader log).session = reader.session.after primitives log ∧
      (run (replay primitives) reader log).reader = rest := by
  induction log generalizing reader with
  | nil => exact ⟨rfl, input⟩
  | cons entry log ih =>
      cases entry with
      | rekeyed cipher =>
          rw [run_cons, Session.after_cons]
          have next_session := rekey_session primitives reader cipher
          have next_input : (reader.rekey primitives cipher).reader =
              wireBytes primitives log ++ rest := by
            rw [rekey_reader, input]
            rfl
          rcases ih next_input (by rw [next_session]; exact follows) with ⟨session_eq, rest_eq⟩
          rw [next_session] at session_eq
          exact ⟨session_eq, rest_eq⟩
      | sealedRecord record =>
          rcases follows with ⟨⟨notExhausted, key_eq, nonce_eq, fits⟩, follows⟩
          have here : reader.reader =
              record.framed primitives ++ (wireBytes primitives log ++ rest) := by
            rw [input, ← List.append_assoc]
            rfl
          have received := receive_framed here notExhausted key_eq nonce_eq fits
          rw [run_cons, Session.after_cons, replay, received]
          exact ih rfl follows

/-- What separates the elements of a list is separated by anything finer. -/
theorem nodup_map_of_finer {Element Coarse Fine : Type} {elements : List Element}
    {coarse : Element → Coarse} {fine : Element → Fine} (nodup : (elements.map coarse).Nodup)
    (finer : ∀ first ∈ elements, ∀ second ∈ elements, fine first = fine second →
      coarse first = coarse second) : (elements.map fine).Nodup := by
  apply List.Nodup.map_on _ (List.Nodup.of_map coarse nodup)
  intro first first_mem second second_mem same
  exact List.inj_on_of_nodup_map nodup first_mem second_mem
    (finer first first_mem second second_mem same)

/--
Over every run of a new writer, faults of its transport included, no key is
used twice with one nonce, not even its bytes if the two ciphers derive
different ones; and after any part of the records arrived intact, the reader
is in the session in which the next record was sealed, and opens it.
-/
theorem nonce_unique_and_lock_step (primitives : Primitives) (transport : Transport)
    (masterKey : List UInt8) (isInitiator padding : Bool) (scheme : List PadRange)
    (rng : Stream' Draw) (calls : List WriterCall) :
    let writer := CryptoWriter.new primitives transport masterKey isInitiator padding scheme rng
    let log := (run (WriterRun.step primitives) ⟨writer, []⟩ calls).log
    ((sealedRecords log).map fun record => (record.key, formatNonce record.nonce)).Nodup ∧
      (primitives.expand masterKey (writer.info ++ Cipher.chaCha20Poly1305.hkdfSuffix) ≠
          primitives.expand masterKey (writer.info ++ Cipher.aes256Gcm.hkdfSuffix) →
        ((sealedRecords log).map fun record =>
          (record.key.bytes, formatNonce record.nonce)).Nodup) ∧
      ∀ delivered record later rest, log = delivered ++ .sealedRecord record :: later →
        let reader := run (CryptoReader.replay primitives)
          (CryptoReader.new primitives
            (wireBytes primitives delivered ++ (record.framed primitives ++ rest))
            masterKey (!isInitiator))
          delivered
        reader.cipher = record.key ∧ reader.nonce = record.nonce ∧
          primitives.aead.openInPlace reader.cipher (formatNonce reader.nonce)
            (record.body primitives) = some record.buffer ∧
          (reader.receive primitives).2.reader = rest := by
  intro writer log
  have keyed : writer.session.Keyed primitives := rfl
  have followed : WriterRun.FollowsFrom primitives writer.session
      (run (WriterRun.step primitives) ⟨writer, []⟩ calls) :=
    run_invariant calls (fun call followed => followed.step call) ⟨trivial, rfl⟩
  have follows : writer.session.Follows primitives log := followed.follows
  have pairs_nodup := follows.pairs_nodup keyed
  refine ⟨?_, ?_, ?_⟩
  · apply nodup_map_of_finer pairs_nodup
    intro first _ second _ same
    rcases Prod.mk.inj same with ⟨same_key, same_nonce⟩
    rw [same_key, formatNonce_inj same_nonce]
  · intro separated
    apply nodup_map_of_finer pairs_nodup
    intro first first_mem second second_mem same
    rcases Prod.mk.inj same with ⟨same_bytes, same_nonce⟩
    -- Keys with the same bytes are derived for the same cipher, so they are the same key.
    have first_derived := follows.key_derived keyed first_mem
    have second_derived := follows.key_derived keyed second_mem
    rw [first_derived, second_derived] at same_bytes
    have same_algorithm : first.key.algorithm = second.key.algorithm := by
      cases first_kind : first.key.algorithm <;> cases second_kind : second.key.algorithm
      · rfl
      · rw [first_kind, second_kind] at same_bytes
        exact absurd same_bytes separated
      · rw [first_kind, second_kind] at same_bytes
        exact absurd same_bytes.symm separated
      · rfl
    rw [formatNonce_inj same_nonce, first_derived, second_derived, same_algorithm]
  · intro delivered record later rest log_eq reader
    rw [log_eq, Session.follows_append] at follows
    rcases follows with ⟨delivered_follows, ⟨notExhausted, key_eq, nonce_eq, fits⟩, _⟩
    have new_session : (CryptoReader.new primitives
        (wireBytes primitives delivered ++ (record.framed primitives ++ rest))
        masterKey (!isInitiator)).session = writer.session :=
      CryptoReader.new_session ..
    rcases CryptoReader.replay_session rfl (new_session ▸ delivered_follows) with
      ⟨session_eq, reader_eq⟩
    rw [new_session] at session_eq
    have cipher_eq : record.key = reader.cipher :=
      key_eq.trans (congrArg Session.cipher session_eq).symm
    have counter_eq : record.nonce = reader.nonce :=
      nonce_eq.trans (congrArg Session.nonce session_eq).symm
    refine ⟨cipher_eq.symm, counter_eq.symm, ?_, ?_⟩
    · rw [← cipher_eq, ← counter_eq]
      exact primitives.aead.open_seal _ _ _
    · have ready : reader.nonce ≠ maxNonce := by
        rw [← counter_eq, nonce_eq]
        exact notExhausted
      rw [CryptoReader.receive_framed reader_eq ready cipher_eq counter_eq fits]

end Mirage.Crypto
