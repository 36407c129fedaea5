import Mirage.Crypto.Aead

/-!
# The key schedule of one direction

Writer and reader of one direction keep the same data about their keys, a
`Session`.  What a writer does is logged as the records it seals and the calls
of `rekey`; `Follows` says that a log is what the schedule prescribes from a
session on.  The writer produces such logs, the reader is driven by them, and
no key and nonce are used twice in them.
-/

namespace Mirage.Crypto

open Mirage.Foundations

/-- The keying state of one direction. -/
@[ext]
structure Session where
  cipher : LessSafeKey
  nonce : UInt64
  master : List UInt8
  cipherKind : Cipher
  info : String
  deriving DecidableEq

/-- A record which was sealed, or a call of `rekey`. -/
inductive LogEntry where
  | sealedRecord (record : SealedRecord)
  | rekeyed (cipher : Cipher)
  deriving DecidableEq

def sealedRecords (log : List LogEntry) : List SealedRecord :=
  log.filterMap fun
    | .sealedRecord record => some record
    | .rekeyed _ => none

@[simp]
theorem sealedRecords_nil : sealedRecords [] = [] :=
  rfl

@[simp]
theorem sealedRecords_record (record : SealedRecord) (log : List LogEntry) :
    sealedRecords (.sealedRecord record :: log) = record :: sealedRecords log :=
  rfl

@[simp]
theorem sealedRecords_rekeyed (cipher : Cipher) (log : List LogEntry) :
    sealedRecords (.rekeyed cipher :: log) = sealedRecords log :=
  rfl

@[simp]
theorem sealedRecords_append (first second : List LogEntry) :
    sealedRecords (first ++ second) = sealedRecords first ++ sealedRecords second := by
  simp [sealedRecords]

@[simp]
theorem sealedRecords_map (records : List SealedRecord) :
    sealedRecords (records.map .sealedRecord) = records := by
  induction records with
  | nil => rfl
  | cons record records ih => simp [ih]

namespace Session

variable (primitives : Primitives)

def rekey (session : Session) (cipher : Cipher) : Session :=
  if cipher = session.cipherKind ∨ cipher = .chaCha20Poly1305 then session
  else
    { session with
      cipher := expandKey primitives session.master session.info cipher
      cipherKind := cipher
      nonce := 0 }

def next (session : Session) : LogEntry → Session
  | .sealedRecord _ => { session with nonce := session.nonce + 1 }
  | .rekeyed cipher => session.rekey primitives cipher

def after (session : Session) (log : List LogEntry) : Session :=
  log.foldl (next primitives) session

/-- The log is one which the key schedule prescribes from the session on. -/
def Follows : Session → List LogEntry → Prop
  | _, [] => True
  | session, .sealedRecord record :: log =>
      (session.nonce ≠ maxNonce ∧ record.key = session.cipher ∧ record.nonce = session.nonce ∧
          record.buffer.length ≤ maxRecordSize + 1) ∧
        Follows (session.next primitives (.sealedRecord record)) log
  | session, .rekeyed cipher :: log => Follows (session.rekey primitives cipher) log

/-- The key in use is the one derived for the cipher in use. -/
def Keyed (session : Session) : Prop :=
  session.cipher = expandKey primitives session.master session.info session.cipherKind

def bootstrap (master : List UInt8) (info : String) : Session where
  cipher := expandKey primitives master info .chaCha20Poly1305
  nonce := 0
  master := master
  cipherKind := .chaCha20Poly1305
  info := info

variable {primitives} {session : Session}

@[simp]
theorem after_nil : session.after primitives [] = session :=
  rfl

@[simp]
theorem after_cons (entry : LogEntry) (log : List LogEntry) :
    session.after primitives (entry :: log) =
      (session.next primitives entry).after primitives log :=
  rfl

@[simp]
theorem after_append (first second : List LogEntry) :
    session.after primitives (first ++ second) =
      (session.after primitives first).after primitives second := by
  simp [after]

theorem follows_append {first second : List LogEntry} :
    session.Follows primitives (first ++ second) ↔
      session.Follows primitives first ∧
        (session.after primitives first).Follows primitives second := by
  induction first generalizing session with
  | nil => simp [Follows]
  | cons entry first ih =>
      cases entry with
      | sealedRecord record => simp [Follows, ih, and_assoc]
      | rekeyed cipher => simp [Follows, ih, next]

theorem Keyed.bootstrap (master : List UInt8) (info : String) :
    (Session.bootstrap primitives master info).Keyed primitives :=
  rfl

theorem Keyed.algorithm (keyed : session.Keyed primitives) :
    session.cipher.algorithm = session.cipherKind :=
  congrArg LessSafeKey.algorithm keyed

theorem Keyed.next (keyed : session.Keyed primitives) (entry : LogEntry) :
    (session.next primitives entry).Keyed primitives := by
  cases entry with
  | sealedRecord record => exact keyed
  | rekeyed cipher =>
      simp only [Session.next, rekey]
      split
      · exact keyed
      · rfl

/-- The only change of key the schedule knows is the one away from the bootstrap cipher. -/
theorem rekey_cases (primitives : Primitives) (session : Session) (cipher : Cipher) :
    session.rekey primitives cipher = session ∨
      session.cipherKind = .chaCha20Poly1305 ∧
        (session.rekey primitives cipher).cipherKind = .aes256Gcm := by
  simp only [rekey]
  split
  · exact .inl rfl
  · rename_i accepted
    right
    rcases hkind : session.cipherKind <;> cases cipher <;> simp_all

/--
Under a log which follows the schedule, a record is sealed under the current
key with a nonce not used yet, or under the key of the second cipher.
-/
theorem Follows.later_record {log : List LogEntry} (follows : session.Follows primitives log)
    (keyed : session.Keyed primitives) {record : SealedRecord}
    (record_mem : record ∈ sealedRecords log) :
    record.key = session.cipher ∧ session.nonce ≤ record.nonce ∨
      session.cipherKind = .chaCha20Poly1305 ∧ record.key.algorithm = .aes256Gcm := by
  induction log generalizing session with
  | nil => simp at record_mem
  | cons entry log ih =>
      cases entry with
      | sealedRecord first =>
          rcases follows with ⟨⟨notExhausted, key_eq, nonce_eq, _⟩, follows⟩
          rw [sealedRecords_record, List.mem_cons] at record_mem
          rcases record_mem with rfl | record_mem
          · left
            exact ⟨key_eq, UInt64.le_iff_toNat_le.mpr (by rw [nonce_eq])⟩
          · rcases ih follows (keyed.next _) record_mem with ⟨same_key, later⟩ | second
            · left
              refine ⟨same_key, ?_⟩
              have next_toNat := CryptoWriter.toNat_succ notExhausted
              change session.nonce + 1 ≤ record.nonce at later
              rw [UInt64.le_iff_toNat_le] at later ⊢
              omega
            · exact .inr second
      | rekeyed cipher =>
          have next_keyed := keyed.next (.rekeyed cipher)
          rcases rekey_cases primitives session cipher with same | changed
          · simp only [Follows, same] at follows
            exact ih follows keyed record_mem
          · right
            refine ⟨changed.1, ?_⟩
            rcases ih follows next_keyed record_mem with ⟨same_key, _⟩ | second
            · rw [same_key]
              exact next_keyed.algorithm.trans changed.2
            · rw [changed.2] at second
              simp at second

theorem Follows.after_nonce {records : List SealedRecord}
    (follows : session.Follows primitives (records.map .sealedRecord)) :
    (session.after primitives (records.map .sealedRecord)).nonce.toNat =
      session.nonce.toNat + records.length := by
  induction records generalizing session with
  | nil => rfl
  | cons record records ih =>
      rcases follows with ⟨⟨notExhausted, _⟩, follows⟩
      have next_toNat := CryptoWriter.toNat_succ notExhausted
      have later := ih follows
      change _ = (session.nonce + 1).toNat + records.length at later
      rw [List.map_cons, after_cons, later, List.length_cons, next_toNat]
      omega

theorem after_records_cipher (records : List SealedRecord) :
    (session.after primitives (records.map .sealedRecord)).cipher = session.cipher := by
  induction records generalizing session with
  | nil => rfl
  | cons record records ih => exact ih

theorem Follows.record_nonce {records : List SealedRecord}
    (follows : session.Follows primitives (records.map .sealedRecord)) {record : SealedRecord}
    (record_mem : record ∈ records) :
    session.nonce.toNat ≤ record.nonce.toNat ∧
      record.nonce.toNat < session.nonce.toNat + records.length := by
  induction records generalizing session with
  | nil => simp at record_mem
  | cons first records ih =>
      rcases follows with ⟨⟨notExhausted, _, nonce_eq, _⟩, follows⟩
      have next_toNat := CryptoWriter.toNat_succ notExhausted
      rcases List.mem_cons.mp record_mem with rfl | record_mem
      · rw [nonce_eq, List.length_cons]
        omega
      · have later := ih follows record_mem
        change (session.nonce + 1).toNat ≤ _ ∧ _ < (session.nonce + 1).toNat + _ at later
        rw [next_toNat] at later
        rw [List.length_cons]
        omega

/-- No key and counter are used for two records. -/
theorem Follows.pairs_nodup {log : List LogEntry} (follows : session.Follows primitives log)
    (keyed : session.Keyed primitives) :
    ((sealedRecords log).map fun record => (record.key, record.nonce)).Nodup := by
  induction log generalizing session with
  | nil => simp
  | cons entry log ih =>
      cases entry with
      | rekeyed cipher => exact ih follows (keyed.next (.rekeyed cipher))
      | sealedRecord first =>
          rcases follows with ⟨⟨notExhausted, key_eq, nonce_eq, _⟩, follows⟩
          rw [sealedRecords_record, List.map_cons, List.nodup_cons]
          refine ⟨?_, ih follows (keyed.next _)⟩
          intro pair_mem
          rcases List.mem_map.mp pair_mem with ⟨record, record_mem, same_pair⟩
          rcases Prod.mk.inj same_pair with ⟨same_key, same_nonce⟩
          rcases follows.later_record (keyed.next _) record_mem with ⟨_, later⟩ | second
          · -- A later record under the same key has a greater counter.
            have next_toNat := CryptoWriter.toNat_succ notExhausted
            change session.nonce + 1 ≤ record.nonce at later
            rw [same_nonce, nonce_eq, UInt64.le_iff_toNat_le] at later
            omega
          · -- A record of the second cipher has another key.
            have algorithm_eq := second.2
            rw [same_key, key_eq, keyed.algorithm] at algorithm_eq
            change session.cipherKind = .chaCha20Poly1305 ∧ _ at second
            rw [second.1] at algorithm_eq
            simp at algorithm_eq

theorem next_master (primitives : Primitives) (session : Session) (entry : LogEntry) :
    (session.next primitives entry).master = session.master ∧
      (session.next primitives entry).info = session.info := by
  cases entry with
  | sealedRecord record => exact ⟨rfl, rfl⟩
  | rekeyed cipher =>
      simp only [next, rekey]
      split <;> exact ⟨rfl, rfl⟩

/-- Every key of a log is derived from the master key for one of the ciphers. -/
theorem Follows.key_derived {log : List LogEntry} (follows : session.Follows primitives log)
    (keyed : session.Keyed primitives) {record : SealedRecord}
    (record_mem : record ∈ sealedRecords log) :
    record.key = expandKey primitives session.master session.info record.key.algorithm := by
  induction log generalizing session with
  | nil => simp at record_mem
  | cons entry log ih =>
      have fixed := next_master primitives session entry
      have later : record ∈ sealedRecords log →
          (session.next primitives entry).Follows primitives log →
          record.key = expandKey primitives session.master session.info record.key.algorithm := by
        intro record_mem follows
        have derived := ih follows (keyed.next entry) record_mem
        rwa [fixed.1, fixed.2] at derived
      cases entry with
      | rekeyed cipher => exact later record_mem follows
      | sealedRecord first =>
          rcases follows with ⟨⟨_, key_eq, _, _⟩, follows⟩
          rw [sealedRecords_record, List.mem_cons] at record_mem
          rcases record_mem with rfl | record_mem
          · rw [key_eq, keyed.algorithm]
            exact keyed
          · exact later record_mem follows

end Session

def CryptoWriter.session (writer : CryptoWriter) : Session where
  cipher := writer.cipher
  nonce := writer.nonce
  master := writer.master
  cipherKind := writer.cipherKind
  info := writer.info

def CryptoReader.session (reader : CryptoReader) : Session where
  cipher := reader.cipher
  nonce := reader.nonce
  master := reader.master
  cipherKind := reader.cipherKind
  info := reader.info

@[simp]
theorem CryptoWriter.rekey_session (primitives : Primitives) (writer : CryptoWriter)
    (cipher : Cipher) :
    (writer.rekey primitives cipher).session = writer.session.rekey primitives cipher := by
  simp only [CryptoWriter.rekey, Session.rekey]
  split <;> simp_all [CryptoWriter.session, CryptoWriter.info]

@[simp]
theorem CryptoReader.rekey_session (primitives : Primitives) (reader : CryptoReader)
    (cipher : Cipher) :
    (reader.rekey primitives cipher).session = reader.session.rekey primitives cipher := by
  simp only [CryptoReader.rekey, Session.rekey]
  split <;> simp_all [CryptoReader.session, CryptoReader.info]

/-- A new reader is in the session of the new writer at the other end. -/
theorem CryptoReader.new_session (primitives : Primitives) (bytes : List UInt8)
    (transport : Transport) (masterKey : List UInt8) (isInitiator padding : Bool)
    (scheme : List PadRange) (rng : Stream' Draw) :
    (CryptoReader.new primitives bytes masterKey (!isInitiator)).session =
      (CryptoWriter.new primitives transport masterKey isInitiator padding scheme rng).session := by
  simp only [CryptoReader.new, CryptoWriter.new, CryptoReader.session, CryptoWriter.session,
    CryptoReader.info, CryptoWriter.info]
  cases isInitiator <;> rfl

end Mirage.Crypto
