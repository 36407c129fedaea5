import Mirage.Tun.Download

/-!
# What the download loop writes

A call which is dropped while it reads loses bytes of the tunnel stream, but
not its place among the records: whatever opens next under the reader's counter
is the next record, or the loop ends.  A call which is dropped while it writes
loses content.  `Running` is the invariant of the first kind of run.
-/

namespace Mirage.Tun

open Mirage.Foundations Mirage.Crypto

namespace Download

variable {primitives : Primitives} {adaptiveTimeout : Bool → ℕ} {session : Session}
  {records : List SealedRecord}

/--
The records up to the reader's counter are opened, all but `pending` of their
content is written, and the bytes in hand and to come end the record stream.
-/
structure Running (primitives : Primitives) (session : Session) (records : List SealedRecord)
    (tunReader : CryptoReader) (written got pending : List UInt8) : Prop where
  opened_records : ∃ opened later, records = opened ++ later ∧
    tunReader.session = session.after primitives (opened.map .sealedRecord) ∧
    ∀ more, plainStream (opened ++ more) = written ++ pending ++ plainStream more
  window : ∃ before after, records.flatMap (SealedRecord.framed primitives) =
    before ++ (got ++ tunReader.reader) ++ after

/-- What has been written is a prefix of the plaintext, and more while the loop runs. -/
def Intact (primitives : Primitives) (session : Session) (records : List SealedRecord)
    (download : Download) : Prop :=
  match download.phase with
  | .header got => Running primitives session records download.tunReader download.written got []
  | .body _ got => Running primitives session records download.tunReader download.written got []
  | .writing rest _ =>
      Running primitives session records download.tunReader download.written [] rest
  | .ended => download.written <+: plainStream records

variable {download : Download} {tunReader : CryptoReader} {written got pending : List UInt8}

theorem Running.written_prefix
    (running : Running primitives session records tunReader written got pending) :
    written <+: plainStream records := by
  rcases running.opened_records with ⟨opened, later, rfl, _, delivered⟩
  rw [delivered later, List.append_assoc]
  exact List.prefix_append _ _

theorem Intact.written_prefix (intact : download.Intact primitives session records) :
    download.written <+: plainStream records := by
  unfold Intact at intact
  split at intact
  · exact intact.written_prefix
  · exact intact.written_prefix
  · exact intact.written_prefix
  · exact intact

/-- Dropping a call which was reading loses the bytes it had, and nothing else. -/
theorem Running.drop_got (running : Running primitives session records tunReader written got []) :
    Running primitives session records tunReader written [] [] := by
  refine ⟨running.opened_records, ?_⟩
  rcases running.window with ⟨before, after, stream_eq⟩
  refine ⟨before ++ got, after, ?_⟩
  simpa using stream_eq

/-- Bytes which are taken from the transport are in hand. -/
theorem Running.take (running : Running primitives session records tunReader written got [])
    (count : ℕ) :
    Running primitives session records
      { tunReader with reader := tunReader.reader.drop count } written
      (got ++ tunReader.reader.take count) [] := by
  refine ⟨running.opened_records, ?_⟩
  rcases running.window with ⟨before, after, stream_eq⟩
  refine ⟨before, after, ?_⟩
  simpa using stream_eq

/-- Whatever opens under the reader's counter is the next record. -/
theorem Running.next_record
    (running : Running primitives session records tunReader written got [])
    (follows : session.Follows primitives (records.map .sealedRecord))
    (authentic : Authentic primitives session.cipher records) {plaintext : List UInt8}
    (opens : primitives.aead.openInPlace tunReader.cipher
      (formatNonce tunReader.nonce) got = some plaintext) :
    ∃ opened record later, records = opened ++ record :: later ∧ record.buffer = plaintext ∧
      tunReader.session = session.after primitives (opened.map .sealedRecord) ∧
      ∀ more, plainStream (opened ++ more) = written ++ plainStream more := by
  rcases running.opened_records with ⟨opened, later, rfl, session_eq, delivered⟩
  rcases running.window with ⟨before, after, stream_eq⟩
  have cipher_eq : tunReader.cipher = session.cipher := by
    have final := congrArg Session.cipher session_eq
    rwa [Session.after_records_cipher] at final
  rw [List.map_append, Session.follows_append] at follows
  rcases follows with ⟨opened_follows, later_follows⟩
  rw [← session_eq] at later_follows
  have counter_eq := congrArg (fun session => session.nonce.toNat) session_eq
  simp only [opened_follows.after_nonce] at counter_eq
  rw [cipher_eq] at opens
  have infix_stream : got <:+: (opened ++ later).flatMap (SealedRecord.framed primitives) := by
    refine ⟨before, tunReader.reader ++ after, ?_⟩
    rw [stream_eq]
    simp
  rcases authentic _ got plaintext infix_stream opens with
    ⟨record, record_mem, nonce_eq, buffer_eq⟩
  have record_counter := congrArg UInt64.toNat nonce_eq
  change tunReader.nonce.toNat = _ at counter_eq
  rcases List.mem_append.mp record_mem with earlier | upcoming
  · have bounds := opened_follows.record_nonce earlier
    omega
  · cases later with
    | nil => simp at upcoming
    | cons next later =>
        rcases List.mem_cons.mp upcoming with rfl | after_next
        · refine ⟨opened, record, later, rfl, buffer_eq, session_eq, ?_⟩
          simpa using delivered
        · rcases later_follows with ⟨⟨notExhausted, _, _, _⟩, rest_follows⟩
          have next_toNat := CryptoWriter.toNat_succ notExhausted
          have bounds := rest_follows.record_nonce after_next
          change (tunReader.nonce + 1).toNat ≤ _ ∧ _ at bounds
          change (tunReader.nonce + 1).toNat = tunReader.nonce.toNat + 1
            at next_toNat
          omega

section Steps

variable (follows : session.Follows primitives (records.map .sealedRecord))
  (authentic : Authentic primitives session.cipher records)

include follows authentic

/-- Opening a body gives the next content, or ends the loop. -/
theorem Running.bodyRead
    (running : Running primitives session records download.tunReader
      download.written got []) :
    (download.bodyRead primitives adaptiveTimeout got).Intact primitives session records := by
  have stopped : ∀ tunReader, Intact primitives session records
      { download with tunReader, phase := .ended } := fun _ => running.written_prefix
  simp only [Download.bodyRead, CryptoReader.openBody]
  split
  · rename_i content tunReader opened_eq
    split at opened_eq
    · simp at opened_eq
    · split at opened_eq
      · simp at opened_eq
      · rename_i plaintext opens
        rcases running.next_record follows authentic opens with
          ⟨opened, record, later, rfl, rfl, session_eq, delivered⟩
        cases processed : CryptoReader.processPlaintextMobile record.buffer with
        | error message => simp [processed, Except.map] at opened_eq
        | ok length =>
            cases length with
            | none => simp [processed, Except.map] at opened_eq
            | some length =>
                simp only [processed, Except.map, Option.map_some, Prod.mk.injEq,
                  Except.ok.injEq, Option.some.injEq] at opened_eq
                rcases opened_eq with ⟨rfl, rfl⟩
                have writing : Running primitives session (opened ++ record :: later)
                    { download.tunReader with nonce := download.tunReader.nonce + 1 }
                    download.written [] (record.buffer.take length) := by
                  refine ⟨⟨opened ++ [record], later, by simp, ?_, ?_⟩, running.drop_got.window⟩
                  · rw [List.map_append, Session.after_append, ← session_eq]
                    rfl
                  · intro more
                    rw [List.append_assoc, delivered]
                    simp [plainStream, processed]
                split
                · rename_i empty
                  rw [empty] at writing
                  exact writing
                · exact writing
  · exact stopped _

theorem Running.headerRead
    (running : Running primitives session records download.tunReader
      download.written got []) :
    (download.headerRead primitives adaptiveTimeout got).Intact primitives session records := by
  simp only [Download.headerRead]
  split
  · exact running.written_prefix
  · split
    · exact running.drop_got.bodyRead follows authentic
    · exact running.drop_got

/-- A step which does not cut a record keeps what is written intact. -/
theorem Intact.step (intact : download.Intact primitives session records) {event : DownloadEvent}
    (whole : ¬download.CutsRecord event) :
    (download.step primitives adaptiveTimeout event).Intact primitives session records := by
  have ended : Intact primitives session records { download with phase := .ended } :=
    intact.written_prefix
  cases event with
  | read count =>
      simp only [Download.step]
      unfold Intact at intact
      split
      · rename_i got phase_eq
        rw [phase_eq] at intact
        split
        · exact intact.take _
        · exact (intact.take _).headerRead follows authentic
      · rename_i len got phase_eq
        rw [phase_eq] at intact
        split
        · exact intact.take _
        · exact (intact.take _).bodyRead follows authentic
      · exact intact
  | readFailed =>
      simp only [Download.step]
      split
      · exact ended
      · exact ended
      · exact intact
  | accept count =>
      simp only [Download.step]
      split
      · rename_i rest total phase_eq
        unfold Intact at intact
        rw [phase_eq] at intact
        have written : Running primitives session records download.tunReader
            (download.written ++ rest.take count) [] (rest.drop count) := by
          refine ⟨?_, intact.window⟩
          simpa using intact.opened_records
        split
        · rename_i finished
          rw [finished] at written
          exact written
        · exact written
      · exact intact
  | writeFailed =>
      simp only [Download.step]
      split
      · exact ended
      · exact intact
  | uploadActive => exact intact
  | tick milliseconds => exact intact
  | timeout =>
      simp only [Download.step]
      split
      · exact intact
      · rename_i fires
        split
        · rename_i active
          unfold Intact at intact
          split at intact
          · exact intact.drop_got
          · exact intact.drop_got
          · rename_i rest total phase_eq
            exfalso
            apply whole
            exact ⟨rfl, by omega, active, by simp [phase_eq, DownloadPhase.isWriting]⟩
          · rename_i phase_eq
            exact absurd (.inl phase_eq) fires
        · exact ended
  | stop => exact ended

end Steps

/--
The local stream gets a prefix of the plaintext in every run in which no call
is dropped while it writes a record and followed by another round.
-/
theorem written_prefix_of_whole_records (primitives : Primitives) (adaptiveTimeout : Bool → ℕ)
    {records : List SealedRecord} {tunReader : CryptoReader}
    (stream : tunReader.reader <+: records.flatMap (SealedRecord.framed primitives))
    (follows : tunReader.session.Follows primitives (records.map .sealedRecord))
    (authentic : Authentic primitives tunReader.cipher records) (clock lastActive : ℕ)
    {events : List DownloadEvent}
    (whole : Along (step primitives adaptiveTimeout)
      (fun download event => ¬download.CutsRecord event)
      (start adaptiveTimeout tunReader clock lastActive) events) :
    (run (step primitives adaptiveTimeout) (start adaptiveTimeout tunReader clock lastActive)
      events).written <+: plainStream records := by
  have initially : (start adaptiveTimeout tunReader clock lastActive).Intact primitives
      tunReader.session records := by
    rcases stream with ⟨after, stream_eq⟩
    exact ⟨⟨[], records, rfl, rfl, fun more => rfl⟩, [], after, stream_eq.symm⟩
  have intact := run_invariant_along
    (fun whole intact => intact.step follows authentic whole) whole initially
  exact intact.written_prefix

/-- Three records of one byte, sealed by a server under its first counters. -/
def serverRecords : List SealedRecord :=
  let key := expandKey .transparent [] "s2c" .chaCha20Poly1305
  [⟨key, 0, [65, 0x17]⟩, ⟨key, 1, [66, 0x17]⟩, ⟨key, 2, [67, 0x17]⟩]

def serverStream : List UInt8 :=
  serverRecords.flatMap (SealedRecord.framed .transparent)

/-- The windows of the stream which end in a tag that names their length. -/
theorem marked_windows : ∀ start < 70, ∀ len < 70,
    let window := (serverStream.drop start).take len
    (window.drop (window.length - tagSize)).take 4 =
        [0xFF, 0xFF, 0xFF, UInt8.ofNat (window.take (window.length - tagSize)).length] →
      ∃ record ∈ serverRecords, window = record.body .transparent := by
  decide +kernel

theorem authentic_serverRecords :
    Authentic .transparent (expandKey .transparent [] "s2c" .chaCha20Poly1305) serverRecords := by
  intro counter window plaintext infix_stream opens
  rcases infix_stream with ⟨before, after, stream_eq⟩
  change before ++ window ++ after = serverStream at stream_eq
  have total : serverStream.length = 69 := by decide
  have lengths := congrArg List.length stream_eq
  simp only [List.length_append] at lengths
  have window_eq : (serverStream.drop before.length).take window.length = window := by
    rw [← stream_eq, List.append_assoc, List.drop_left, List.take_left]
  simp only [Primitives.transparent, Aead.transparent] at opens
  split at opens
  · rename_i tagged
    simp only [Option.some.injEq] at opens
    have marked := marked_windows before.length (by omega) window.length (by omega)
    rw [window_eq] at marked
    rcases marked (by rw [tagged]; rfl) with ⟨record, record_mem, body_eq⟩
    have split_body : ∀ tail : List UInt8, tail.length = tagSize →
        (record.buffer ++ tail).take ((record.buffer ++ tail).length - tagSize) = record.buffer ∧
          (record.buffer ++ tail).drop ((record.buffer ++ tail).length - tagSize) = tail := by
      intro tail tail_length
      simp [tail_length]
    change window = record.buffer ++
      Aead.visibleTag tagSize (formatNonce record.nonce) record.buffer at body_eq
    rcases split_body _ (Aead.visibleTag_length _ _ _) with ⟨text_eq, tag_eq⟩
    rw [← body_eq] at text_eq tag_eq
    have nonces := congrArg (List.drop 4) (tag_eq.symm.trans tagged)
    change (Aead.visibleTag (4 + nonceSize) _ _).drop 4 =
      (Aead.visibleTag (4 + nonceSize) _ _).drop 4 at nonces
    rw [Aead.visibleTag_nonce (formatNonce_length _),
      Aead.visibleTag_nonce (formatNonce_length _)] at nonces
    exact ⟨record, record_mem, formatNonce_inj nonces, text_eq.symm.trans opens⟩
  · simp at opens

/-- The client's end of the connection. -/
def clientReader : CryptoReader :=
  .new .transparent serverStream [] true

theorem follows_serverRecords :
    clientReader.session.Follows .transparent (serverRecords.map .sealedRecord) := by
  simp only [serverRecords, List.map_cons, List.map_nil, Session.Follows, and_true]
  decide

/-- The idle timeouts of an ordinary connection, in seconds. -/
def generalTimeout : Bool → ℕ
  | true => 30
  | false => 15

/-- The local stream takes the first record and then nothing, while the upload goes on. -/
def stalledEvents : List DownloadEvent :=
  [.read 5, .read 18, .accept 1, .read 5, .read 18, .tick 29000, .uploadActive, .tick 1000,
    .timeout, .read 5, .read 18, .accept 1]

theorem not_written_prefix_stalled :
    clientReader.reader <+: serverRecords.flatMap (SealedRecord.framed .transparent) ∧
      clientReader.session.Follows .transparent (serverRecords.map .sealedRecord) ∧
      Authentic .transparent clientReader.cipher serverRecords ∧
      ¬(run (step .transparent generalTimeout) (start generalTimeout clientReader 0 0)
        stalledEvents).written <+: plainStream serverRecords := by
  exact ⟨List.prefix_rfl, follows_serverRecords, authentic_serverRecords, by decide⟩

/-- A timeout in the middle of a header ends the connection, after a prefix. -/
theorem written_prefix_cut_header :
    (run (step .transparent generalTimeout) (start generalTimeout clientReader 0 0)
      [.read 5, .read 18, .accept 1, .read 2, .tick 29000, .uploadActive, .tick 1000, .timeout,
        .read 5]).written <+: plainStream serverRecords :=
  written_prefix_of_whole_records .transparent generalTimeout List.prefix_rfl
    follows_serverRecords authentic_serverRecords 0 0 (by decide)

end Download

end Mirage.Tun
