import Mathlib.Data.List.Forall2
import Mirage.Foundations.Buffers
import Mirage.Foundations.Run

/-!
# Frames of a stream

A frame parser looks at what has arrived and returns the first frame and its
size, or nothing while the frame is not complete.  A reader keeps what it could
not parse for the next chunk; it finds the same frames however the stream is cut
into chunks.
-/

namespace Mirage.Foundations

universe u v

structure FrameParser (Element : Type u) (Frame : Type v) where
  first : List Element → Option (Frame × ℕ)
  size_pos : ∀ {buffer frame size}, first buffer = some (frame, size) → 0 < size
  size_le : ∀ {buffer frame size}, first buffer = some (frame, size) → size ≤ buffer.length
  /-- A complete frame stays the same when more arrives. -/
  stable : ∀ {buffer frame size}, first buffer = some (frame, size) → ∀ more,
    first (buffer ++ more) = some (frame, size)

namespace FrameParser

variable {Element : Type u} {Frame : Type v} (parser : FrameParser Element Frame)

/-- The complete frames of a buffer, and what is left of it. -/
def drain (buffer : List Element) : List Frame × List Element :=
  match _ : parser.first buffer with
  | none => ([], buffer)
  | some (frame, size) =>
      let (frames, rest) := drain (buffer.drop size)
      (frame :: frames, rest)
  termination_by buffer.length
  decreasing_by
    have positive := parser.size_pos ‹parser.first buffer = _›
    have inside := parser.size_le ‹parser.first buffer = _›
    rw [List.length_drop]
    omega

variable {parser} {buffer : List Element} {frame : Frame} {size : ℕ}

theorem drain_of_none (incomplete : parser.first buffer = none) :
    parser.drain buffer = ([], buffer) := by
  rw [drain]
  split
  · rfl
  · rename_i complete
    rw [incomplete] at complete
    cases complete

theorem drain_of_some (complete : parser.first buffer = some (frame, size)) :
    parser.drain buffer =
      (frame :: (parser.drain (buffer.drop size)).1, (parser.drain (buffer.drop size)).2) := by
  rw [drain]
  split
  · rename_i incomplete
    rw [incomplete] at complete
    cases complete
  · rename_i other other_size found
    rw [complete, Option.some.injEq, Prod.mk.injEq] at found
    rcases found with ⟨rfl, rfl⟩
    rfl

/-- The frames of a buffer, one after the other. -/
theorem drain_induction (parser : FrameParser Element Frame) {motive : List Element → Prop}
    (incomplete : ∀ buffer, parser.first buffer = none → motive buffer)
    (complete : ∀ buffer frame size, parser.first buffer = some (frame, size) →
      motive (buffer.drop size) → motive buffer) (buffer : List Element) : motive buffer := by
  induction length_eq : buffer.length using Nat.strongRecOn generalizing buffer with
  | _ length ih =>
      cases first_eq : parser.first buffer with
      | none => exact incomplete buffer first_eq
      | some found =>
          rcases found with ⟨frame, size⟩
          have positive := parser.size_pos first_eq
          have inside := parser.size_le first_eq
          apply complete buffer frame size first_eq
          apply ih (buffer.drop size).length _ _ rfl
          rw [List.length_drop]
          omega

/-- What is left has no complete frame. -/
theorem first_drain (parser : FrameParser Element Frame) (buffer : List Element) :
    parser.first (parser.drain buffer).2 = none := by
  induction buffer using parser.drain_induction with
  | incomplete buffer none =>
      rw [drain_of_none none]
      exact none
  | complete buffer frame size found ih =>
      rw [drain_of_some found]
      exact ih

theorem drain_append (parser : FrameParser Element Frame) (buffer more : List Element) :
    parser.drain (buffer ++ more) =
      ((parser.drain buffer).1 ++ (parser.drain ((parser.drain buffer).2 ++ more)).1,
        (parser.drain ((parser.drain buffer).2 ++ more)).2) := by
  induction buffer using parser.drain_induction with
  | incomplete buffer none =>
      rw [drain_of_none none]
      rfl
  | complete buffer frame size found ih =>
      rw [drain_of_some found, drain_of_some (parser.stable found more),
        List.drop_append_of_le_length (parser.size_le found), ih]
      rfl

/-- A reader drains its buffer after each chunk. -/
def feed (parser : FrameParser Element Frame) (reader : List Frame × List Element)
    (chunk : List Element) : List Frame × List Element :=
  (reader.1 ++ (parser.drain (reader.2 ++ chunk)).1, (parser.drain (reader.2 ++ chunk)).2)

/-- The chunks make no difference. -/
theorem run_feed {buffer : List Element} (incomplete : parser.first buffer = none)
    (before : List Frame) (chunks : List (List Element)) :
    run parser.feed (before, buffer) chunks =
      (before ++ (parser.drain (buffer ++ chunks.flatten)).1,
        (parser.drain (buffer ++ chunks.flatten)).2) := by
  induction chunks generalizing before buffer with
  | nil => simp [drain_of_none incomplete]
  | cons chunk chunks ih =>
      rw [run_cons, feed, ih (parser.first_drain (buffer ++ chunk)), List.flatten_cons,
        ← List.append_assoc buffer, parser.drain_append (buffer ++ chunk), List.append_assoc]

/-- A stream of whole frames is parsed into these frames. -/
theorem drain_flatten {frames : List Frame} {encoded : List (List Element)}
    (whole : List.Forall₂ (fun frame bytes => parser.first bytes = some (frame, bytes.length))
      frames encoded) (rest : List Element) :
    parser.drain (encoded.flatten ++ rest) =
      (frames ++ (parser.drain rest).1, (parser.drain rest).2) := by
  induction whole with
  | nil => rfl
  | cons here _ ih =>
      rw [List.flatten_cons, List.append_assoc, drain_of_some (parser.stable here _),
        List.drop_left, ih]
      rfl

/-! ### Frames which are decoded -/

section Decoding

universe w

variable {Value : Type w} (parser)

/-- A parser which answers as if a frame were incomplete when it cannot decode it. -/
def decoding (decode : Frame → Option Value) : FrameParser Element Value where
  first buffer :=
    (parser.first buffer).bind fun (frame, size) => (decode frame).map fun value => (value, size)
  size_pos := by
    intro buffer value size found
    rcases Option.bind_eq_some_iff.mp found with ⟨⟨frame, taken⟩, complete, decoded⟩
    rcases Option.map_eq_some_iff.mp decoded with ⟨_, _, same⟩
    cases same
    exact parser.size_pos complete
  size_le := by
    intro buffer value size found
    rcases Option.bind_eq_some_iff.mp found with ⟨⟨frame, taken⟩, complete, decoded⟩
    rcases Option.map_eq_some_iff.mp decoded with ⟨_, _, same⟩
    cases same
    exact parser.size_le complete
  stable := by
    intro buffer value size found more
    rcases Option.bind_eq_some_iff.mp found with ⟨⟨frame, taken⟩, complete, decoded⟩
    rw [parser.stable complete more]
    exact decoded

variable {parser} {decode : Frame → Option Value}

theorem decoding_first_of_none (incomplete : parser.first buffer = none) :
    (parser.decoding decode).first buffer = none := by
  simp only [decoding, incomplete, Option.bind_none]

theorem decoding_first_of_some (complete : parser.first buffer = some (frame, size)) :
    (parser.decoding decode).first buffer = (decode frame).map fun value => (value, size) := by
  simp only [decoding, complete, Option.bind_some]

/-- It gets to the end of the complete frames if all of them are decoded. -/
theorem first_drain_decoding_iff (buffer : List Element) :
    parser.first ((parser.decoding decode).drain buffer).2 = none ↔
      ∀ frame ∈ (parser.drain buffer).1, decode frame ≠ none := by
  induction buffer using parser.drain_induction with
  | incomplete buffer none =>
      rw [drain_of_none none, drain_of_none (decoding_first_of_none none)]
      exact iff_of_true none nofun
  | complete buffer frame size found ih =>
      have first := @decoding_first_of_some _ _ parser _ _ _ _ decode found
      rw [drain_of_some found, List.forall_mem_cons, ← ih]
      cases decoded : decode frame with
      | none =>
          rw [decoded, Option.map_none] at first
          rw [drain_of_none first, found]
          exact iff_of_false nofun (fun both => both.1 rfl)
      | some value =>
          rw [decoded, Option.map_some] at first
          rw [drain_of_some first]
          exact (and_iff_right nofun).symm

theorem drain_decoding (all : ∀ frame ∈ (parser.drain buffer).1, decode frame ≠ none) :
    (parser.decoding decode).drain buffer =
      ((parser.drain buffer).1.filterMap decode, (parser.drain buffer).2) := by
  induction buffer using parser.drain_induction with
  | incomplete buffer none =>
      rw [drain_of_none none, drain_of_none (decoding_first_of_none none)]
      rfl
  | complete buffer frame size found ih =>
      have first := @decoding_first_of_some _ _ parser _ _ _ _ decode found
      rw [drain_of_some found, List.forall_mem_cons] at all
      rcases Option.ne_none_iff_exists'.mp all.1 with ⟨value, decoded⟩
      rw [decoded, Option.map_some] at first
      rw [drain_of_some found, drain_of_some first, ih all.2, List.filterMap_cons_some decoded]

end Decoding

end FrameParser

end Mirage.Foundations

/-!
# Records of TLS

A stream of TLS is one of records: a type, two bytes of a version, a length, and the
bytes which it counts.
-/

namespace Mirage.Foundations

structure Record where
  contentType : ℕ
  body : List UInt8
  deriving DecidableEq

/-- The first record has arrived. -/
def WholeRecord (buffer : List UInt8) : Prop :=
  5 ≤ buffer.length ∧ 5 + numberAt buffer 3 2 ≤ buffer.length

instance : DecidablePred WholeRecord :=
  fun _ => inferInstanceAs (Decidable (_ ∧ _))

def firstRecord (buffer : List UInt8) : Record where
  contentType := numberAt buffer 0 1
  body := bytesAt buffer 5 (numberAt buffer 3 2)

section Growing

variable {buffer : List UInt8} {start width : ℕ}

theorem bytesAt_append_of_le (inside : start + width ≤ buffer.length) (more : List UInt8) :
    bytesAt (buffer ++ more) start width = bytesAt buffer start width := by
  rw [bytesAt, List.drop_append_of_le_length (by omega), List.take_append_of_le_length, bytesAt]
  rw [List.length_drop]
  omega

theorem numberAt_append_of_le (inside : start + width ≤ buffer.length) (more : List UInt8) :
    numberAt (buffer ++ more) start width = numberAt buffer start width := by
  rw [numberAt, bytesAt_append_of_le inside, numberAt]

theorem numberAt_drop (buffer : List UInt8) (size start width : ℕ) :
    numberAt (buffer.drop size) start width = numberAt buffer (size + start) width := by
  rw [numberAt, bytesAt, List.drop_drop, numberAt, bytesAt]

theorem WholeRecord.append (whole : WholeRecord buffer) (more : List UInt8) :
    WholeRecord (buffer ++ more) := by
  rcases whole with ⟨header, inside⟩
  rw [WholeRecord, numberAt_append_of_le header, List.length_append]
  omega

theorem firstRecord_append (whole : WholeRecord buffer) (more : List UInt8) :
    firstRecord (buffer ++ more) = firstRecord buffer := by
  rcases whole with ⟨header, inside⟩
  have start : 0 + 1 ≤ buffer.length := by omega
  rw [firstRecord, numberAt_append_of_le start, numberAt_append_of_le header,
    bytesAt_append_of_le inside, firstRecord]

end Growing

def records : FrameParser UInt8 Record where
  first buffer :=
    if WholeRecord buffer then some (firstRecord buffer, 5 + numberAt buffer 3 2) else none
  size_pos := by
    intro buffer record size found
    rw [Option.ite_none_right_eq_some, Option.some.injEq, Prod.mk.injEq] at found
    omega
  size_le := by
    intro buffer record size found
    rw [Option.ite_none_right_eq_some, Option.some.injEq, Prod.mk.injEq] at found
    rcases found with ⟨⟨_, inside⟩, _, same⟩
    omega
  stable := by
    intro buffer record size found more
    rw [Option.ite_none_right_eq_some] at found
    rcases found with ⟨whole, same⟩
    rw [if_pos (whole.append more), firstRecord_append whole, numberAt_append_of_le whole.1]
    exact same

theorem records_first_eq_some {buffer : List UInt8} {record : Record} {size : ℕ}
    (found : records.first buffer = some (record, size)) :
    WholeRecord buffer ∧ record = firstRecord buffer ∧ size = 5 + numberAt buffer 3 2 := by
  simp only [records, Option.ite_none_right_eq_some, Option.some.injEq, Prod.mk.injEq] at found
  exact ⟨found.1, found.2.1.symm, found.2.2.symm⟩

theorem records_first_of_whole {buffer : List UInt8} (whole : WholeRecord buffer) :
    records.first buffer = some (firstRecord buffer, 5 + numberAt buffer 3 2) :=
  if_pos whole

theorem records_first_of_not_whole {buffer : List UInt8} (part : ¬WholeRecord buffer) :
    records.first buffer = none :=
  if_neg part

theorem records_first_eq_none {buffer : List UInt8} (incomplete : records.first buffer = none) :
    ¬WholeRecord buffer := by
  intro whole
  rw [records_first_of_whole whole] at incomplete
  cases incomplete

/-- A record of version 1.2, as it is written -/
def recordBytes (contentType : UInt8) (body : List UInt8) : List UInt8 :=
  [contentType, 0x03, 0x03] ++ (bigEndian 2 body.length ++ body)

theorem recordBytes_length (contentType : UInt8) (body : List UInt8) :
    (recordBytes contentType body).length = 5 + body.length := by
  simp only [recordBytes, List.length_append, bigEndian_length, List.length_cons, List.length_nil]
  omega

theorem records_first_recordBytes {body : List UInt8} (fits : body.length < 256 ^ 2)
    (contentType : UInt8) (rest : List UInt8) :
    records.first (recordBytes contentType body ++ rest) =
      some (⟨contentType.toNat, body⟩, (recordBytes contentType body).length) := by
  have length : numberAt (recordBytes contentType body ++ rest) 3 2 = body.length := by
    rw [recordBytes, List.append_assoc, List.append_assoc]
    exact numberAt_append_of_lt rfl fits _
  have type : numberAt (recordBytes contentType body ++ rest) 0 1 = contentType.toNat :=
    numberAt_one (bytesAt_one rfl)
  have read : bytesAt (recordBytes contentType body ++ rest) 5 body.length = body := by
    rw [recordBytes, ← List.append_assoc, List.append_assoc _ body]
    exact bytesAt_append rfl rfl rest
  have whole : WholeRecord (recordBytes contentType body ++ rest) := by
    rw [WholeRecord, length, List.length_append, recordBytes_length]
    omega
  rw [records_first_of_whole whole, firstRecord, type, length, read, recordBytes_length]

theorem drain_recordBytes {body : List UInt8} (fits : body.length < 256 ^ 2)
    (contentType : UInt8) (rest : List UInt8) :
    records.drain (recordBytes contentType body ++ rest) =
      (⟨contentType.toNat, body⟩ :: (records.drain rest).1, (records.drain rest).2) := by
  rw [FrameParser.drain_of_some (records_first_recordBytes fits contentType rest), List.drop_left]

theorem drain_records_nil : records.drain [] = ([], []) :=
  FrameParser.drain_of_none (records_first_of_not_whole (by decide))

end Mirage.Foundations
