import Mirage.Proxy.ServerHandshake

/-!
# Which patched templates the reader accepts

A template is patched at fixed places, as if its first record were that of a whole server
hello, and the reader takes the random and the cipher suite from there.  It accepts the
flight exactly if this is what the first record is and no alert stands in the way.
-/

namespace Mirage.Proxy

open Mirage.Foundations Mirage.Crypto
open Mirage.Foundations.Checked (done writes writes_cons writes_nil overwrite_append done_bind)

/-! ## Patched flights -/

section Patching

variable {t sid : List UInt8} {random : Bytes32}

/-- The length which is written for the first record -/
def patchedLength (t sid : List UInt8) : ℕ :=
  clamp (numberAt t 3 2 + ((sid.length : ℤ) - numberAt t 43 1)) u16Max

/-- The handshake header and the version, with what is written for the length -/
def patchedIntro (t sid : List UInt8) : List UInt8 :=
  bytesAt t 5 1 ++ (bigEndian 3
    (clamp (numberAt t 6 3 + ((sid.length : ℤ) - numberAt t 43 1)) 0xFFFFFF) ++ bytesAt t 9 2)

def patched (t sid : List UInt8) (random : Bytes32) : List UInt8 :=
  (t.take 3 ++ bigEndian 2 (patchedLength t sid)) ++ (patchedIntro t sid ++ (random.1 ++
    (UInt8.ofNat sid.length :: (sid ++ t.drop (44 + numberAt t 43 1)))))

theorem take_three_append (t : List UInt8) :
    t.take 43 = t.take 3 ++ (bytesAt t 3 2 ++ (bytesAt t 5 1 ++ (bytesAt t 6 3 ++
      (bytesAt t 9 2 ++ bytesAt t 11 32)))) := by
  have start : ∀ size, t.take size = bytesAt t 0 size := fun _ => rfl
  rw [start 43, start 3, ← bytesAt_add t 9, ← bytesAt_add t 6, ← bytesAt_add t 5,
    ← bytesAt_add t 3, ← bytesAt_add t 0]

/-- The three fields are replaced, wherever they are written to first. -/
theorem writes_fields {start length kind size version old rest newRandom newLength newSize :
      List UInt8}
    (start_length : start.length = 3) (kind_length : kind.length = 1)
    (version_length : version.length = 2)
    (same_length : newLength.length = length.length) (length_two : length.length = 2)
    (same_size : newSize.length = size.length) (size_three : size.length = 3)
    (same_random : newRandom.length = old.length) :
    writes (start ++ (length ++ (kind ++ (size ++ (version ++ (old ++ rest))))))
        [(11, newRandom), (3, newLength), (6, newSize)] =
      done (start ++ (newLength ++ (kind ++ (newSize ++ (version ++ (newRandom ++ rest)))))) := by
  have at_random : 11 = (start ++ (length ++ (kind ++ (size ++ version)))).length := by
    simp only [List.length_append]
    omega
  have at_size : 6 = (start ++ (newLength ++ kind)).length := by
    simp only [List.length_append]
    omega
  have random := @overwrite_append _ (start ++ (length ++ (kind ++ (size ++ version)))) rest 11
    old newRandom at_random same_random
  have size := @overwrite_append _ (start ++ (newLength ++ kind))
    (version ++ (newRandom ++ rest)) 6 size newSize at_size same_size
  simp only [List.append_assoc] at random size
  rw [writes_cons, random, done_bind, writes_cons, overwrite_append start_length.symm same_length,
    done_bind, writes_cons, size, done_bind, writes_nil]

theorem patchServerHello_eq (handshake : numberAt t 0 1 = 0x16)
    (long : 44 + numberAt t 43 1 ≤ t.length) :
    patchServerHello t sid random = done (patched t sid random) := by
  have length_three : (t.take 3).length = 3 := by
    rw [List.length_take]
    omega
  have length_type : (bytesAt t 5 1).length = 1 := bytesAt_length (by omega)
  have length_version : (bytesAt t 9 2).length = 2 := bytesAt_length (by omega)
  have old_record : (bytesAt t 3 2).length = 2 := bytesAt_length (by omega)
  have old_body : (bytesAt t 6 3).length = 3 := bytesAt_length (by omega)
  have old_random : (bytesAt t 11 32).length = 32 := bytesAt_length (by omega)
  have not_refused : ¬(t.length < 44 ∨ numberAt t 0 1 ≠ 0x16) := by omega
  simp only [patchServerHello, if_neg not_refused, if_neg (Nat.not_lt.mpr long)]
  rw [take_three_append, patched, patchedIntro, patchedLength]
  simp only [List.append_assoc]
  refine writes_fields length_three length_type length_version ?_ old_record ?_ old_body ?_
  · rw [bigEndian_length, old_record]
  · rw [bigEndian_length, old_body]
  · rw [random.2, old_random]

theorem patched_length (long : 44 + numberAt t 43 1 ≤ t.length) :
    (patched t sid random).length + numberAt t 43 1 = t.length + sid.length := by
  have length_type : (bytesAt t 5 1).length = 1 := bytesAt_length (by omega)
  have length_version : (bytesAt t 9 2).length = 2 := bytesAt_length (by omega)
  simp only [patched, patchedIntro, List.length_append, List.length_cons, List.length_take,
    List.length_drop, bigEndian_length, random.2]
  omega

theorem patchedIntro_length (long : 11 ≤ t.length) : (patchedIntro t sid).length = 6 := by
  rw [patchedIntro, List.length_append, List.length_append, bigEndian_length,
    bytesAt_length (by omega), bytesAt_length (by omega)]

/-- Behind the session identifier stands what the template has behind its own. -/
theorem patched_behind (long : 44 + numberAt t 43 1 ≤ t.length) :
    ∃ front, front.length = 44 + sid.length ∧
      patched t sid random = front ++ t.drop (44 + numberAt t 43 1) := by
  have split : patched t sid random =
      (t.take 3 ++ bigEndian 2 (patchedLength t sid) ++ (patchedIntro t sid ++ (random.1 ++
        (UInt8.ofNat sid.length :: sid)))) ++ t.drop (44 + numberAt t 43 1) := by
    simp only [patched, List.append_assoc, List.cons_append]
  refine ⟨_, ?_, split⟩
  have total := @patched_length t sid random long
  have sum := congrArg List.length split
  rw [List.length_append, List.length_drop] at sum
  omega

end Patching

/-! ## What the reader takes from them -/

section Taking

variable {t sid : List UInt8} {random : Bytes32}

/-- The first record is that of a handshake and holds the cipher suite of a server hello. -/
def HoldsHello (t : List UInt8) : Prop :=
  numberAt t 0 1 = 0x16 ∧ 41 + numberAt t 43 1 ≤ numberAt t 3 2

instance : DecidablePred HoldsHello :=
  fun _ => inferInstanceAs (Decidable (_ ∧ _))

/-- The cipher suite of a template -/
def cipherSuite (t : List UInt8) : Option ℕ :=
  if HoldsHello t then some (numberAt t (44 + numberAt t 43 1) 2) else none

/-- What comes behind the first record, or behind that part of it for which 16 bits suffice -/
def behindHello (t sid : List UInt8) : List UInt8 :=
  t.drop (5 + min (numberAt t 3 2) (u16Max + numberAt t 43 1 - sid.length))

theorem patchedLength_eq (holds : HoldsHello t) :
    patchedLength t sid = min (numberAt t 3 2 + sid.length - numberAt t 43 1) u16Max := by
  have inside := holds.2
  rw [patchedLength, clamp]
  omega

theorem bytesAt_bytesAt {bytes : List UInt8} {start width inner size : ℕ}
    (inside : inner + size ≤ width) :
    bytesAt (bytesAt bytes start width) inner size = bytesAt bytes (start + inner) size := by
  rw [bytesAt, bytesAt, List.drop_take, List.drop_drop, List.take_take,
    Nat.min_eq_left (by omega), bytesAt]

theorem numberAt_bytesAt {bytes : List UInt8} {start width inner size : ℕ}
    (inside : inner + size ≤ width) :
    numberAt (bytesAt bytes start width) inner size = numberAt bytes (start + inner) size := by
  rw [numberAt, bytesAt_bytesAt inside, numberAt]

/-- The fields of a patched flight, where the reader looks for them -/
theorem patched_fields (holds : HoldsHello t) (whole : WholeRecord t)
    (short : sid.length ≤ u8Max) :
    numberAt (patched t sid random) 0 1 = 0x16 ∧
      numberAt (patched t sid random) 3 2 = patchedLength t sid ∧
      bytesAt (patched t sid random) 11 32 = random.1 ∧
      numberAt (patched t sid random) 43 1 = sid.length ∧
      numberAt (patched t sid random) (44 + sid.length) 2 =
        numberAt t (44 + numberAt t 43 1) 2 := by
  rcases holds with ⟨handshake, long⟩
  have inside := whole.2
  rw [u8Max] at short
  have length_three : (t.take 3).length = 3 := by
    rw [List.length_take]
    omega
  have intro_length := @patchedIntro_length t sid (by omega)
  have new_length : patchedLength t sid < 256 ^ 2 := by
    rw [patchedLength, clamp, u16Max]
    omega
  refine ⟨?_, ?_, ?_, ?_, ?_⟩
  · have start : 0 + 1 ≤ (t.take 3).length := by omega
    rw [patched, List.append_assoc, numberAt_append_of_le start, numberAt,
      bytesAt_take (by omega)]
    exact handshake
  · rw [patched, List.append_assoc]
    exact numberAt_append_of_lt length_three.symm new_length _
  · rw [patched, ← List.append_assoc]
    refine bytesAt_append ?_ random.2 _
    simp only [List.length_append, bigEndian_length, length_three, intro_length]
  · have at_sid : 43 = 3 + (2 + (6 + (32 + 0))) := rfl
    rw [at_sid, patched, List.append_assoc, numberAt_behind length_three,
      numberAt_behind (bigEndian_length 2 _), numberAt_behind intro_length,
      numberAt_behind random.2]
    exact numberAt_start (by omega) _
  · rcases @patched_behind t sid random (by omega) with ⟨front, size, split⟩
    have behind := numberAt_behind size (t.drop (44 + numberAt t 43 1)) 0 2
    rw [split]
    rwa [numberAt_drop] at behind

theorem drop_patched (holds : HoldsHello t) (whole : WholeRecord t) (short : sid.length ≤ u8Max) :
    (patched t sid random).drop (5 + patchedLength t sid) = behindHello t sid := by
  have long := holds.2
  have inside := whole.2
  have length_eq := @patchedLength_eq t sid holds
  rw [u8Max] at short
  rw [u16Max] at length_eq
  rcases @patched_behind t sid random (by omega) with ⟨front, size, split⟩
  have place : 44 + numberAt t 43 1 + (5 + patchedLength t sid - (44 + sid.length)) =
      5 + min (numberAt t 3 2) (u16Max + numberAt t 43 1 - sid.length) := by
    rw [u16Max]
    omega
  rw [split, List.drop_append, List.drop_eq_nil_of_le (by omega), List.nil_append, size,
    List.drop_drop, place, behindHello]

theorem record_of_hello {body : List UInt8} {sidLen : ℕ} (long : 41 + sidLen ≤ body.length)
    (random_eq : bytesAt body 6 32 = random.1) (sid_eq : numberAt body 38 1 = sidLen) :
    FlightState.initial.record 0x16 body =
      ⟨true, false, false, random, numberAt body (39 + sidLen) 2⟩ := by
  have sized : !FlightState.initial.sawSh ∧ 38 ≤ body.length := ⟨rfl, by omega⟩
  have suite_inside : 39 + sidLen + 2 ≤ body.length := by omega
  have one_more : 39 ≤ body.length := by omega
  rw [FlightState.record, if_pos rfl, FlightState.hello, dif_pos sized]
  simp only [if_pos one_more, sid_eq, if_pos suite_inside, random_eq]
  rfl

/-- The reader has taken the random and the cipher suite when it comes to the next record. -/
theorem readServerHandshake_patched (ending : StreamEnd) (holds : HoldsHello t)
    (whole : WholeRecord t) (short : sid.length ≤ u8Max) :
    readServerHandshake ending (patched t sid random) =
      readFlight ending ⟨true, false, false, random, numberAt t (44 + numberAt t 43 1) 2⟩
        (behindHello t sid) := by
  rcases @patched_fields t sid random holds whole short with
    ⟨type, length, random_eq, sid_eq, suite⟩
  have long := holds.2
  have inside := whole.2
  have length_eq := @patchedLength_eq t sid holds
  have total := @patched_length t sid random (by omega)
  rw [u8Max] at short
  rw [u16Max] at length_eq
  have arrived : WholeRecord (patched t sid random) := by
    rw [WholeRecord, length]
    omega
  have content_type : (firstRecord (patched t sid random)).contentType = 0x16 := type
  have body : (firstRecord (patched t sid random)).body =
      bytesAt (patched t sid random) 5 (patchedLength t sid) := by
    rw [firstRecord, length]
  have body_length : (bytesAt (patched t sid random) 5 (patchedLength t sid)).length =
      patchedLength t sid := bytesAt_length (by omega)
  have next : FlightState.initial.record (firstRecord (patched t sid random)).contentType
      (firstRecord (patched t sid random)).body =
        ⟨true, false, false, random, numberAt t (44 + numberAt t 43 1) 2⟩ := by
    have random_inside : 6 + 32 ≤ patchedLength t sid := by omega
    have sid_inside : 38 + 1 ≤ patchedLength t sid := by omega
    have suite_inside : 39 + sid.length + 2 ≤ patchedLength t sid := by omega
    have body_random : bytesAt (bytesAt (patched t sid random) 5 (patchedLength t sid)) 6 32 =
        random.1 := by
      rw [bytesAt_bytesAt random_inside, random_eq]
    have body_sid : numberAt (bytesAt (patched t sid random) 5 (patchedLength t sid)) 38 1 =
        sid.length := by
      rw [numberAt_bytesAt sid_inside, sid_eq]
    rw [content_type, body, record_of_hello (by omega) body_random body_sid,
      numberAt_bytesAt suite_inside, ← Nat.add_assoc, suite]
  have not_alert : (firstRecord (patched t sid random)).contentType ≠ 0x15 := by
    rw [content_type]
    decide
  rw [readServerHandshake, readFlight_of_whole arrived, if_neg not_alert, next, length,
    drop_patched holds whole short]
  rfl

end Taking

/-! ## Which templates are accepted -/

section Accepting

variable {t sid : List UInt8} {random : Bytes32} {ending : StreamEnd}

/-- The reader gets the random which was patched in, and the cipher suite of the template. -/
def Extracted (ending : StreamEnd) (t sid : List UInt8) (random : Bytes32) : Prop :=
  ∃ suite flight, cipherSuite t = some suite ∧ patchServerHello t sid random = done flight ∧
    readServerHandshake ending flight = .ok ⟨random, suite⟩

/-- The first record holds a server hello, and the other types come without an alert. -/
def Delivers (t sid : List UInt8) : Prop :=
  HoldsHello t ∧ Finishes false false (behindHello t sid)

theorem extracted_iff_of_short (complete : templateIsComplete t = true)
    (short : sid.length ≤ u8Max) :
    Extracted ending t sid random ↔ Delivers t sid ∧ random ≠ zeroRandom := by
  have whole := wholeRecord_of_templateIsComplete complete
  by_cases holds : HoldsHello t
  · have inside := whole.2
    have long := holds.2
    have flight := @patchServerHello_eq t sid random holds.1 (by omega)
    have read := @readServerHandshake_patched t sid random ending holds whole short
    have suite : cipherSuite t = some (numberAt t (44 + numberAt t 43 1) 2) := if_pos holds
    have accepted : Extracted ending t sid random ↔
        readServerHandshake ending (patched t sid random) =
          .ok ⟨random, numberAt t (44 + numberAt t 43 1) 2⟩ := by
      rw [Extracted, suite, flight]
      simp only [Option.some.injEq, Checked.done.injEq]
      constructor
      · rintro ⟨_, _, rfl, rfl, taken⟩
        exact taken
      · exact fun taken => ⟨_, _, rfl, rfl, taken⟩
    rw [accepted, read, readFlight_eq_ok_iff rfl rfl, Delivers, and_iff_right holds, and_comm]
    refine and_congr_right fun _ => ?_
    rw [FlightState.result]
    split
    · case isTrue zero =>
        refine iff_of_false ?_ (fun other => other zero)
        intro same
        cases same
    · case isFalse other => exact iff_of_true rfl other
  · refine iff_of_false ?_ (fun both => holds both.1.1)
    rintro ⟨suite, flight, found, -⟩
    rw [cipherSuite, if_neg holds] at found
    cases found

theorem clientSessionId_length_le (clientHello : List UInt8) :
    (clientSessionId clientHello).length ≤ u8Max := by
  have one_byte : (bytesAt clientHello 43 1).length ≤ 1 := List.length_take_le _ _
  have small : numberAt clientHello 43 1 < 256 ^ 1 :=
    (ofBigEndian_lt _).trans_le (Nat.pow_le_pow_right (by decide) one_byte)
  rw [clientSessionId, getSessionId]
  split
  · exact Nat.zero_le _
  · simp only
    split
    · rw [Option.getD_some]
      exact (List.length_take_le _ _).trans (Nat.le_of_lt_succ small)
    · exact Nat.zero_le _

/-- The patched record ends where the old one did unless it becomes too long. -/
theorem behindHello_eq (fits : numberAt t 3 2 + sid.length ≤ u16Max + numberAt t 43 1) :
    behindHello t sid = t.drop (5 + numberAt t 3 2) := by
  rw [behindHello, Nat.min_eq_left (by omega)]

/-! ### Flights which are made up -/

def fallbackHello (clientHello clientSessionId : List UInt8) (draws : FallbackDraws) : List UInt8 :=
  0x02 :: (bigEndian 3 (fallbackBody clientHello clientSessionId draws).length ++
    fallbackBody clientHello clientSessionId draws)

variable {clientHello : List UInt8} {draws : FallbackDraws}

theorem fallbackBody_eq (clientHello sid : List UInt8) (draws : FallbackDraws) :
    ∃ rest, fallbackBody clientHello sid draws =
      [0x03, 0x03] ++ (draws.random.1 ++ (bigEndian 1 sid.length ++ rest)) :=
  ⟨_, rfl⟩

theorem fallbackBody_length :
    (fallbackBody clientHello sid draws).length = 86 + sid.length := by
  simp only [fallbackBody, List.length_append, List.length_cons, List.length_nil,
    bigEndian_length, draws.random.2, draws.share.2]
  omega

theorem fallbackHello_length :
    (fallbackHello clientHello sid draws).length = 90 + sid.length := by
  simp only [fallbackHello, List.length_append, List.length_cons, bigEndian_length,
    fallbackBody_length]
  omega

theorem fallbackServerHello_eq (clientHello sid : List UInt8) (draws : FallbackDraws) :
    fallbackServerHello clientHello sid draws =
      recordBytes 0x16 (fallbackHello clientHello sid draws) ++
        (recordBytes 0x14 [0x01] ++ recordBytes 0x17 draws.encrypted) := by
  have length_eq : 4 + (fallbackBody clientHello sid draws).length =
      (fallbackHello clientHello sid draws).length := by
    rw [fallbackBody_length, fallbackHello_length]
    omega
  rw [fallbackServerHello, length_eq, fallbackHello]
  simp only [recordBytes, List.append_assoc, List.cons_append]
  rfl

theorem drain_encrypted (draws : FallbackDraws) :
    records.drain (recordBytes 0x14 [0x01] ++ recordBytes 0x17 draws.encrypted) =
      ([⟨0x14, [0x01]⟩, ⟨0x17, draws.encrypted⟩], []) := by
  have bounds := draws.size
  have last := @drain_recordBytes draws.encrypted (by omega) 0x17 []
  rw [List.append_nil, drain_records_nil] at last
  rw [drain_recordBytes (by decide), last]
  rfl

theorem drain_fallback (short : sid.length ≤ u8Max) :
    records.drain (fallbackServerHello clientHello sid draws) =
      ([⟨0x16, fallbackHello clientHello sid draws⟩, ⟨0x14, [0x01]⟩, ⟨0x17, draws.encrypted⟩],
        []) := by
  have fits : (fallbackHello clientHello sid draws).length < 256 ^ 2 := by
    rw [fallbackHello_length]
    rw [u8Max] at short
    omega
  rw [fallbackServerHello_eq, drain_recordBytes fits, drain_encrypted]
  rfl

theorem templateIsComplete_fallback (short : sid.length ≤ u8Max) :
    templateIsComplete (fallbackServerHello clientHello sid draws) = true := by
  have types : recordTypes (fallbackServerHello clientHello sid draws) = [0x16, 0x14, 0x17] := by
    rw [recordTypes, drain_fallback short]
    rfl
  rw [templateIsComplete_iff, types, drain_fallback short]
  exact ⟨rfl, by decide, by decide, by decide⟩

/-- The three fields by which the first record is judged -/
theorem fallback_fields (short : sid.length ≤ u8Max) :
    numberAt (fallbackServerHello clientHello sid draws) 0 1 = 0x16 ∧
      numberAt (fallbackServerHello clientHello sid draws) 3 2 = 90 + sid.length ∧
      numberAt (fallbackServerHello clientHello sid draws) 43 1 = sid.length := by
  have length_eq := @fallbackHello_length sid clientHello draws
  have body_length := @fallbackBody_length sid clientHello draws
  rw [u8Max] at short
  refine ⟨?_, ?_, ?_⟩
  · rw [numberAt, bytesAt_one rfl]
    rfl
  · rw [fallbackServerHello, body_length, ← Nat.add_assoc]
    exact numberAt_append_of_lt rfl (by omega) _
  · rcases fallbackBody_eq clientHello sid draws with ⟨rest, body⟩
    have start : 43 = ([0x16, 0x03, 0x03] ++ (bigEndian 2 (4 + (86 + sid.length)) ++
        (0x02 :: (bigEndian 3 (86 + sid.length) ++ ([0x03, 0x03] ++ draws.random.1)))) :
          List UInt8).length := by
      simp only [List.length_append, List.length_cons, List.length_nil, bigEndian_length,
        draws.random.2]
    have number := @numberAt_append_of_lt _ 43 1 start sid.length (by omega)
      (rest ++ ([0x14, 0x03, 0x03, 0x00, 0x01, 0x01] ++ ([0x17, 0x03, 0x03] ++
        (bigEndian 2 draws.encrypted.length ++ draws.encrypted))))
    rw [fallbackServerHello, body_length, body]
    simp only [List.append_assoc, List.cons_append] at number ⊢
    exact number

theorem delivers_fallback {other : List UInt8} (short : sid.length ≤ u8Max)
    (other_short : other.length ≤ u8Max) :
    Delivers (fallbackServerHello clientHello sid draws) other := by
  rcases @fallback_fields sid clientHello draws short with ⟨type, length, sid_eq⟩
  have holds : HoldsHello (fallbackServerHello clientHello sid draws) := by
    rw [HoldsHello, type, length, sid_eq]
    omega
  have behind : behindHello (fallbackServerHello clientHello sid draws) other =
      recordBytes 0x14 [0x01] ++ recordBytes 0x17 draws.encrypted := by
    have fits : 90 + sid.length + other.length ≤ u16Max + sid.length := by
      rw [u8Max] at other_short
      rw [u16Max]
      omega
    rw [behindHello_eq (by rwa [length, sid_eq]), length, fallbackServerHello_eq]
    apply List.drop_left'
    rw [recordBytes_length, fallbackHello_length]
  have types : recordTypes (recordBytes 0x14 [0x01] ++ recordBytes 0x17 draws.encrypted) =
      [0x14, 0x17] := by
    rw [recordTypes, drain_encrypted]
    rfl
  refine ⟨holds, [0x14, 0x17], ?_, by decide, .inr (by decide), .inr (by decide)⟩
  rw [behind, types]

/--
The reader accepts a patched template, with the random which was patched in and its cipher
suite, exactly if the first record of the template holds a server hello, the other types
come behind it without an alert before both are there, and the random is not one of zeros.
Flights which were made up are accepted with all other randoms.
-/
theorem extracted_iff (complete : templateIsComplete t = true) (ending : StreamEnd)
    (clientHello : List UInt8) (random : Bytes32) :
    (Extracted ending t (clientSessionId clientHello) random ↔
        Delivers t (clientSessionId clientHello) ∧ random ≠ zeroRandom) ∧
      ∀ first draws,
        templateIsComplete (fallbackServerHello first (clientSessionId first) draws) = true ∧
          (Extracted ending (fallbackServerHello first (clientSessionId first) draws)
            (clientSessionId clientHello) random ↔ random ≠ zeroRandom) := by
  refine ⟨extracted_iff_of_short complete (clientSessionId_length_le clientHello), ?_⟩
  intro first draws
  have made := @templateIsComplete_fallback (clientSessionId first) first draws
    (clientSessionId_length_le first)
  refine ⟨made, ?_⟩
  rw [extracted_iff_of_short made (clientSessionId_length_le clientHello)]
  exact and_iff_right (delivers_fallback (clientSessionId_length_le first)
    (clientSessionId_length_le clientHello))

def sampleRandom : Bytes32 :=
  ⟨List.replicate 32 7, rfl⟩

/-- A flight with this random, and with these bytes behind the server hello -/
def flightWith (random : Bytes32) (between : List UInt8) : List UInt8 :=
  recordBytes 0x16 ([0x02, 0x00, 0x00, 0x26, 0x03, 0x03] ++ (random.1 ++
      [0x00, 0x13, 0x01, 0x00])) ++
    (between ++ (recordBytes 0x14 [0x01] ++ recordBytes 0x17 [0x00]))

theorem extracted_flightWith_nothing :
    Extracted .silent (flightWith zeroRandom []) (clientSessionId []) sampleRandom := by
  have complete : templateIsComplete (flightWith zeroRandom []) = true := by decide +kernel
  have types : recordTypes (behindHello (flightWith zeroRandom []) (clientSessionId [])) =
      [0x14, 0x17] := by decide +kernel
  have delivers : Delivers (flightWith zeroRandom []) (clientSessionId []) := by
    refine ⟨by decide +kernel, [0x14, 0x17], ?_, by decide, .inr (by decide), .inr (by decide)⟩
    rw [types]
  exact (extracted_iff complete .silent [] sampleRandom).1.mpr ⟨delivers, by decide⟩

/-- A flight with a warning is kept as a template, and refused when it is sent again. -/
theorem not_extracted_flightWith_alert :
    let template := flightWith zeroRandom (recordBytes 0x15 [0x01, 0x70])
    templateIsComplete template = true ∧ sampleRandom ≠ zeroRandom ∧
      ∀ ending, ¬Extracted ending template [] sampleRandom := by
  intro template
  refine ⟨by decide +kernel, by decide, ?_⟩
  rintro ending ⟨suite, flight, -, patched_eq, read⟩
  have computed : patchServerHello template [] sampleRandom =
      done (flightWith sampleRandom (recordBytes 0x15 [0x01, 0x70])) := by decide +kernel
  have refused : ∀ ending, readServerHandshake ending
      (flightWith sampleRandom (recordBytes 0x15 [0x01, 0x70])) = .error .alert := by
    intro ending
    cases ending with
    | closed => decide +kernel
    | silent => decide +kernel
  rw [computed, Checked.done.injEq] at patched_eq
  rw [← patched_eq, refused] at read
  cases read

end Accepting

end Mirage.Proxy
