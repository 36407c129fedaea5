import Mirage.Crypto.HandshakeCache
import Mirage.Foundations.Records

/-!
# Reading the flight of a server

`read_server_handshake` reads records until it has seen one of each of three types, and
takes a random and a cipher suite out of the first of a handshake.
-/

namespace Mirage.Proxy

open Mirage.Foundations
open Mirage.Crypto (Bytes32)

/-- What follows the bytes which arrive: the stream is closed, or nothing comes in time. -/
inductive StreamEnd where
  | closed
  | silent
  deriving DecidableEq

structure ServerHandshake where
  serverRandom : Bytes32
  cipherSuite : ℕ
  deriving DecidableEq

inductive HandshakeError where
  /-- This one is an `AuthFailure`. -/
  | alert
  | noRandom
  | incompleteBody
  | bodyTimeout
  | incompleteHeader
  | timeoutBeforeCcs
  | incompleteFlight (sh ccs enc : Bool)
  deriving DecidableEq

def HandshakeError.message : HandshakeError → String
  | .alert => "Server sent TLS alert"
  | .noRandom => "未能捕获有效的 ServerHello.random (全 0), 握手失败断开 (fail-closed)"
  | .incompleteBody => "Incomplete body: early eof"
  | .bodyTimeout => "Timeout reading body"
  | .incompleteHeader => "Incomplete header: early eof"
  | .timeoutBeforeCcs => "Timeout before CCS"
  | .incompleteFlight sh ccs enc =>
      "Incomplete flight: sh=" ++ toString sh ++ ", ccs=" ++ toString ccs ++ ", enc=" ++
        toString enc

def zeroRandom : Bytes32 :=
  ⟨List.replicate 32 0, rfl⟩

structure FlightState where
  sawSh : Bool
  sawCcs : Bool
  sawEnc : Bool
  serverRandom : Bytes32
  cipherSuite : ℕ

namespace FlightState

def initial : FlightState :=
  ⟨false, false, false, zeroRandom, 0x1301⟩

/-- The random and the cipher suite of the first record of a handshake, if it has them -/
def hello (state : FlightState) (body : List UInt8) : FlightState :=
  if long : !state.sawSh ∧ 38 ≤ body.length then
    let state := { state with serverRandom := ⟨bytesAt body 6 32, bytesAt_length long.2⟩ }
    if 39 ≤ body.length then
      let sidLen := numberAt body 38 1
      if 39 + sidLen + 2 ≤ body.length then
        { state with cipherSuite := numberAt body (39 + sidLen) 2 }
      else state
    else state
  else state

/-- A record which is not an alert -/
def record (state : FlightState) (ct : ℕ) (body : List UInt8) : FlightState :=
  if ct = 0x16 then { state.hello body with sawSh := true }
  else if ct = 0x14 then { state with sawCcs := true }
  else if ct = 0x17 then { state with sawEnc := true }
  else state

def finished (state : FlightState) : Bool :=
  state.sawSh && state.sawCcs && state.sawEnc

/-- A random of zeros is none which was captured. -/
def result (state : FlightState) : Except HandshakeError ServerHandshake :=
  if state.serverRandom = zeroRandom then .error .noRandom
  else .ok ⟨state.serverRandom, state.cipherSuite⟩

end FlightState

def readFlight (ending : StreamEnd) (state : FlightState) (stream : List UInt8) :
    Except HandshakeError ServerHandshake :=
  if stream.length < 5 then
    match ending with
    | .closed => .error .incompleteHeader
    | .silent =>
        if !state.sawCcs then .error .timeoutBeforeCcs
        else if !state.finished then
          .error (.incompleteFlight state.sawSh state.sawCcs state.sawEnc)
        else state.result
  else
    let ct := numberAt stream 0 1
    let length := numberAt stream 3 2
    if stream.length < 5 + length then
      match ending with
      | .closed => .error .incompleteBody
      | .silent => .error .bodyTimeout
    else if ct = 0x15 then .error .alert
    else
      let state := state.record ct (bytesAt stream 5 length)
      if state.finished then state.result else readFlight ending state (stream.drop (5 + length))
termination_by stream.length
decreasing_by
  rw [List.length_drop]
  omega

def readServerHandshake (ending : StreamEnd) (stream : List UInt8) :
    Except HandshakeError ServerHandshake :=
  readFlight ending FlightState.initial stream

/-!
## Behind the server hello

A template is kept if it consists of whole records with all three types among them.  The
reader, once it has seen a server hello, wants the other two types in whole records, too,
but no alert before it has seen both.
-/

open Mirage.Crypto

/-- The types of the whole records of a stream -/
def recordTypes (stream : List UInt8) : List ℕ :=
  (records.drain stream).1.map Record.contentType

/-- What is still to be seen comes in whole records, with no alert before it is complete. -/
def Finishes (ccs enc : Bool) (stream : List UInt8) : Prop :=
  ∃ types, types <+: recordTypes stream ∧ 0x15 ∉ types ∧
    (ccs = true ∨ 0x14 ∈ types) ∧ (enc = true ∨ 0x17 ∈ types)

section Finishing

variable {ccs enc : Bool} {stream : List UInt8} {record : Record} {size : ℕ}

theorem recordTypes_of_none (incomplete : records.first stream = none) :
    recordTypes stream = [] := by
  rw [recordTypes, FrameParser.drain_of_none incomplete, List.map_nil]

theorem recordTypes_of_some (found : records.first stream = some (record, size)) :
    recordTypes stream = record.contentType :: recordTypes (stream.drop size) := by
  rw [recordTypes, FrameParser.drain_of_some found, List.map_cons, recordTypes]

theorem finishes_true (stream : List UInt8) : Finishes true true stream :=
  ⟨[], List.nil_prefix, List.not_mem_nil, .inl rfl, .inl rfl⟩

theorem not_finishes_of_none (open_ : (ccs && enc) = false)
    (incomplete : records.first stream = none) : ¬Finishes ccs enc stream := by
  rintro ⟨types, starts, -, seen_ccs, seen_enc⟩
  rw [recordTypes_of_none incomplete, List.prefix_nil] at starts
  subst starts
  simp only [List.not_mem_nil, or_false] at seen_ccs seen_enc
  rw [seen_ccs, seen_enc] at open_
  cases open_

/-- A first record may be an alert, or it may be one of those to be seen. -/
theorem finishes_of_some (open_ : (ccs && enc) = false)
    (found : records.first stream = some (record, size)) :
    Finishes ccs enc stream ↔ record.contentType ≠ 0x15 ∧
      Finishes (ccs || record.contentType == 0x14) (enc || record.contentType == 0x17)
        (stream.drop size) := by
  rw [Finishes, recordTypes_of_some found]
  constructor
  · rintro ⟨types, starts, no_alert, seen_ccs, seen_enc⟩
    cases types with
    | nil =>
        simp only [List.not_mem_nil, or_false] at seen_ccs seen_enc
        rw [seen_ccs, seen_enc] at open_
        cases open_
    | cons first types =>
        rw [List.cons_prefix_cons] at starts
        rcases starts with ⟨rfl, starts⟩
        rw [List.mem_cons, not_or] at no_alert
        rw [List.mem_cons] at seen_ccs seen_enc
        refine ⟨Ne.symm no_alert.1, types, starts, no_alert.2, ?_, ?_⟩
        · rwa [Bool.or_eq_true, beq_iff_eq, or_assoc, @eq_comm ℕ record.contentType]
        · rwa [Bool.or_eq_true, beq_iff_eq, or_assoc, @eq_comm ℕ record.contentType]
  · rintro ⟨not_alert, types, starts, no_alert, seen_ccs, seen_enc⟩
    rw [Bool.or_eq_true, beq_iff_eq, or_assoc, @eq_comm ℕ record.contentType] at seen_ccs seen_enc
    refine ⟨record.contentType :: types, List.cons_prefix_cons.mpr ⟨rfl, starts⟩,
      List.not_mem_cons_of_ne_of_not_mem (Ne.symm not_alert) no_alert, ?_, ?_⟩
    · rwa [List.mem_cons]
    · rwa [List.mem_cons]

end Finishing

/-! ## The reader -/

section Reading

variable {ending : StreamEnd} {state : FlightState} {stream : List UInt8}
variable {handshake : ServerHandshake}

theorem readFlight_of_not_whole (open_ : state.finished = false) (part : ¬WholeRecord stream) :
    readFlight ending state stream ≠ .ok handshake := by
  unfold readFlight
  intro accepted
  split at accepted
  · cases ending with
    | closed => cases accepted
    | silent =>
        simp only [open_] at accepted
        split at accepted
        · cases accepted
        · cases accepted
  · rename_i header
    have body : stream.length < 5 + numberAt stream 3 2 := by
      by_contra whole
      exact part ⟨Nat.not_lt.mp header, Nat.not_lt.mp whole⟩
    simp only [if_pos body] at accepted
    cases ending with
    | closed => cases accepted
    | silent => cases accepted

theorem readFlight_of_whole (whole : WholeRecord stream) :
    readFlight ending state stream =
      if (firstRecord stream).contentType = 0x15 then .error .alert
      else
        let next := state.record (firstRecord stream).contentType (firstRecord stream).body
        if next.finished then next.result
        else readFlight ending next (stream.drop (5 + numberAt stream 3 2)) := by
  conv => lhs; unfold readFlight
  simp only [if_neg (Nat.not_lt.mpr whole.1), if_neg (Nat.not_lt.mpr whole.2)]
  rfl

/-- The random and the cipher suite are those of the first record of a handshake. -/
theorem record_of_sawSh (hello : state.sawSh = true) (ct : ℕ) (body : List UInt8) :
    state.record ct body =
      { state with
        sawCcs := state.sawCcs || ct == 0x14
        sawEnc := state.sawEnc || ct == 0x17 } := by
  rcases state with ⟨sawSh, sawCcs, sawEnc, serverRandom, cipherSuite⟩
  obtain rfl : sawSh = true := hello
  unfold FlightState.record
  split
  · case isTrue handshake =>
      subst handshake
      simp [FlightState.hello]
  · split
    · case isTrue ccs =>
        subst ccs
        simp
    · case isFalse not_ccs =>
        split
        · case isTrue enc =>
            subst enc
            simp
        · case isFalse not_enc =>
            rw [beq_false_of_ne not_ccs, beq_false_of_ne not_enc, Bool.or_false, Bool.or_false]

theorem readFlight_eq_ok_iff (hello : state.sawSh = true) (open_ : state.finished = false) :
    readFlight ending state stream = .ok handshake ↔
      state.result = .ok handshake ∧ Finishes state.sawCcs state.sawEnc stream := by
  induction stream using records.drain_induction generalizing state with
  | incomplete stream none =>
      have flags : (state.sawCcs && state.sawEnc) = false := by
        rwa [FlightState.finished, hello, Bool.true_and] at open_
      refine iff_of_false (readFlight_of_not_whole open_ (records_first_eq_none none)) ?_
      exact fun both => not_finishes_of_none flags none both.2
  | complete stream record size found ih =>
      have flags : (state.sawCcs && state.sawEnc) = false := by
        rwa [FlightState.finished, hello, Bool.true_and] at open_
      rcases records_first_eq_some found with ⟨whole, rfl, rfl⟩
      rw [finishes_of_some flags found, readFlight_of_whole whole]
      by_cases alert : (firstRecord stream).contentType = 0x15
      · rw [if_pos alert]
        refine iff_of_false ?_ (fun both => both.2.1 alert)
        intro accepted
        cases accepted
      · have same := record_of_sawSh hello (firstRecord stream).contentType
          (firstRecord stream).body
        rw [if_neg alert]
        generalize state.record (firstRecord stream).contentType (firstRecord stream).body = next
          at same ⊢
        have sh : next.sawSh = true := by rw [same, hello]
        have ccs : next.sawCcs = (state.sawCcs || (firstRecord stream).contentType == 0x14) := by
          rw [same]
        have enc : next.sawEnc = (state.sawEnc || (firstRecord stream).contentType == 0x17) := by
          rw [same]
        have result : next.result = state.result := by
          rw [same]
          rfl
        rw [← ccs, ← enc, ← result]
        simp only
        split
        · case isTrue finished =>
            rw [FlightState.finished, sh, Bool.true_and, Bool.and_eq_true] at finished
            rw [finished.1, finished.2]
            exact (and_iff_left ⟨alert, finishes_true _⟩).symm
        · case isFalse unfinished =>
            rw [ih sh (Bool.eq_false_of_not_eq_true unfinished), and_iff_right alert]

end Reading

/-! ## Templates -/

section Templates

variable {t : List UInt8}

theorem wholeRecord_drop_iff {pos : ℕ} (inside : pos ≤ t.length) :
    WholeRecord (t.drop pos) ↔
      pos + 5 ≤ t.length ∧ pos + 5 + numberAt t (pos + 3) 2 ≤ t.length := by
  rw [WholeRecord, numberAt_drop, List.length_drop]
  omega

theorem seen_iff {seen : Bool} {ct type : ℕ} {types : List ℕ} :
    (seen || type == ct) = true ∨ ct ∈ types ↔ seen = true ∨ ct ∈ type :: types := by
  rw [Bool.or_eq_true, beq_iff_eq, or_assoc, List.mem_cons, @eq_comm ℕ type]

/-- From a place on, the rest is one of whole records, and each type is seen by its end. -/
theorem completeFrom_iff {pos : ℕ} (sh ccs enc : Bool) (inside : pos ≤ t.length) :
    completeFrom t pos sh ccs enc = true ↔ (records.drain (t.drop pos)).2 = [] ∧
      (sh = true ∨ 0x16 ∈ recordTypes (t.drop pos)) ∧
      (ccs = true ∨ 0x14 ∈ recordTypes (t.drop pos)) ∧
      (enc = true ∨ 0x17 ∈ recordTypes (t.drop pos)) := by
  induction pos, sh, ccs, enc using completeFrom.induct t with
  | case1 pos sh ccs enc header len truncated =>
      have part : records.first (t.drop pos) = none := by
        apply records_first_of_not_whole
        rw [wholeRecord_drop_iff inside]
        exact fun whole => absurd whole.2 (Nat.not_le.mpr truncated)
      unfold completeFrom
      rw [if_pos header, if_pos truncated, FrameParser.drain_of_none part]
      refine iff_of_false Bool.false_ne_true fun both => ?_
      have empty := List.drop_eq_nil_iff.mp both.1
      omega
  | case2 pos sh ccs enc header ct len whole ih =>
      have complete : WholeRecord (t.drop pos) :=
        (wholeRecord_drop_iff inside).mpr ⟨header, Nat.not_lt.mp whole⟩
      have found := records_first_of_whole complete
      rw [numberAt_drop] at found
      have next : pos + (5 + len) ≤ t.length := by omega
      have type : (firstRecord (t.drop pos)).contentType = ct := numberAt_drop t pos 0 1
      conv => lhs; unfold completeFrom
      rw [if_pos header, if_neg whole, ih next, FrameParser.drain_of_some found,
        recordTypes_of_some found, type, List.drop_drop, seen_iff, seen_iff, seen_iff]
  | case3 pos sh ccs enc short =>
      have part : records.first (t.drop pos) = none := by
        apply records_first_of_not_whole
        rw [wholeRecord_drop_iff inside]
        exact fun whole => short whole.1
      have end_iff : t.drop pos = [] ↔ pos = t.length := by
        rw [List.drop_eq_nil_iff]
        omega
      conv => lhs; unfold completeFrom
      rw [if_neg short, FrameParser.drain_of_none part, recordTypes_of_none part, end_iff]
      simp only [Bool.and_eq_true, beq_iff_eq, List.not_mem_nil, or_false, and_assoc]

/-- Whole records with all three types among them -/
theorem templateIsComplete_iff : templateIsComplete t = true ↔ (records.drain t).2 = [] ∧
    0x16 ∈ recordTypes t ∧ 0x14 ∈ recordTypes t ∧ 0x17 ∈ recordTypes t := by
  rw [templateIsComplete, completeFrom_iff false false false (Nat.zero_le t.length), List.drop_zero]
  simp only [Bool.false_eq_true, false_or]

theorem wholeRecord_of_templateIsComplete (complete : templateIsComplete t = true) :
    WholeRecord t := by
  rw [templateIsComplete_iff] at complete
  by_contra part
  rw [recordTypes_of_none (records_first_of_not_whole part)] at complete
  exact absurd complete.2.1 List.not_mem_nil

end Templates

end Mirage.Proxy
