import Mirage.Routing.GeoFiles

/-!
# The readers of the Geo files as folds

The loop of the readers sees the fields which a scan of the bytes finds, one after
the other, and stops where the scan does.  The one difference is a length which,
added to its position, is beyond `usize`: there the loop panics.
-/

namespace Mirage.Routing

open Mirage.Foundations
open Mirage.Foundations.Checked (attempt index refuseIf slice)
open Mirage.Foundations.Wire

section Groups

theorem and_continuation (b : UInt8) : b.toNat &&& 0x80 = 0 ↔ b.toNat < 128 := by
  have all : ∀ n < 256, n &&& 0x80 = 0 ↔ n < 128 := by decide +kernel
  exact all b.toNat b.toNat_lt

/-- The bits of a group are put above those which were read before. -/
theorem or_shifted {result group shift : ℕ} (below : result < 2 ^ shift) (room : shift < 64) :
    result ||| group <<< shift % 2 ^ 64 = (result + 2 ^ shift * group) % 2 ^ 64 := by
  have whole : 2 ^ 64 = 2 ^ shift * 2 ^ (64 - shift) := by
    rw [← pow_add, Nat.add_sub_cancel' (Nat.le_of_lt room)]
  have kept : group % 2 ^ (64 - shift) + 1 ≤ 2 ^ (64 - shift) :=
    Nat.mod_lt _ (Nat.two_pow_pos _)
  have shifted : group <<< shift % 2 ^ 64 = 2 ^ shift * (group % 2 ^ (64 - shift)) := by
    rw [Nat.shiftLeft_eq, Nat.mul_comm group, whole, Nat.mul_mod_mul_left]
  have bounded : 2 ^ shift * (group % 2 ^ (64 - shift)) + result < 2 ^ 64 := by
    have most := Nat.mul_le_mul_left (2 ^ shift) kept
    rw [← whole, Nat.mul_add, Nat.mul_one] at most
    omega
  rw [shifted, Nat.or_comm, ← Nat.two_pow_add_eq_or_of_lt below, ← Nat.mod_eq_of_lt bounded,
    ← shifted, Nat.mod_add_mod, Nat.shiftLeft_eq, Nat.mul_comm group, Nat.add_comm]

theorem readGroups_eq {before bytes : List UInt8} {result shift groups : ℕ}
    (left : shift + 7 * (groups + 1) = 70) (below : result < 2 ^ shift) :
    readGroups (before ++ bytes) before.length result shift =
      match takeGroups (groups + 1) bytes with
      | .ok (value, rest) =>
          .done ((result + 2 ^ shift * value) % 2 ^ 64,
            before.length + (bytes.length - rest.length))
      | .error _ => .refused := by
  induction bytes generalizing before result shift groups with
  | nil =>
      rw [readGroups, if_neg (by simp), takeGroups]
  | cons byte rest ih =>
      have byte_lt := byte.toNat_lt
      have low : byte.toNat &&& 0x7F = byte.toNat % 128 := Nat.and_two_pow_sub_one_eq_mod _ 7
      rw [readGroups, if_pos (by simp), Checked.index_append rfl, Checked.done_bind, takeGroups]
      simp only [low, or_shifted below (by omega : shift < 64), and_continuation]
      by_cases ends : byte.toNat < 128
      · rw [if_pos ends, if_pos ends, Nat.mod_eq_of_lt ends]
        simp
      · rw [if_neg ends, if_neg ends, show byte.toNat % 128 = byte.toNat - 128 by omega]
        rcases groups with _ | groups
        · rw [if_pos (by omega)]
          rfl
        · have high : 2 ^ (shift + 7) = 2 ^ shift * 128 := pow_add 2 shift 7
          have group : byte.toNat - 128 + 1 ≤ 128 := by omega
          have next : result + 2 ^ shift * (byte.toNat - 128) < 2 ^ (shift + 7) := by
            have most := Nat.mul_le_mul_left (2 ^ shift) group
            rw [← high, Nat.mul_add, Nat.mul_one] at most
            omega
          have small : result + 2 ^ shift * (byte.toNat - 128) < 2 ^ 64 :=
            Nat.lt_of_lt_of_le next (Nat.pow_le_pow_right (by omega) (by omega))
          have goes_on := @ih (before ++ [byte]) _ (shift + 7) groups (by omega) next
          rw [List.append_assoc, List.singleton_append, List.length_append,
            List.length_singleton] at goes_on
          rw [if_neg (by omega), Nat.mod_eq_of_lt small, goes_on]
          cases found : takeGroups (groups + 1) rest with
          | error fault => rfl
          | ok taken =>
              rcases takeGroups_suffix found with ⟨used, _, split⟩
              have shorter : taken.2.length ≤ rest.length := by
                rw [split, List.length_append]
                omega
              simp only [List.length_cons, Checked.done.injEq, Prod.mk.injEq]
              constructor
              · rw [high, Nat.mul_assoc, Nat.add_assoc, ← Nat.mul_add]
              · omega

end Groups

section Fields

variable {before bytes rest : List UInt8}

theorem readVarint_of_ok {value : ℕ} (taken : takeVarint bytes = .ok (value, rest)) :
    ∃ used, bytes = used ++ rest ∧
      readVarint (before ++ bytes) before.length = .done (value, (before ++ used).length) := by
  rcases takeVarint_suffix taken with ⟨used, _, split⟩
  refine ⟨used, split, ?_⟩
  rcases bind_eq_ok taken with ⟨⟨whole, after⟩, found, same⟩
  cases same
  rw [readVarint, readGroups_eq (by omega : 0 + 7 * (9 + 1) = 70) (Nat.two_pow_pos 0), found]
  simp [split]

theorem readVarint_of_error {fault : Fault} (stuck : takeVarint bytes = .error fault) :
    readVarint (before ++ bytes) before.length = .refused := by
  rw [readVarint, readGroups_eq (by omega : 0 + 7 * (9 + 1) = 70) (Nat.two_pow_pos 0)]
  rw [takeVarint] at stuck
  cases found : takeGroups 10 bytes with
  | error other => rfl
  | ok result =>
      rw [found] at stuck
      cases stuck

theorem takeVarint_lt {value : ℕ} (taken : takeVarint bytes = .ok (value, rest)) :
    value < 2 ^ 64 := by
  rcases bind_eq_ok taken with ⟨⟨whole, after⟩, _, same⟩
  cases same
  exact Nat.mod_lt _ (Nat.two_pow_pos 64)

/-- The announced bytes are there. -/
theorem readLenDelim_of_le {announced : ℕ} (short : (before ++ bytes).length < 2 ^ 63)
    (taken : takeVarint bytes = .ok (announced, rest)) (enough : announced ≤ rest.length) :
    ∃ used, bytes = used ++ rest.drop announced ∧
      readLenDelim (before ++ bytes) before.length =
        .done (rest.take announced, (before ++ used).length) := by
  rcases @readVarint_of_ok before _ _ _ taken with ⟨header, split, read⟩
  have inside : (before ++ header).length + announced ≤ (before ++ bytes).length := by
    simp only [split, List.length_append]
    omega
  have stop : ((before ++ header).length + announced) % 2 ^ 64 =
      (before ++ header).length + announced := Nat.mod_eq_of_lt (by omega)
  refine ⟨header ++ rest.take announced, ?_, ?_⟩
  · rw [List.append_assoc, List.take_append_drop, split]
  · have whole : before ++ bytes = (before ++ header) ++ rest := by
      rw [split, List.append_assoc]
    have ending : (before ++ (header ++ rest.take announced)).length =
        (before ++ header).length + announced := by
      simp only [List.length_append, List.length_take]
      omega
    rw [readLenDelim, read, Checked.done_bind]
    simp only [stop]
    rw [Checked.refuseIf_of_not (Nat.not_lt.mpr inside), Checked.done_bind, slice,
      if_pos ⟨Nat.le_add_right _ _, inside⟩, Checked.done_bind, whole, List.take_length_add_append,
      List.drop_left, ending]
    rfl

/-- Bytes are missing, or the sum wraps and the range runs backwards. -/
theorem readLenDelim_of_lt {announced : ℕ} (short : (before ++ bytes).length < 2 ^ 63)
    (taken : takeVarint bytes = .ok (announced, rest)) (missing : rest.length < announced) :
    readLenDelim (before ++ bytes) before.length =
      if (before ++ bytes).length - rest.length + announced < 2 ^ 64 then .refused
      else .panicked := by
  rcases @readVarint_of_ok before _ _ _ taken with ⟨header, split, read⟩
  have announced_lt := takeVarint_lt taken
  have position : (before ++ bytes).length - rest.length = (before ++ header).length := by
    simp only [split, List.length_append]
    omega
  have inside : (before ++ header).length ≤ (before ++ bytes).length := by
    rw [← position]
    exact Nat.sub_le _ _
  have beyond : (before ++ bytes).length < (before ++ header).length + announced := by
    omega
  rw [readLenDelim, read, Checked.done_bind, position]
  simp only
  by_cases fits : (before ++ header).length + announced < 2 ^ 64
  · rw [if_pos fits, Nat.mod_eq_of_lt fits, refuseIf, if_pos beyond]
    rfl
  · have wrapped :
        ((before ++ header).length + announced) % 2 ^ 64 < (before ++ header).length := by omega
    rw [if_neg fits, Checked.refuseIf_of_not (by omega), Checked.done_bind, slice,
      if_neg (fun ordered => Nat.not_le.mpr wrapped ordered.1)]
    rfl

/-- How a reader ends when there is nothing further to read -/
def stoppedBy {Value : Type} (size : ℕ) : Fault → Checked (Option Value)
  | .unended => .refused
  | .missing left announced => if size - left + announced < 2 ^ 64 then .refused else .panicked
  | .unread => .done none

theorem readPayload_of_ok {wireType : ℕ} {payload : Payload}
    (short : (before ++ bytes).length < 2 ^ 63)
    (taken : takePayload wireType bytes = .ok (payload, rest)) :
    ∃ used, bytes = used ++ rest ∧
      readPayload (before ++ bytes) wireType before.length =
        .done (some (payload, (before ++ used).length)) := by
  rw [takePayload.eq_def] at taken
  split at taken
  · rcases bind_eq_ok taken with ⟨⟨value, after⟩, found, same⟩
    cases same
    rcases @readVarint_of_ok before _ _ _ found with ⟨used, split, read⟩
    exact ⟨used, split, by rw [readPayload, read]; rfl⟩
  · split at taken
    · rename_i eight
      cases taken
      refine ⟨bytes.take 8, (List.take_append_drop 8 bytes).symm, ?_⟩
      rw [readPayload, if_neg (by simp only [List.length_append]; omega), List.drop_left]
      simp [eight]
    · cases taken
  · rcases bind_eq_ok taken with ⟨⟨announced, after⟩, found, same⟩
    simp only at same
    split at same
    · rename_i enough
      cases same
      rcases readLenDelim_of_le short found enough with ⟨used, split, read⟩
      exact ⟨used, split, by rw [readPayload, read]; rfl⟩
    · cases same
  · split at taken
    · rename_i four
      cases taken
      refine ⟨bytes.take 4, (List.take_append_drop 4 bytes).symm, ?_⟩
      rw [readPayload, if_neg (by simp only [List.length_append]; omega), List.drop_left]
      simp [four]
    · cases taken
  · cases taken

theorem readPayload_of_error {wireType : ℕ} {fault : Fault}
    (short : (before ++ bytes).length < 2 ^ 63)
    (stuck : takePayload wireType bytes = .error fault) :
    readPayload (before ++ bytes) wireType before.length =
      stoppedBy (before ++ bytes).length fault := by
  rw [takePayload.eq_def] at stuck
  split at stuck
  · cases found : takeVarint bytes with
    | error other =>
        rw [found] at stuck
        cases stuck
        rw [readPayload, readVarint_of_error found, takeVarint_error found]
        rfl
    | ok taken =>
        rw [found] at stuck
        cases stuck
  · split at stuck
    · cases stuck
    · cases stuck
      rw [readPayload, if_pos (by simp only [List.length_append]; omega)]
      rfl
  · cases found : takeVarint bytes with
    | error other =>
        rw [found] at stuck
        cases stuck
        rw [readPayload, readLenDelim, readVarint_of_error found, takeVarint_error found]
        rfl
    | ok taken =>
        rw [found] at stuck
        change (if taken.1 ≤ taken.2.length then _ else _) = _ at stuck
        split at stuck
        · cases stuck
        · rename_i missing
          cases stuck
          rw [readPayload, readLenDelim_of_lt short found (Nat.not_le.mp missing), stoppedBy]
          split
          · rfl
          · rfl
  · split at stuck
    · cases stuck
    · cases stuck
      rw [readPayload, if_pos (by simp only [List.length_append]; omega)]
      rfl
  · rename_i other
    cases stuck
    rw [readPayload.eq_def]
    split
    · contradiction
    · contradiction
    · contradiction
    · contradiction
    · rfl

theorem tag_kind (tag : ℕ) : tag &&& 7 = tag % 8 :=
  Nat.and_two_pow_sub_one_eq_mod tag 3

theorem tag_number (tag : ℕ) : tag >>> 3 = tag / 8 :=
  Nat.shiftRight_eq_div_pow tag 3

theorem readField_of_ok {field : Field} (short : (before ++ bytes).length < 2 ^ 63)
    (taken : takeField bytes = .ok (field, rest)) :
    ∃ used, bytes = used ++ rest ∧
      readField (before ++ bytes) before.length =
        .done (some (field, (before ++ used).length)) := by
  rcases bind_eq_ok taken with ⟨⟨tag, after⟩, tagged, taken⟩
  rcases bind_eq_ok taken with ⟨⟨payload, remaining⟩, found, same⟩
  cases same
  rcases @readVarint_of_ok before _ _ _ tagged with ⟨header, split, read⟩
  have whole : before ++ bytes = (before ++ header) ++ after := by
    rw [split, List.append_assoc]
  rw [whole] at short
  rcases readPayload_of_ok short found with ⟨used, parted, reads⟩
  refine ⟨header ++ used, by rw [split, parted, List.append_assoc], ?_⟩
  rw [readField, read, Checked.done_bind, whole, ← List.append_assoc before header used]
  simp only [tag_kind, tag_number, reads]
  rfl

theorem readField_of_error {fault : Fault} (short : (before ++ bytes).length < 2 ^ 63)
    (stuck : takeField bytes = .error fault) :
    readField (before ++ bytes) before.length = stoppedBy (before ++ bytes).length fault := by
  cases tagged : takeVarint bytes with
  | error other =>
      rw [takeField, tagged] at stuck
      cases stuck
      rw [readField, readVarint_of_error tagged, takeVarint_error tagged]
      rfl
  | ok taken =>
      rcases taken with ⟨tag, after⟩
      rcases @readVarint_of_ok before _ _ _ tagged with ⟨header, split, read⟩
      have whole : before ++ bytes = (before ++ header) ++ after := by
        rw [split, List.append_assoc]
      rw [whole] at short
      rw [takeField, tagged] at stuck
      cases found : takePayload (tag % 8) after with
      | ok result =>
          change takePayload (tag % 8) after >>= _ = _ at stuck
          rw [found] at stuck
          cases stuck
      | error other =>
          change takePayload (tag % 8) after >>= _ = _ at stuck
          rw [found] at stuck
          cases stuck
          rw [readField, read, Checked.done_bind, whole]
          simp only [tag_kind, readPayload_of_error short found]
          cases fault with
          | unended | unread => rfl
          | missing left announced =>
              simp only [stoppedBy]
              split
              · rfl
              · rfl

end Fields

section Walk

variable {State : Type}

/-- How the loop ends behind the last field which it read -/
def endWalk (size : ℕ) (state : State) : Option Fault → Checked (Bool × State)
  | none | some .unread => .done (false, state)
  | some .unended => .done (true, state)
  | some (.missing left announced) =>
      if size - left + announced < 2 ^ 64 then .done (true, state) else .panicked

theorem walk_step (handle : State → Field → Checked State) {buf : List UInt8} {pos : ℕ}
    (inside : pos < buf.length) (state : State) :
    walk buf handle pos state =
      match readField buf pos with
      | .panicked => .panicked
      | .refused => .done (true, state)
      | .done none => .done (false, state)
      | .done (some (field, next)) =>
          handle state field >>= fun state => walk buf handle next state := by
  rw [walk, if_pos inside]
  split
  all_goals
    rename_i found
    rw [found]

theorem walk_eq (handle : State → Field → Checked State) {before bytes : List UInt8}
    (short : (before ++ bytes).length < 2 ^ 63) (state : State) :
    walk (before ++ bytes) handle before.length state =
      ((scan bytes).1.foldlM handle state >>= fun state =>
        endWalk (before ++ bytes).length state (scan bytes).2) := by
  induction size : bytes.length using Nat.strong_induction_on generalizing before bytes state with
  | _ size ih =>
  by_cases empty : bytes = []
  · rw [empty, walk, if_neg (by simp), scan_nil]
    rfl
  · have inside : before.length < (before ++ bytes).length := by
      have positive := List.length_pos_iff.mpr empty
      rw [List.length_append]
      omega
    rw [walk_step handle inside]
    cases taken : takeField bytes with
    | error fault =>
        rw [scan_of_error empty taken, readField_of_error short taken]
        cases fault with
        | unended | unread => rfl
        | missing left announced =>
            simp only [stoppedBy, endWalk, List.foldlM_nil, Checked.pure_eq, Checked.done_bind]
            by_cases fits : (before ++ bytes).length - left + announced < 2 ^ 64
            · rw [if_pos fits, if_pos fits]
            · rw [if_neg fits, if_neg fits]
    | ok result =>
        rcases result with ⟨field, rest⟩
        rcases readField_of_ok short taken with ⟨used, split, read⟩
        have whole : before ++ bytes = (before ++ used) ++ rest := by
          rw [split, List.append_assoc]
        rw [scan_of_ok taken, List.foldlM_cons, read]
        simp only
        cases handle state field with
        | refused | panicked => rfl
        | done state =>
            rw [whole] at short ⊢
            exact ih rest.length (size ▸ takeField_length taken) short state rfl

end Walk

/-!
## Messages and lists

The loop over the bytes of a message is a fold over its fields, and the loop over a
file one over its entries.
-/

section Messages

variable {State : Type} {fields : List Field} {bytes : List UInt8}

theorem walk_of_encodes (handle : State → Field → Checked State) (encoded : Encodes fields bytes)
    (short : bytes.length < 2 ^ 63) (start : State) :
    walk bytes handle 0 start =
      (fields.foldlM handle start >>= fun state => .done (false, state)) := by
  have folded := @walk_eq _ handle [] bytes short start
  rw [List.nil_append, List.length_nil, scan_of_encodes encoded] at folded
  exact folded

theorem readMessage_of_encodes (handle : State → Field → Checked State)
    (encoded : Encodes fields bytes) (short : bytes.length < 2 ^ 63) (start : State) :
    readMessage bytes handle start = fields.foldlM handle start := by
  rw [readMessage, walk_of_encodes handle encoded short]
  cases fields.foldlM handle start <;> rfl

theorem readMessage_keep {keep : State → Field → State} (encoded : Encodes fields bytes)
    (short : bytes.length < 2 ^ 63) (start : State) :
    readMessage bytes (fun state field => pure (keep state field)) start =
      .done (fields.foldl keep start) := by
  rw [readMessage_of_encodes _ encoded short]
  exact Checked.foldlM_eq_done (fun _ _ _ => rfl) start

theorem length_lt_of_mem_allBytes {data : List UInt8} {number : ℕ} (encoded : Encodes fields bytes)
    (short : bytes.length < 2 ^ 63) (member : data ∈ allBytes number fields) :
    data.length < 2 ^ 63 := by
  apply Nat.lt_of_le_of_lt _ short
  apply @length_le_of_mem_scan bytes data number
  rw [scan_of_encodes encoded]
  exact mem_allBytes.mp member

end Messages

/-! ## Lists of entries -/

section Lists

variable {State Entry Message : Type} {handle : State → Field → Checked State}
  {parse : List UInt8 → Checked Message} {put : State → Message → State}
  {EncodedBy : Entry → List UInt8 → Prop} {read : Entry → Message} {fields : List Field}
  {entries : List Entry} {bytes : List UInt8}

/-- A file puts the entries which it encodes, one after the other. -/
theorem walk_of_entries
    (acts : ∀ state data, handle state ⟨1, .bytes data⟩ =
      attempt (parse data) >>= fun message => .done (message.elim state (put state)))
    (skips : ∀ state field, (∀ data, field ≠ ⟨1, .bytes data⟩) → handle state field = .done state)
    (parsed : ∀ entry data, EncodedBy entry data → data.length < 2 ^ 63 →
      parse data = .done (read entry))
    (written : Encodes fields bytes) (short : bytes.length < 2 ^ 63)
    (all : List.Forall₂ EncodedBy entries (allBytes 1 fields)) (start : State) :
    walk bytes handle 0 start =
      .done (false, entries.foldl (fun state entry => put state (read entry)) start) := by
  have lengths : ∀ data ∈ allBytes 1 fields, data.length < 2 ^ 63 := fun data member =>
    length_lt_of_mem_allBytes written short member
  let act (state : State) (field : Field) : State :=
    match field.bytes? 1 with
    | some data => (parse data).toOption.elim state (put state)
    | none => state
  have turns : ∀ state, ∀ field ∈ fields, handle state field = .done (act state field) := by
    intro state field member
    cases found : field.bytes? 1 with
    | none =>
        simp only [act, found]
        apply skips
        intro data same
        rw [Field.bytes?_eq_some.mpr same] at found
        cases found
    | some data =>
        have same := Field.bytes?_eq_some.mp found
        have inside : data ∈ allBytes 1 fields := mem_allBytes.mpr (same ▸ member)
        rcases exists_of_mem_forall₂ all inside with ⟨entry, _, encoded⟩
        simp only [act, found]
        rw [same, acts, parsed entry data encoded (lengths data inside)]
        rfl
  have nested : fields.foldl act start =
      (allBytes 1 fields).foldl (fun state data => (parse data).toOption.elim state (put state))
        start := by
    rw [allBytes, List.foldl_filterMap]
    congr 1
    funext state field
    simp only [act]
    cases field.bytes? 1 <;> rfl
  rw [walk_of_encodes handle written short, Checked.foldlM_eq_done turns, Checked.done_bind, nested]
  congr 2
  apply foldl_of_forall₂ all
  intro state entry data member encoded
  rw [parsed entry data encoded (lengths data member)]
  rfl

end Lists

section Codes

def readCode (data : List UInt8) : String :=
  codeKey (fromUtf8Lossy data)

theorem readCode_nil : readCode [] = "" := by
  rw [readCode, show ([] : List UInt8) = utf8 "".toList from rfl, fromUtf8Lossy_utf8]
  decide

theorem readCode_utf8 (code : String) : readCode (utf8 code.toList) = codeKey code := by
  rw [readCode, fromUtf8Lossy_utf8]

/-- The code of an entry is the last one of its fields. -/
theorem lastCode_eq (fields : List Field) :
    (fields.filterMap fun field => (field.bytes? 1).map readCode).getLast?.getD "" =
      readCode (lastBytes 1 fields) := by
  have last := getLast?_filterMap_map (Field.bytes? 1) readCode fields []
  rw [readCode_nil] at last
  exact last

/-- The messages of one number, each read, and of each a part kept -/
theorem filterMap_nested {Message Part : Type} (read : List UInt8 → Option Message)
    (part? : Message → Option Part) (number : ℕ) (fields : List Field) :
    (fields.filterMap fun field => ((field.bytes? number).bind read).bind part?) =
      (allBytes number fields).filterMap fun data => (read data).bind part? := by
  rw [allBytes, List.filterMap_filterMap]
  congr 1
  funext field
  rw [Option.bind_assoc]

end Codes

end Mirage.Routing
