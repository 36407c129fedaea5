import Mirage.Routing.GeoFiles.Scan

/-!
# Which bytes the readers of the Geo files survive

A reader panics at a length which, added to its position, is beyond `usize`: the
sum wraps, passes the comparison with the size of the file and makes a range which
runs backwards.  Nothing else makes it panic, and every loop goes on to its end.
-/

namespace Mirage.Routing

open Mirage.Foundations
open Mirage.Foundations.Checked (attempt index)
open Mirage.Foundations.Wire

/-- The length at a position, if there is one, does not lead beyond `usize`. -/
def LengthFits (buf : List UInt8) (pos : ℕ) : Prop :=
  ∀ announced rest, takeVarint (buf.drop pos) = .ok (announced, rest) →
    buf.length - rest.length + announced < 2 ^ 64

/-- Neither does the length at which the fields of a message end, if they end at one. -/
def Fits (buf : List UInt8) : Prop :=
  ∀ left announced, (scan buf).2 = some (.missing left announced) →
    buf.length - left + announced < 2 ^ 64

/-- The message fits, and so does every message in it. -/
def EntryFits (buf : List UInt8) : Prop :=
  Fits buf ∧ ∀ data, ⟨2, .bytes data⟩ ∈ (scan buf).1 → Fits data

def FileFits (buf : List UInt8) : Prop :=
  Fits buf ∧ ∀ data, ⟨1, .bytes data⟩ ∈ (scan buf).1 → EntryFits data

section Lengths

variable {buf : List UInt8}

theorem lengthFits_of_error {pos : ℕ} {fault : Fault}
    (stuck : takeVarint (buf.drop pos) = .error fault) : LengthFits buf pos := by
  intro announced rest taken
  rw [stuck] at taken
  cases taken

theorem lengthFits_iff {pos announced : ℕ} {rest : List UInt8}
    (taken : takeVarint (buf.drop pos) = .ok (announced, rest)) :
    LengthFits buf pos ↔ buf.length - rest.length + announced < 2 ^ 64 := by
  constructor
  · intro fits
    exact fits announced rest taken
  · intro fits other after found
    rw [taken] at found
    cases found
    exact fits

theorem readLenDelim_ne_panicked_iff (short : buf.length < 2 ^ 63) (pos : ℕ) :
    readLenDelim buf pos ≠ .panicked ↔ LengthFits buf pos := by
  by_cases inside : pos ≤ buf.length
  · have split : buf = buf.take pos ++ buf.drop pos := (List.take_append_drop pos buf).symm
    have position : pos = (buf.take pos).length := by
      rw [List.length_take, Nat.min_eq_left inside]
    have whole := short
    rw [split] at whole
    cases taken : takeVarint (buf.drop pos) with
    | error fault =>
        have read := @readVarint_of_error (buf.take pos) _ _ taken
        rw [← split, ← position] at read
        rw [readLenDelim, read]
        exact iff_of_true Checked.refused_ne_panicked (lengthFits_of_error taken)
    | ok result =>
        rcases result with ⟨announced, rest⟩
        rw [lengthFits_iff taken]
        by_cases enough : announced ≤ rest.length
        · rcases readLenDelim_of_le whole taken enough with ⟨used, _, read⟩
          have bounded : rest.length ≤ buf.length := by
            rcases takeVarint_suffix taken with ⟨header, _, parted⟩
            rw [split, parted, List.length_append, List.length_append]
            omega
          rw [← split, ← position] at read
          rw [read]
          exact iff_of_true (Checked.done_ne_panicked _) (by omega)
        · have read := readLenDelim_of_lt whole taken (Nat.not_le.mp enough)
          rw [← split, ← position] at read
          rw [read]
          by_cases fits : buf.length - rest.length + announced < 2 ^ 64
          · rw [if_pos fits]
            exact iff_of_true Checked.refused_ne_panicked fits
          · rw [if_neg fits]
            exact iff_of_false (fun same => same rfl) fits
  · have read : readVarint buf pos = .refused := by
      rw [readVarint, readGroups, if_neg (by omega)]
    have nothing : takeVarint (buf.drop pos) = .error .unended := by
      rw [List.drop_eq_nil_of_le (by omega)]
      rfl
    rw [readLenDelim, read]
    exact iff_of_true Checked.refused_ne_panicked (lengthFits_of_error nothing)

end Lengths

section Loops

variable {State : Type} {handle : State → Field → Checked State} {fine : Field → Prop}
  {buf : List UInt8}

theorem fits_of_ends {ending : Option Fault} (ends : (scan buf).2 = ending)
    (other : ∀ left announced, ending ≠ some (.missing left announced)) : Fits buf := by
  intro left announced found
  rw [ends] at found
  exact absurd found (other left announced)

theorem fits_iff {left announced : ℕ} (ends : (scan buf).2 = some (.missing left announced)) :
    Fits buf ↔ buf.length - left + announced < 2 ^ 64 := by
  constructor
  · intro fits
    exact fits left announced ends
  · intro fits left' announced' found
    rw [ends] at found
    cases found
    exact fits

theorem endWalk_ne_panicked_iff (state : State) :
    endWalk buf.length state (scan buf).2 ≠ .panicked ↔ Fits buf := by
  cases ends : (scan buf).2 with
  | none =>
      apply iff_of_true (Checked.done_ne_panicked _)
      apply fits_of_ends ends
      intro left announced missing
      cases missing
  | some fault =>
      cases fault with
      | unended | unread =>
          apply iff_of_true (Checked.done_ne_panicked _)
          apply fits_of_ends ends
          intro left announced missing
          cases missing
      | missing left announced =>
          rw [fits_iff ends, endWalk]
          by_cases fits : buf.length - left + announced < 2 ^ 64
          · rw [if_pos fits]
            exact iff_of_true (Checked.done_ne_panicked _) fits
          · rw [if_neg fits]
            exact iff_of_false (fun same => same rfl) fits

/-- The loop survives when each of its turns does and the fields end at no length too large. -/
theorem walk_ne_panicked_iff (short : buf.length < 2 ^ 63)
    (goes_on : ∀ state field, handle state field ≠ .refused)
    (safe : ∀ state, ∀ field ∈ (scan buf).1, handle state field ≠ .panicked ↔ fine field)
    (state : State) :
    walk buf handle 0 state ≠ .panicked ↔ Fits buf ∧ ∀ field ∈ (scan buf).1, fine field := by
  have folded := @walk_eq _ handle [] buf short state
  rw [List.nil_append, List.length_nil] at folded
  rw [folded, ← Checked.foldlM_ne_panicked_iff goes_on safe state]
  cases ran : (scan buf).1.foldlM handle state with
  | done result =>
      rw [Checked.done_bind, endWalk_ne_panicked_iff]
      exact (and_iff_left nofun).symm
  | panicked => exact iff_of_false (· rfl) (fun both => both.2 rfl)
  | refused => exact absurd ran (Checked.foldlM_ne_refused goes_on state)

theorem readMessage_ne_panicked_iff (short : buf.length < 2 ^ 63)
    (goes_on : ∀ state field, handle state field ≠ .refused)
    (safe : ∀ state, ∀ field ∈ (scan buf).1, handle state field ≠ .panicked ↔ fine field)
    (start : State) :
    readMessage buf handle start ≠ .panicked ↔ Fits buf ∧ ∀ field ∈ (scan buf).1, fine field := by
  rw [readMessage, Checked.bind_ne_panicked_iff, walk_ne_panicked_iff short goes_on safe]
  rintro ⟨unreadable, state⟩ panics
  cases unreadable with
  | false => cases panics
  | true => cases panics

/-- A loop whose turns only keep what they know -/
theorem readMessage_pure_ne_panicked_iff {keep : State → Field → State}
    (short : buf.length < 2 ^ 63) (start : State) :
    readMessage buf (fun state field => pure (keep state field)) start ≠ .panicked ↔ Fits buf := by
  have all := @readMessage_ne_panicked_iff State (fun state field => pure (keep state field))
    (fun _ => True) buf short (fun _ _ => by nofun)
    (fun _ _ _ => iff_of_true (by nofun) trivial) start
  rw [all]
  exact and_iff_left fun _ _ => trivial

/-- A loop whose turns read the messages of one number -/
theorem forall_nested_iff {number : ℕ} {property : List UInt8 → Prop} {fields : List Field} :
    (∀ field ∈ fields, ∀ data, field = ⟨number, .bytes data⟩ → property data) ↔
      ∀ data, ⟨number, .bytes data⟩ ∈ fields → property data := by
  constructor
  · intro all data member
    exact all _ member data rfl
  · rintro all _ member data rfl
    exact all data member

end Loops

section Readers

variable {compile : String → Option (String → Bool)} {buf : List UInt8}

theorem parseDomainMsg_ne_panicked_iff (short : buf.length < 2 ^ 63) :
    parseDomainMsg compile buf ≠ .panicked ↔ Fits buf := by
  rw [parseDomainMsg, Checked.bind_ne_panicked_iff, readMessage_pure_ne_panicked_iff short]
  rintro ⟨dtype, value⟩
  rw [Checked.bind_ne_panicked_iff]
  · exact Checked.refuseIf_ne_panicked _
  · intro _
    split <;> nofun

theorem parseCidrMsg_ne_panicked_iff (short : buf.length < 2 ^ 63) :
    parseCidrMsg buf ≠ .panicked ↔ Fits buf := by
  rw [parseCidrMsg, Checked.bind_ne_panicked_iff, readMessage_pure_ne_panicked_iff short]
  rintro ⟨ipBytes, pfx⟩
  apply Checked.safe_iff_not_panicked.mp
  simp only
  split
  · apply Checked.safe_bind (Checked.safe_index (by omega))
    intro a _
    apply Checked.safe_bind (Checked.safe_index (by omega))
    intro b _
    apply Checked.safe_bind (Checked.safe_index (by omega))
    intro c _
    apply Checked.safe_bind (Checked.safe_index (by omega))
    intro d _
    trivial
  · split
    · apply Checked.safe_bind (Checked.safe_slice (Nat.zero_le _) (by omega))
      intro octets _
      trivial
    · trivial

/-- A turn which tries a nested message panics when the message does. -/
theorem attempt_nested_ne_panicked_iff {Message State : Type} {parsed : Checked Message}
    {next : Option Message → Checked State} {fits : List UInt8 → Prop} {number : ℕ}
    {data : List UInt8} (survives : parsed ≠ .panicked ↔ fits data)
    (fine : ∀ message, next message ≠ .panicked) :
    attempt parsed >>= next ≠ .panicked ↔
      ∀ part, (⟨number, .bytes data⟩ : Field) = ⟨number, .bytes part⟩ → fits part := by
  rw [Checked.bind_ne_panicked_iff fine, Checked.attempt_ne_panicked_iff, survives]
  constructor
  · rintro fits _ ⟨⟩
    exact fits
  · intro fits
    exact fits data rfl

theorem geositeField_ne_refused (state : String × List SiteDomain) (field : Field) :
    geositeField compile state field ≠ .refused := by
  rw [geositeField.eq_def]
  split
  · nofun
  · exact Checked.bind_ne_refused (Checked.attempt_ne_refused _) (fun _ => by nofun)
  · nofun

theorem geositeField_ne_panicked_iff (state : String × List SiteDomain) {field : Field}
    (member : field ∈ (scan buf).1) (short : buf.length < 2 ^ 63) :
    geositeField compile state field ≠ .panicked ↔
      ∀ data, field = ⟨2, .bytes data⟩ → Fits data := by
  rw [geositeField.eq_def]
  split
  · exact iff_of_true (by nofun) (by nofun)
  · have room := Nat.lt_of_le_of_lt (length_le_of_mem_scan member) short
    exact attempt_nested_ne_panicked_iff (parseDomainMsg_ne_panicked_iff room) (fun _ => by nofun)
  · rename_i other
    exact iff_of_true (by nofun) (fun data same => absurd same (other _ _ data rfl))

theorem parseGeositeEntry_ne_panicked_iff (short : buf.length < 2 ^ 63) :
    parseGeositeEntry compile buf ≠ .panicked ↔ EntryFits buf := by
  rw [parseGeositeEntry, Checked.bind_ne_panicked_iff,
    readMessage_ne_panicked_iff short geositeField_ne_refused
      (fun state field member => geositeField_ne_panicked_iff state member short),
    forall_nested_iff, EntryFits]
  rintro ⟨code, domains⟩
  rw [Checked.bind_ne_panicked_iff (fun _ => by nofun)]
  exact Checked.refuseIf_ne_panicked _

theorem geositeListField_ne_refused (map : FiniteMap String (List SiteDomain)) (field : Field) :
    geositeListField compile map field ≠ .refused := by
  rw [geositeListField.eq_def]
  split
  · apply Checked.bind_ne_refused (Checked.attempt_ne_refused _)
    rintro (_ | entry) <;> nofun
  · nofun

theorem geositeListField_ne_panicked_iff (map : FiniteMap String (List SiteDomain)) {field : Field}
    (member : field ∈ (scan buf).1) (short : buf.length < 2 ^ 63) :
    geositeListField compile map field ≠ .panicked ↔
      ∀ data, field = ⟨1, .bytes data⟩ → EntryFits data := by
  rw [geositeListField.eq_def]
  split
  · have room := Nat.lt_of_le_of_lt (length_le_of_mem_scan member) short
    apply attempt_nested_ne_panicked_iff (parseGeositeEntry_ne_panicked_iff room)
    rintro (_ | entry) <;> nofun
  · rename_i other
    exact iff_of_true (by nofun) (fun data same => absurd same (other data))

theorem parseGeositeFile_ne_panicked_iff (short : buf.length < 2 ^ 63) :
    parseGeositeFile compile buf ≠ .panicked ↔ FileFits buf := by
  rw [parseGeositeFile, Checked.bind_ne_panicked_iff (fun _ => by nofun),
    walk_ne_panicked_iff short geositeListField_ne_refused
      (fun map field member => geositeListField_ne_panicked_iff map member short),
    forall_nested_iff, FileFits]

theorem geoipField_ne_refused (state : String × List Ipv4Cidr × List Ipv6Cidr) (field : Field) :
    geoipField state field ≠ .refused := by
  rw [geoipField.eq_def]
  split
  · nofun
  · apply Checked.bind_ne_refused (Checked.attempt_ne_refused _)
    rintro (_ | _ | _) <;> nofun
  · nofun

theorem geoipField_ne_panicked_iff (state : String × List Ipv4Cidr × List Ipv6Cidr) {field : Field}
    (member : field ∈ (scan buf).1) (short : buf.length < 2 ^ 63) :
    geoipField state field ≠ .panicked ↔ ∀ data, field = ⟨2, .bytes data⟩ → Fits data := by
  rw [geoipField.eq_def]
  split
  · exact iff_of_true (by nofun) (by nofun)
  · have room := Nat.lt_of_le_of_lt (length_le_of_mem_scan member) short
    apply attempt_nested_ne_panicked_iff (parseCidrMsg_ne_panicked_iff room)
    rintro (_ | _ | _) <;> nofun
  · rename_i other
    exact iff_of_true (by nofun) (fun data same => absurd same (other _ _ _ data rfl))

theorem parseGeoipEntry_ne_panicked_iff (short : buf.length < 2 ^ 63) :
    parseGeoipEntry buf ≠ .panicked ↔ EntryFits buf := by
  rw [parseGeoipEntry, Checked.bind_ne_panicked_iff,
    readMessage_ne_panicked_iff short geoipField_ne_refused
      (fun state field member => geoipField_ne_panicked_iff state member short),
    forall_nested_iff, EntryFits]
  rintro ⟨code, v4Cidrs, v6Cidrs⟩
  rw [Checked.bind_ne_panicked_iff (fun _ => by nofun)]
  exact Checked.refuseIf_ne_panicked _

theorem geoipListField_ne_refused (maps : IpTables) (field : Field) :
    geoipListField maps field ≠ .refused := by
  rw [geoipListField.eq_def]
  split
  · apply Checked.bind_ne_refused (Checked.attempt_ne_refused _)
    rintro (_ | entry) <;> nofun
  · nofun

theorem geoipListField_ne_panicked_iff (maps : IpTables) {field : Field}
    (member : field ∈ (scan buf).1) (short : buf.length < 2 ^ 63) :
    geoipListField maps field ≠ .panicked ↔
      ∀ data, field = ⟨1, .bytes data⟩ → EntryFits data := by
  rw [geoipListField.eq_def]
  split
  · have room := Nat.lt_of_le_of_lt (length_le_of_mem_scan member) short
    apply attempt_nested_ne_panicked_iff (parseGeoipEntry_ne_panicked_iff room)
    rintro (_ | entry) <;> nofun
  · rename_i other
    exact iff_of_true (by nofun) (fun data same => absurd same (other data))

theorem parseGeoipFile_ne_panicked_iff (short : buf.length < 2 ^ 63) :
    parseGeoipFile buf ≠ .panicked ↔ FileFits buf := by
  rw [parseGeoipFile, Checked.bind_ne_panicked_iff (fun _ => by nofun),
    walk_ne_panicked_iff short geoipListField_ne_refused
      (fun maps field member => geoipListField_ne_panicked_iff maps member short),
    forall_nested_iff, FileFits]

end Readers

/--
The readers survive exactly the bytes in which no length that they come upon leads
beyond `usize`.  A number is read from any bytes.  That every reader ends is part of
its definition: each turn of a loop moves the position on.
-/
theorem readers_never_panic_iff (compile : String → Option (String → Bool)) (buf : ByteSlice) :
    (∀ pos, readVarint buf.1 pos ≠ .panicked) ∧
      (∀ pos, readLenDelim buf.1 pos ≠ .panicked ↔ LengthFits buf.1 pos) ∧
      (parseDomainMsg compile buf.1 ≠ .panicked ↔ Fits buf.1) ∧
      (parseGeositeEntry compile buf.1 ≠ .panicked ↔ EntryFits buf.1) ∧
      (parseGeositeFile compile buf.1 ≠ .panicked ↔ FileFits buf.1) ∧
      (parseCidrMsg buf.1 ≠ .panicked ↔ Fits buf.1) ∧
      (parseGeoipEntry buf.1 ≠ .panicked ↔ EntryFits buf.1) ∧
      (parseGeoipFile buf.1 ≠ .panicked ↔ FileFits buf.1) := by
  refine ⟨?_, readLenDelim_ne_panicked_iff buf.2, parseDomainMsg_ne_panicked_iff buf.2,
    parseGeositeEntry_ne_panicked_iff buf.2, parseGeositeFile_ne_panicked_iff buf.2,
    parseCidrMsg_ne_panicked_iff buf.2, parseGeoipEntry_ne_panicked_iff buf.2,
    parseGeoipFile_ne_panicked_iff buf.2⟩
  intro pos
  exact (safe_readVarint buf.1 pos).not_panicked

/-- One entry, of a length which the position puts beyond `usize` -/
def overlongEntry : ByteSlice :=
  ⟨[0x0A, 0xFF, 0xFF, 0xFF, 0xFF, 0xFF, 0xFF, 0xFF, 0xFF, 0xFF, 0x01], by decide⟩

theorem not_fileFits_overlongEntry : ¬FileFits overlongEntry.1 := by
  intro fits
  have found : (scan overlongEntry.1).2 = some (.missing 0 (2 ^ 64 - 1)) := by decide +kernel
  exact absurd (fits.1 0 (2 ^ 64 - 1) found) (by decide)

theorem parse_overlongEntry :
    parseGeositeFile (fun _ => none) overlongEntry.1 = .panicked ∧
      parseGeoipFile overlongEntry.1 = .panicked := by
  constructor
  · by_contra survives
    exact not_fileFits_overlongEntry
      ((parseGeositeFile_ne_panicked_iff overlongEntry.2).mp survives)
  · by_contra survives
    exact not_fileFits_overlongEntry ((parseGeoipFile_ne_panicked_iff overlongEntry.2).mp survives)

end Mirage.Routing
