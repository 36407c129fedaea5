import Mirage.Foundations.Checked
import Mirage.Foundations.Encodings
import Mirage.Foundations.Sealing
import Mirage.Foundations.Wire
import Mirage.Routing.Geo

/-!
# The files geosite.dat and geoip.dat

Both files are lists of entries, which are messages of the wire format; the readers
take one field after another, keep what they know and skip the rest.  A message
with a number or a length which cannot be read is dropped whole.  A file is read up
to that place, and each of them up to a field of another wire type or one cut short.

All readers share one loop, `walk`.  A position is a `usize`, and its sum with a
length which was read wraps, as in the released build.  `compile` is `Regex::new`.
-/

namespace Mirage.Routing

open Mirage.Foundations
open Mirage.Foundations.Checked (attempt refuseIf index slice)
open Mirage.Foundations.Wire (Field Payload)

/-- A slice of bytes; its size is at most `isize::MAX`. -/
abbrev ByteSlice : Type :=
  { bytes : List UInt8 // bytes.length < 2 ^ 63 }

inductive IpCidr where
  | v4 (cidr : Ipv4Cidr)
  | v6 (cidr : Ipv6Cidr)
  deriving DecidableEq

section Wire

variable (buf : List UInt8)

/-- The loop of `read_varint` -/
def readGroups (pos result shift : ℕ) : Checked (ℕ × ℕ) :=
  if pos < buf.length then
    index buf pos >>= fun b =>
      let result := result ||| (b.toNat &&& 0x7F) <<< shift % 2 ^ 64
      if b.toNat &&& 0x80 = 0 then pure (result, pos + 1)
      else if 64 ≤ shift + 7 then .refused
      else readGroups (pos + 1) result (shift + 7)
  else .refused
termination_by buf.length - pos

def readVarint (pos : ℕ) : Checked (ℕ × ℕ) :=
  readGroups buf pos 0 0

def readLenDelim (pos : ℕ) : Checked (List UInt8 × ℕ) := do
  let (len, pos) ← readVarint buf pos
  let stop := (pos + len) % 2 ^ 64
  refuseIf (buf.length < stop)
  let data ← slice buf pos stop
  pure (data, stop)

/-- A payload and where it ends; there is none after a `break`. -/
def readPayload (wireType pos : ℕ) : Checked (Option (Payload × ℕ)) :=
  match wireType with
  | 0 => do
      let (value, pos) ← readVarint buf pos
      pure (some (.varint value, pos))
  | 2 => do
      let (data, pos) ← readLenDelim buf pos
      pure (some (.bytes data, pos))
  | 1 =>
      if buf.length < pos + 8 then pure none
      else pure (some (.fixed64 ((buf.drop pos).take 8), pos + 8))
  | 5 =>
      if buf.length < pos + 4 then pure none
      else pure (some (.fixed32 ((buf.drop pos).take 4), pos + 4))
  | _ => pure none

def readField (pos : ℕ) : Checked (Option (Field × ℕ)) := do
  let (tag, pos) ← readVarint buf pos
  let payload ← readPayload buf (tag &&& 7) pos
  pure (payload.map fun (payload, pos) => (⟨tag >>> 3, payload⟩, pos))

/-! ### Each turn of the loops goes on -/

theorem safe_readGroups (pos result shift : ℕ) :
    (readGroups buf pos result shift).Safe fun read => pos < read.2 ∧ read.2 ≤ buf.length := by
  fun_induction readGroups buf pos result shift with
  | case1 pos result shift inside ih =>
      apply Checked.safe_bind (Checked.safe_index inside)
      intro b _
      simp only
      split
      · exact ⟨Nat.lt_succ_self pos, inside⟩
      · split
        · trivial
        · apply (ih b).imp
          rintro read ⟨later, bounded⟩
          exact ⟨Nat.lt_of_succ_lt later, bounded⟩
  | case2 => trivial

/-- A number is read without a panic, and takes at least one byte. -/
theorem safe_readVarint (pos : ℕ) :
    (readVarint buf pos).Safe fun read => pos < read.2 ∧ read.2 ≤ buf.length :=
  safe_readGroups buf pos 0 0

theorem readVarint_progress {pos value next : ℕ} (read : readVarint buf pos = .done (value, next)) :
    pos < next := by
  have safe := safe_readVarint buf pos
  rw [read] at safe
  exact safe.1

theorem readLenDelim_progress {pos next : ℕ} {data : List UInt8}
    (read : readLenDelim buf pos = .done (data, next)) : pos < next := by
  rcases Checked.bind_eq_done read with ⟨⟨len, after⟩, announced, read⟩
  rcases Checked.bind_eq_done read with ⟨_, _, read⟩
  rcases Checked.bind_eq_done read with ⟨piece, sliced, same⟩
  cases same
  have later := readVarint_progress buf announced
  rw [slice] at sliced
  split at sliced
  · rename_i ordered
    exact Nat.lt_of_lt_of_le later ordered.1
  · cases sliced

theorem readPayload_progress {wireType pos next : ℕ} {payload : Payload}
    (read : readPayload buf wireType pos = .done (some (payload, next))) : pos < next := by
  rw [readPayload.eq_def] at read
  split at read
  · rcases Checked.bind_eq_done read with ⟨⟨value, stop⟩, found, same⟩
    cases same
    exact readVarint_progress buf found
  · rcases Checked.bind_eq_done read with ⟨⟨data, stop⟩, found, same⟩
    cases same
    exact readLenDelim_progress buf found
  · split at read
    · cases read
    · cases read
      omega
  · split at read
    · cases read
    · cases read
      omega
  · cases read

theorem readField_progress {pos next : ℕ} {field : Field}
    (read : readField buf pos = .done (some (field, next))) : pos < next := by
  rcases Checked.bind_eq_done read with ⟨⟨tag, after⟩, tagged, read⟩
  rcases Checked.bind_eq_done read with ⟨payload, found, same⟩
  rcases payload with _ | ⟨payload, stop⟩
  · cases same
  · cases same
    exact Nat.lt_trans (readVarint_progress buf tagged) (readPayload_progress buf found)

end Wire

/-! ## The loop -/

section Loop

variable {State : Type}

/-- The fields from a position on, and whether one of them could not be read -/
def walk (buf : List UInt8) (handle : State → Field → Checked State) (pos : ℕ) (state : State) :
    Checked (Bool × State) :=
  if pos < buf.length then
    match _ : readField buf pos with
    | .panicked => .panicked
    | .refused => .done (true, state)
    | .done none => .done (false, state)
    | .done (some (field, next)) => handle state field >>= fun state => walk buf handle next state
  else .done (false, state)
termination_by buf.length - pos
decreasing_by
  have later := readField_progress buf ‹_›
  omega

/-- The loop of a message, which gives up at a field it cannot read. -/
def readMessage (buf : List UInt8) (handle : State → Field → Checked State) (start : State) :
    Checked State := do
  let (unreadable, state) ← walk buf handle 0 start
  refuseIf (unreadable = true)
  pure state

end Loop

/-- A code as both the files and the rules are read -/
def codeKey (code : String) : String :=
  toAsciiUppercase (trim code)

/-! ## geosite.dat -/

section Geosite

variable (compile : String → Option (String → Bool))

def domainField : ℕ × String → Field → ℕ × String
  | (_, value), ⟨1, .varint v⟩ => (v, value)
  | (dtype, _), ⟨2, .bytes data⟩ => (dtype, normalize (fromUtf8Lossy data))
  | state, _ => state

def parseDomainMsg (buf : List UInt8) : Checked SiteDomain := do
  let (dtype, value) ← readMessage buf (fun state field => pure (domainField state field)) (0, "")
  refuseIf (value = "")
  match dtype with
  | 0 => pure (.keyword value)
  | 1 => pure (.regex value (compile value))
  | 2 => pure (.suffix value)
  | 3 => pure (.exact value)
  | _ => pure (.suffix value)

def geositeField : String × List SiteDomain → Field → Checked (String × List SiteDomain)
  | (_, domains), ⟨1, .bytes data⟩ => pure (codeKey (fromUtf8Lossy data), domains)
  | (code, domains), ⟨2, .bytes data⟩ => do
      let domain ← attempt (parseDomainMsg compile data)
      pure (code, domains ++ domain.toList)
  | state, _ => pure state

def parseGeositeEntry (buf : List UInt8) : Checked (String × List SiteDomain) := do
  let (code, domains) ← readMessage buf (geositeField compile) ("", [])
  refuseIf (code = "")
  pure (code, domains)

def geositeListField (map : FiniteMap String (List SiteDomain)) :
    Field → Checked (FiniteMap String (List SiteDomain))
  | ⟨1, .bytes data⟩ => do
      match ← attempt (parseGeositeEntry compile data) with
      | some (code, domains) => pure (map.insert code domains)
      | none => pure map
  | _ => pure map

def parseGeositeFile (data : List UInt8) : Checked (FiniteMap String (List SiteDomain)) := do
  let (_, map) ← walk data (geositeListField compile) 0 ∅
  pure map

end Geosite

/-! ## geoip.dat -/

/-- The prefix is narrowed to a `u8` before it is bounded. -/
def cidrField : List UInt8 × ℕ → Field → List UInt8 × ℕ
  | (_, pfx), ⟨1, .bytes data⟩ => (data, pfx)
  | (ipBytes, _), ⟨2, .varint v⟩ => (ipBytes, min (v % 2 ^ 8) 128)
  | state, _ => state

def parseCidrMsg (buf : List UInt8) : Checked IpCidr := do
  let (ipBytes, pfx) ← readMessage buf (fun state field => pure (cidrField state field)) ([], 0)
  if ipBytes.length = 4 then
    let a ← index ipBytes 0
    let b ← index ipBytes 1
    let c ← index ipBytes 2
    let d ← index ipBytes 3
    pure (.v4 (Ipv4Cidr.new (ipv4 a.toNat b.toNat c.toNat d.toNat) (min pfx 32)))
  else if ipBytes.length = 16 then
    let octets ← slice ipBytes 0 16
    pure (.v6 (Ipv6Cidr.new (BitVec.ofNat 128 (ofBigEndian octets)) (min pfx 128)))
  else .refused

def geoipField : String × List Ipv4Cidr × List Ipv6Cidr → Field →
    Checked (String × List Ipv4Cidr × List Ipv6Cidr)
  | (_, cidrs), ⟨1, .bytes data⟩ => pure (codeKey (fromUtf8Lossy data), cidrs)
  | (code, v4Cidrs, v6Cidrs), ⟨2, .bytes data⟩ => do
      match ← attempt (parseCidrMsg data) with
      | some (.v4 v4) => pure (code, v4Cidrs ++ [v4], v6Cidrs)
      | some (.v6 v6) => pure (code, v4Cidrs, v6Cidrs ++ [v6])
      | none => pure (code, v4Cidrs, v6Cidrs)
  | state, _ => pure state

def parseGeoipEntry (buf : List UInt8) : Checked (String × List Ipv4Cidr × List Ipv6Cidr) := do
  let (code, v4Cidrs, v6Cidrs) ← readMessage buf geoipField ("", [], [])
  refuseIf (code = "")
  pure (code, v4Cidrs, v6Cidrs)

/-- The blocks of both families by code -/
abbrev IpTables : Type :=
  FiniteMap String (List Ipv4Cidr) × FiniteMap String (List Ipv6Cidr)

/-- A family without a block leaves its table as it is. -/
def geoipListField (maps : IpTables) : Field → Checked IpTables
  | ⟨1, .bytes data⟩ => do
      match ← attempt (parseGeoipEntry data) with
      | some (code, v4, v6) =>
          pure (if v4.isEmpty then maps.1 else maps.1.insert code v4,
            if v6.isEmpty then maps.2 else maps.2.insert code v6)
      | none => pure maps
  | _ => pure maps

def parseGeoipFile (data : List UInt8) : Checked IpTables := do
  let (_, maps) ← walk data geoipListField 0 (∅, ∅)
  pure maps

end Mirage.Routing
