import Mirage.Routing.CustomRules.Cidr
import Mirage.Routing.GeoFiles.Scan
import Mirage.Routing.GeoFiles.Format

/-!
# What is read of geoip.dat

A block is read with its prefix narrowed to a `u8`, which is then compared with the
width of the address.  Narrowing changes a prefix beyond a `u8`, unless what is left
of it is still the width or more.
-/

namespace Mirage.Routing

open Mirage.Foundations
open Mirage.Foundations.Checked (attempt slice)
open Mirage.Foundations.Wire

/-! ## Blocks of addresses -/

section Blocks

theorem ipv4Cidr_new_inj {address : Ipv4Addr} {first second : ℕ} (first_le : first ≤ 32)
    (second_le : second ≤ 32) :
    Ipv4Cidr.new address first = Ipv4Cidr.new address second ↔ first = second := by
  refine ⟨?_, fun same => by rw [same]⟩
  intro same
  have kept {prefixLen : ℕ} (bounded : prefixLen ≤ 32) : keptBits 32 prefixLen = prefixLen := by
    simp only [keptBits]
    split <;> omega
  apply (sharePrefix_congr_iff first_le second_le address).mp
  intro other
  rw [← kept first_le, ← contains_new, same, contains_new, kept second_le]

theorem ipv6Cidr_new_inj {address : Ipv6Addr} {first second : ℕ} (first_le : first ≤ 128)
    (second_le : second ≤ 128) :
    Ipv6Cidr.new address first = Ipv6Cidr.new address second ↔ first = second := by
  refine ⟨?_, fun same => by rw [same]⟩
  intro same
  have kept {prefixLen : ℕ} (bounded : prefixLen ≤ 128) : keptBits 128 prefixLen = prefixLen := by
    simp only [keptBits]
    split <;> omega
  apply (sharePrefix_congr_iff first_le second_le address).mp
  intro other
  rw [← kept first_le, ← contains_new6, same, contains_new6, kept second_le]

/-- What `parse_cidr_msg` makes of a prefix before it knows the address -/
def narrowed (prefixLen : ℕ) : ℕ :=
  min (prefixLen % 2 ^ 8) 128

/-- The block which is read -/
def GeoCidr.readBlock (cidr : GeoCidr) : IpCidr :=
  blockOf cidr.ip (min (narrowed cidr.prefixLen.toNat) (addressWidth cidr.ip))

theorem GeoCidr.readBlock_eq_iff (cidr : GeoCidr) : cidr.readBlock = cidr.block ↔ cidr.Narrows := by
  rcases cidr with ⟨address | address, prefixLen⟩
  · simp only [readBlock, block, blockOf, IpCidr.v4.injEq, Narrows, addressWidth, narrowed]
    rw [ipv4Cidr_new_inj (Nat.min_le_right _ _) (Nat.min_le_right _ _)]
    omega
  · simp only [readBlock, block, blockOf, IpCidr.v6.injEq, Narrows, addressWidth, narrowed]
    rw [ipv6Cidr_new_inj (Nat.min_le_right _ _) (Nat.min_le_right _ _)]
    omega

theorem cidrField_eq (ipBytes : List UInt8) (pfx : ℕ) (field : Field) :
    cidrField (ipBytes, pfx) field =
      ((field.bytes? 1).getD ipBytes, ((field.varint? 2).map narrowed).getD pfx) := by
  rw [cidrField.eq_def]
  split
  · rename_i same
    cases same
    rfl
  · rename_i same
    cases same
    rfl
  · rename_i field _ _ not_ip not_prefix
    rw [Field.bytes?_eq_none (fun data => not_ip _ _ data rfl),
      Field.varint?_eq_none (fun value => not_prefix _ _ value rfl)]
    rfl

theorem foldl_cidrField (fields : List Field) :
    fields.foldl cidrField ([], 0) = (lastBytes 1 fields, narrowed (lastVarint 2 fields)) := by
  rw [foldl_prod cidrField_eq, foldl_getD, foldl_getD]
  exact Prod.ext rfl (getLast?_filterMap_map (Field.varint? 2) narrowed fields 0)

/-- Four octets are those of the address which they are put together to. -/
theorem exists_octets (address : Ipv4Addr) :
    ∃ a b c d : UInt8, addressBytes (.v4 address) = [a, b, c, d] ∧
      ipv4 a.toNat b.toNat c.toNat d.toNat = address := by
  have value := ofBigEndian_bigEndian 4 address.toNat (by simpa using address.isLt)
  match octets : bigEndian 4 address.toNat, bigEndian_length 4 address.toNat with
  | [a, b, c, d], _ =>
      refine ⟨a, b, c, d, octets, ?_⟩
      rw [octets] at value
      simp only [ofBigEndian, List.foldl_cons, List.foldl_nil, Nat.zero_mul, Nat.zero_add] at value
      rw [ipv4, value, BitVec.ofNat_toNat, BitVec.setWidth_eq]

theorem parseCidrMsg_of_encoded {cidr : GeoCidr} {bytes : List UInt8}
    (encoded : cidr.EncodedBy bytes) (short : bytes.length < 2 ^ 63) :
    parseCidrMsg bytes = .done cidr.readBlock := by
  rcases encoded with ⟨fields, written, ip, prefixLen⟩
  rw [parseCidrMsg, readMessage_keep written short, foldl_cidrField, Checked.done_bind, prefixLen]
  rcases cidr with ⟨address | address, prefixLen⟩
  · rcases exists_octets address with ⟨a, b, c, d, octets, value⟩
    rw [ip, octets]
    change Checked.done (IpCidr.v4 (Ipv4Cidr.new (ipv4 a.toNat b.toNat c.toNat d.toNat) _)) = _
    rw [value]
    rfl
  · have sixteen : (addressBytes (.v6 address)).length = 16 := bigEndian_length 16 address.toNat
    have value : ofBigEndian (addressBytes (.v6 address)) = address.toNat :=
      ofBigEndian_bigEndian 16 address.toNat (by simpa using address.isLt)
    have whole : slice (addressBytes (.v6 address)) 0 16 = .done (addressBytes (.v6 address)) := by
      rw [slice, if_pos ⟨Nat.zero_le _, Nat.le_of_eq sixteen.symm⟩, List.drop_zero,
        List.take_of_length_le (Nat.le_of_eq sixteen)]
    rw [ip]
    simp only
    rw [if_neg (by omega), if_pos sixteen, whole, Checked.done_bind, value, BitVec.ofNat_toNat,
      BitVec.setWidth_eq]
    rfl

end Blocks

/-! ## Entries of addresses -/

section GeoIps

variable {fields : List Field} {bytes : List UInt8}

/-- A turn of the loop over the fields of an entry -/
def geoipStep (state : String × List Ipv4Cidr × List Ipv6Cidr) (field : Field) :
    String × List Ipv4Cidr × List Ipv6Cidr :=
  let cidr := (field.bytes? 2).bind fun data => (parseCidrMsg data).toOption
  (((field.bytes? 1).map readCode).getD state.1, state.2.1 ++ (cidr.bind IpCidr.v4?).toList,
    state.2.2 ++ (cidr.bind IpCidr.v6?).toList)

theorem geoipField_eq (state : String × List Ipv4Cidr × List Ipv6Cidr) {field : Field}
    (fine : ∀ data, field = ⟨2, .bytes data⟩ → parseCidrMsg data ≠ .panicked) :
    geoipField state field = .done (geoipStep state field) := by
  rw [geoipField.eq_def]
  split
  · simp [geoipStep, Field.bytes?, readCode]
  · rename_i code v4Cidrs v6Cidrs data
    rw [Checked.attempt_of_ne_panicked (fine data rfl), Checked.done_bind]
    simp only [geoipStep, Field.bytes?, if_pos, Option.bind_some]
    rcases (parseCidrMsg data).toOption with _ | cidr | cidr
    · simp
    · simp [IpCidr.v4?, IpCidr.v6?]
    · simp [IpCidr.v4?, IpCidr.v6?]
  · rename_i not_code not_cidr
    rw [geoipStep, Field.bytes?_eq_none (fun data => not_code _ _ data rfl),
      Field.bytes?_eq_none (fun data => not_cidr _ _ _ data rfl)]
    simp

theorem foldl_geoipStep (fields : List Field) :
    fields.foldl geoipStep ("", [], []) =
      (readCode (lastBytes 1 fields),
        (allBytes 2 fields).filterMap fun data =>
          (parseCidrMsg data).toOption.bind IpCidr.v4?,
        (allBytes 2 fields).filterMap fun data =>
          (parseCidrMsg data).toOption.bind IpCidr.v6?) := by
  let cidr? (field : Field) : Option IpCidr :=
    (field.bytes? 2).bind fun data => (parseCidrMsg data).toOption
  let v4Step (cidrs : List Ipv4Cidr) (field : Field) : List Ipv4Cidr :=
    cidrs ++ ((cidr? field).bind IpCidr.v4?).toList
  let v6Step (cidrs : List Ipv6Cidr) (field : Field) : List Ipv6Cidr :=
    cidrs ++ ((cidr? field).bind IpCidr.v6?).toList
  have outer : ∀ code lists field, geoipStep (code, lists) field =
      (((field.bytes? 1).map readCode).getD code,
        (v4Step lists.1 field, v6Step lists.2 field)) := fun _ _ _ => rfl
  have inner : ∀ v4 v6 field,
      (fun lists field => (v4Step lists.1 field, v6Step lists.2 field)) (v4, v6) field =
        (v4Step v4 field, v6Step v6 field) := fun _ _ _ => rfl
  rw [foldl_prod outer, foldl_prod inner, foldl_getD, lastCode_eq, foldl_toList, foldl_toList,
    List.nil_append, List.nil_append, filterMap_nested, filterMap_nested]

/-- The entry as it is read -/
def GeoIp.read (entry : GeoIp) : String × List Ipv4Cidr × List Ipv6Cidr :=
  (codeKey entry.code, entry.cidrs.filterMap fun cidr => cidr.readBlock.v4?,
    entry.cidrs.filterMap fun cidr => cidr.readBlock.v6?)

theorem parseGeoipEntry_of_encoded {entry : GeoIp} (encoded : entry.EncodedBy bytes)
    (short : bytes.length < 2 ^ 63) : parseGeoipEntry bytes = .done entry.read := by
  rcases encoded with ⟨fields, written, code, cidrs⟩
  have parsed : ∀ cidr, ∀ data ∈ allBytes 2 fields, GeoCidr.EncodedBy cidr data →
      parseCidrMsg data = .done cidr.readBlock := by
    intro cidr data member encoded
    exact parseCidrMsg_of_encoded encoded (length_lt_of_mem_allBytes written short member)
  have fine : ∀ data, ⟨2, .bytes data⟩ ∈ fields → parseCidrMsg data ≠ .panicked := by
    intro data member
    rcases exists_of_mem_forall₂ cidrs (mem_allBytes.mpr member) with ⟨cidr, _, encoded⟩
    rw [parsed cidr data (mem_allBytes.mpr member) encoded]
    nofun
  have kept {Part : Type} (part? : IpCidr → Option Part) :
      ((allBytes 2 fields).filterMap fun data => (parseCidrMsg data).toOption.bind part?) =
        entry.cidrs.filterMap fun cidr => part? cidr.readBlock := by
    apply filterMap_of_forall₂ cidrs
    intro cidr data member encoded
    rw [parsed cidr data member encoded]
    rfl
  rw [parseGeoipEntry, readMessage_of_encodes _ written short, Checked.foldlM_eq_done
    (fun state field member => geoipField_eq state fun data same => fine data (same ▸ member)),
    Checked.done_bind, foldl_geoipStep, code, readCode_utf8, kept, kept]
  simp only
  rw [Checked.refuseIf_of_not entry.named]
  rfl

/-- A list which is put into a table, unless it is empty -/
def nonempty {Value : Type} (list : List Value) : Option (List Value) :=
  if list.isEmpty then none else some list

theorem nonempty_getD {Value : Type} (list : List Value) : (nonempty list).getD [] = list := by
  cases list <;> rfl

theorem insert_nonempty {Value : Type} (map : FiniteMap String (List Value)) (code : String)
    (list : List Value) :
    (if list.isEmpty then map else map.insert code list) = map.insertSome code (nonempty list) := by
  cases list <;> rfl

def putIp (maps : IpTables) (entry : String × List Ipv4Cidr × List Ipv6Cidr) : IpTables :=
  (maps.1.insertSome entry.1 (nonempty entry.2.1), maps.2.insertSome entry.1 (nonempty entry.2.2))

/-- The tables of a list as it is read -/
def GeoIpList.read (list : GeoIpList) : IpTables :=
  (.collect (fun entry => codeKey entry.code) (fun entry => nonempty entry.read.2.1) list.1 ∅,
    .collect (fun entry => codeKey entry.code) (fun entry => nonempty entry.read.2.2) list.1 ∅)

theorem parseGeoipFile_of_encoded {list : GeoIpList} (encoded : list.EncodedBy bytes)
    (short : bytes.length < 2 ^ 63) : parseGeoipFile bytes = .done list.read := by
  rcases encoded with ⟨fields, written, entries⟩
  have acts : ∀ maps data, geoipListField maps ⟨1, .bytes data⟩ =
      attempt (parseGeoipEntry data) >>= fun entry => .done (entry.elim maps (putIp maps)) := by
    intro maps data
    rw [geoipListField]
    cases parseGeoipEntry data with
    | done entry => simp only [attempt, Checked.done_bind, insert_nonempty, Checked.pure_eq,
        Option.elim_some, putIp]
    | refused | panicked => rfl
  have skips : ∀ maps field, (∀ data, field ≠ ⟨1, .bytes data⟩) →
      geoipListField maps field = .done maps := by
    intro maps field other
    rw [geoipListField.eq_def]
    split
    · exact absurd rfl (other _)
    · rfl
  rw [parseGeoipFile, walk_of_entries acts skips
    (fun entry data encoded short => parseGeoipEntry_of_encoded encoded short) written short
    entries, Checked.done_bind]
  simp only [Checked.pure_eq, Checked.done.injEq]
  exact foldl_prod (fun _ _ _ => rfl) list.1 ∅ ∅

theorem readBlocks_eq_iff (cidrs : List GeoCidr) :
    ((cidrs.filterMap fun cidr => cidr.readBlock.v4?) =
          cidrs.filterMap (fun cidr => cidr.block.v4?) ∧
        (cidrs.filterMap fun cidr => cidr.readBlock.v6?) =
          cidrs.filterMap fun cidr => cidr.block.v6?) ↔
      ∀ cidr ∈ cidrs, cidr.Narrows := by
  induction cidrs with
  | nil => exact iff_of_true ⟨rfl, rfl⟩ nofun
  | cons cidr cidrs ih =>
      rw [List.forall_mem_cons, ← ih, ← GeoCidr.readBlock_eq_iff]
      rcases cidr with ⟨address | address, prefixLen⟩
      · simp only [GeoCidr.readBlock, GeoCidr.block, blockOf, List.filterMap_cons, IpCidr.v4?,
          IpCidr.v6?, List.cons.injEq, IpCidr.v4.injEq]
        exact and_assoc
      · simp only [GeoCidr.readBlock, GeoCidr.block, blockOf, List.filterMap_cons, IpCidr.v4?,
          IpCidr.v6?, List.cons.injEq, IpCidr.v6.injEq]
        exact and_left_comm

theorem GeoIpList.lookup_read (list : GeoIpList) {entry : GeoIp} (member : entry ∈ list.1) :
    (list.read.1.lookup (codeKey entry.code)).getD [] =
        (entry.cidrs.filterMap fun cidr => cidr.readBlock.v4?) ∧
      (list.read.2.lookup (codeKey entry.code)).getD [] =
        entry.cidrs.filterMap fun cidr => cidr.readBlock.v6? := by
  constructor
  · rw [GeoIpList.read, FiniteMap.lookup_collect list.2 (fun _ _ => rfl) member, nonempty_getD]
    rfl
  · rw [GeoIpList.read, FiniteMap.lookup_collect list.2 (fun _ _ => rfl) member, nonempty_getD]
    rfl

theorem GeoIpList.code_of_lookup (list : GeoIpList) {code : String}
    (found : list.read.1.lookup code ≠ none ∨ list.read.2.lookup code ≠ none) :
    ∃ entry ∈ list.1, codeKey entry.code = code := by
  by_contra absent
  have notMem : code ∉ list.1.map fun entry => codeKey entry.code := by
    intro member
    exact absent (List.mem_map.mp member)
  rcases found with found | found
  · exact found (FiniteMap.lookup_collect_of_notMem notMem ∅)
  · exact found (FiniteMap.lookup_collect_of_notMem notMem ∅)

/-- The tables hold a list when none of its prefixes is changed by narrowing it. -/
theorem GeoIpList.heldBy_read_iff (list : GeoIpList) :
    list.HeldBy list.read ↔ ∀ entry ∈ list.1, ∀ cidr ∈ entry.cidrs, cidr.Narrows := by
  constructor
  · intro held entry member
    have read := list.lookup_read member
    rw [held.v4 entry member, held.v6 entry member] at read
    exact (readBlocks_eq_iff entry.cidrs).mp ⟨read.1.symm, read.2.symm⟩
  · intro narrows
    refine ⟨?_, ?_, fun code found => list.code_of_lookup found⟩
    · intro entry member
      rw [(list.lookup_read member).1]
      exact ((readBlocks_eq_iff entry.cidrs).mpr (narrows entry member)).1
    · intro entry member
      rw [(list.lookup_read member).2]
      exact ((readBlocks_eq_iff entry.cidrs).mpr (narrows entry member)).2

end GeoIps

end Mirage.Routing
