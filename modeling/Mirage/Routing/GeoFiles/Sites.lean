import Mirage.Routing.GeoFiles.Blocks
import Mirage.Routing.GeoFiles.Scan
import Mirage.Routing.GeoFiles.Format

/-!
# What is read of geosite.dat

The value of a domain is read without its capital letters and its trailing dots,
whether it is a name, a keyword or a pattern, and a domain of which nothing is left
is dropped.
-/

namespace Mirage.Routing

open Mirage.Foundations
open Mirage.Foundations.Checked (attempt)
open Mirage.Foundations.Wire

/-! ## Entries of domains -/

section GeoSites

variable {compile : Bool → String → Option (String → Bool)} {fields : List Field}
  {bytes : List UInt8}

theorem normalize_eq_lowercase_iff (text : String) :
    normalize text = toAsciiLowercase text ↔ endsWith text "." = false := by
  rw [show "." = String.ofList ['.'] from rfl, ← trimEndMatches_eq_iff]
  constructor
  · intro same
    have lengths := congrArg (fun text : String => text.toList.length) same
    simp only [normalize, toAsciiLowercase, trimEndMatches, String.toList_ofList, List.length_map]
      at lengths
    rw [trimEndMatches, (List.rdropWhile_prefix _ _).eq_of_length lengths, String.ofList_toList]
  · intro undotted
    rw [normalize, undotted]

def readValue (data : List UInt8) : String :=
  normalize (fromUtf8Lossy data)

theorem readValue_nil : readValue [] = "" := by
  rw [readValue, show ([] : List UInt8) = utf8 "".toList from rfl, fromUtf8Lossy_utf8]
  decide

theorem domainField_eq (dtype : ℕ) (value : String) (field : Field) :
    domainField (dtype, value) field =
      ((field.varint? 1).getD dtype, ((field.bytes? 2).map readValue).getD value) := by
  rw [domainField.eq_def]
  split
  · rename_i same
    cases same
    rfl
  · rename_i same
    cases same
    rfl
  · rename_i field _ _ not_type not_value
    rw [Field.varint?_eq_none (fun value => not_type _ _ value rfl),
      Field.bytes?_eq_none (fun data => not_value _ _ data rfl)]
    rfl

theorem foldl_domainField (fields : List Field) :
    fields.foldl domainField (0, "") = (lastVarint 1 fields, readValue (lastBytes 2 fields)) := by
  have last := getLast?_filterMap_map (Field.bytes? 2) readValue fields []
  rw [readValue_nil] at last
  rw [foldl_prod domainField_eq, foldl_getD, foldl_getD]
  exact Prod.ext rfl last

/-- The domain as it is read, unless nothing is left of its value -/
def GeoDomain.read (domain : GeoDomain) (newRegex : String → Option (String → Bool)) :
    Option SiteDomain :=
  let value := normalize domain.value
  if value = "" then none
  else
    match domain.type with
    | 0 => some (.keyword value)
    | 1 => some (.regex value (newRegex value))
    | 3 => some (.exact value)
    | _ => some (.suffix value)

theorem parseDomainMsg_of_encoded {newRegex : String → Option (String → Bool)} {domain : GeoDomain}
    (encoded : domain.EncodedBy bytes) (short : bytes.length < 2 ^ 63) :
    parseDomainMsg newRegex bytes = .ofOption (domain.read newRegex) := by
  rcases encoded with ⟨fields, written, type, value⟩
  rw [parseDomainMsg, readMessage_keep written short, foldl_domainField, Checked.done_bind, type,
    value, readValue, fromUtf8Lossy_utf8, GeoDomain.read]
  simp only [Checked.refuseIf]
  split
  · rfl
  · rcases domain.type with _ | _ | _ | _ | type <;> rfl

/-- A domain is read as what it means exactly if its value is plain. -/
theorem GeoDomain.read_means_iff (domain : GeoDomain) :
    (∃ site, domain.read (compile false) = some site ∧ domain.Means compile site) ↔
      domain.Plain compile := by
  rcases domain with ⟨type, value, named⟩
  simp only [GeoDomain.read, GeoDomain.Plain, GeoDomain.Means]
  by_cases empty : normalize value = ""
  · simp [empty]
  · rw [and_iff_right empty]
    simp only [if_neg empty]
    rcases type with _ | _ | _ | _ | type
    · rw [← normalize_eq_lowercase_iff]
      simp
    · simp
    · simp
    · simp
    · simp

variable {newRegex : String → Option (String → Bool)}

/-- A turn of the loop over the fields of an entry -/
def geositeStep (newRegex : String → Option (String → Bool)) (state : String × List SiteDomain)
    (field : Field) : String × List SiteDomain :=
  let domain := (field.bytes? 2).bind fun data => (parseDomainMsg newRegex data).toOption
  (((field.bytes? 1).map readCode).getD state.1, state.2 ++ domain.toList)

theorem geositeField_eq (state : String × List SiteDomain) {field : Field}
    (fine : ∀ data, field = ⟨2, .bytes data⟩ → parseDomainMsg newRegex data ≠ .panicked) :
    geositeField newRegex state field = .done (geositeStep newRegex state field) := by
  rw [geositeField.eq_def]
  split
  · simp [geositeStep, Field.bytes?, readCode]
  · rename_i code domains data
    rw [Checked.attempt_of_ne_panicked (fine data rfl), Checked.done_bind]
    simp [geositeStep, Field.bytes?]
  · rename_i not_code not_domain
    rw [geositeStep, Field.bytes?_eq_none (fun data => not_code _ _ data rfl),
      Field.bytes?_eq_none (fun data => not_domain _ _ data rfl)]
    simp

theorem foldl_geositeStep (fields : List Field) :
    fields.foldl (geositeStep newRegex) ("", []) =
      (readCode (lastBytes 1 fields),
        (allBytes 2 fields).filterMap fun data => (parseDomainMsg newRegex data).toOption) := by
  let domain? (field : Field) : Option SiteDomain :=
    (field.bytes? 2).bind fun data => (parseDomainMsg newRegex data).toOption
  have parts : ∀ code domains field, geositeStep newRegex (code, domains) field =
      (((field.bytes? 1).map readCode).getD code, domains ++ (domain? field).toList) :=
    fun _ _ _ => rfl
  rw [foldl_prod parts, foldl_getD, lastCode_eq, foldl_toList, List.nil_append, allBytes,
    List.filterMap_filterMap]

/-- The entry as it is read -/
def GeoSite.read (entry : GeoSite) (newRegex : String → Option (String → Bool)) :
    String × List SiteDomain :=
  (codeKey entry.code, entry.domains.filterMap fun domain => domain.read newRegex)

theorem parseGeositeEntry_of_encoded {entry : GeoSite} (encoded : entry.EncodedBy bytes)
    (short : bytes.length < 2 ^ 63) :
    parseGeositeEntry newRegex bytes = .done (entry.read newRegex) := by
  rcases encoded with ⟨fields, written, code, domains⟩
  have parsed : ∀ domain, ∀ data ∈ allBytes 2 fields, GeoDomain.EncodedBy domain data →
      parseDomainMsg newRegex data = .ofOption (domain.read newRegex) := by
    intro domain data member encoded
    exact parseDomainMsg_of_encoded encoded (length_lt_of_mem_allBytes written short member)
  have fine : ∀ data, ⟨2, .bytes data⟩ ∈ fields → parseDomainMsg newRegex data ≠ .panicked := by
    intro data member
    rcases exists_of_mem_forall₂ domains (mem_allBytes.mpr member) with ⟨domain, _, encoded⟩
    rw [parsed domain data (mem_allBytes.mpr member) encoded]
    cases domain.read newRegex <;> nofun
  have kept : ((allBytes 2 fields).filterMap fun data => (parseDomainMsg newRegex data).toOption) =
      entry.domains.filterMap fun domain => domain.read newRegex := by
    apply filterMap_of_forall₂ domains
    intro domain data member encoded
    rw [parsed domain data member encoded]
    cases domain.read newRegex <;> rfl
  rw [parseGeositeEntry, readMessage_of_encodes _ written short, Checked.foldlM_eq_done
    (fun state field member => geositeField_eq state fun data same => fine data (same ▸ member)),
    Checked.done_bind, foldl_geositeStep, code, readCode_utf8, kept]
  simp only
  rw [Checked.refuseIf_of_not entry.named]
  rfl

/-- The table of a list as it is read -/
def GeoSiteList.read (list : GeoSiteList) (newRegex : String → Option (String → Bool)) :
    FiniteMap String (List SiteDomain) :=
  .collect (fun entry => codeKey entry.code) (fun entry => some (entry.read newRegex).2) list.1 ∅

theorem parseGeositeFile_of_encoded {list : GeoSiteList} (encoded : list.EncodedBy bytes)
    (short : bytes.length < 2 ^ 63) :
    parseGeositeFile newRegex bytes = .done (list.read newRegex) := by
  rcases encoded with ⟨fields, written, entries⟩
  have acts : ∀ map data, geositeListField newRegex map ⟨1, .bytes data⟩ =
      attempt (parseGeositeEntry newRegex data) >>= fun entry =>
        .done (entry.elim map fun entry => FiniteMap.insertSome map entry.1 (some entry.2)) := by
    intro map data
    rw [geositeListField]
    cases parseGeositeEntry newRegex data <;> rfl
  have skips : ∀ map field, (∀ data, field ≠ ⟨1, .bytes data⟩) →
      geositeListField newRegex map field = .done map := by
    intro map field other
    rw [geositeListField.eq_def]
    split
    · exact absurd rfl (other _)
    · rfl
  rw [parseGeositeFile, walk_of_entries acts skips
    (fun entry data encoded short => parseGeositeEntry_of_encoded encoded short) written short
    entries, Checked.done_bind]
  rfl

/-- The table holds a list when the value of each of its domains is plain. -/
theorem GeoSiteList.heldBy_read_iff (list : GeoSiteList) :
    list.HeldBy compile (list.read (compile false)) ↔
      ∀ entry ∈ list.1, ∀ domain ∈ entry.domains, domain.Plain compile := by
  have lookup : ∀ entry ∈ list.1, (list.read (compile false)).lookup (codeKey entry.code) =
      some (entry.domains.filterMap fun domain => domain.read (compile false)) :=
    fun entry member => FiniteMap.lookup_collect list.2 (fun _ _ => rfl) member
  have plain_iff : ∀ entry : GeoSite, List.Forall₂ (GeoDomain.Means compile) entry.domains
      (entry.domains.filterMap fun domain => domain.read (compile false)) ↔
        ∀ domain ∈ entry.domains, domain.Plain compile := by
    intro entry
    rw [forall₂_filterMap_iff]
    exact forall₂_congr fun domain _ => domain.read_means_iff
  constructor
  · intro held entry member
    rcases held.domains entry member with ⟨sites, found, means⟩
    rw [lookup entry member] at found
    cases found
    exact (plain_iff entry).mp means
  · intro plain
    constructor
    · intro entry member
      exact ⟨_, lookup entry member, (plain_iff entry).mpr (plain entry member)⟩
    · intro code found
      by_contra absent
      apply found
      apply FiniteMap.lookup_collect_of_notMem
      intro member
      exact absent (List.mem_map.mp member)

end GeoSites

/-!
## What the readers make of the Geo files

A file which encodes a list is read into the entries of the list.  The tables hold
the list exactly where reading changes nothing of it: no prefix by narrowing it, and
no value of a domain by taking its capital letters and its trailing dots away.
-/

/--
A file is read into exactly the list which it encodes, if narrowing changes none of
the prefixes, or if the values of all domains are plain.
-/
theorem decoding_exact_iff (compile : Bool → String → Option (String → Bool)) :
    (∀ (list : GeoIpList) (file : ByteSlice), list.EncodedBy file.1 →
        ((∃ maps, parseGeoipFile file.1 = .done maps ∧ list.HeldBy maps) ↔
          ∀ entry ∈ list.1, ∀ cidr ∈ entry.cidrs, cidr.Narrows)) ∧
      ∀ (list : GeoSiteList) (file : ByteSlice), list.EncodedBy file.1 →
        ((∃ map, parseGeositeFile (compile false) file.1 = .done map ∧ list.HeldBy compile map) ↔
          ∀ entry ∈ list.1, ∀ domain ∈ entry.domains, domain.Plain compile) := by
  constructor
  · intro list file encoded
    rw [parseGeoipFile_of_encoded encoded file.2, ← list.heldBy_read_iff]
    simp
  · intro list file encoded
    rw [parseGeositeFile_of_encoded encoded file.2, ← list.heldBy_read_iff]
    simp

/-! ## Two files -/

/-- The address `10.0.0.0` of `CN`, with some prefix -/
def tenList (prefixLen : UInt32) : GeoIpList :=
  ⟨[⟨"CN", [⟨.v4 0x0A000000, prefixLen⟩], by decide⟩], List.nodup_singleton _⟩

def tenCidr (written : List UInt8) : List UInt8 :=
  [0x0A, 4, 10, 0, 0, 0, 0x10] ++ written

def tenEntry (written : List UInt8) : List UInt8 :=
  [0x0A, 2, 0x43, 0x4E, 0x12, UInt8.ofNat (tenCidr written).length] ++ tenCidr written

theorem tenList_encodedBy {prefixLen : UInt32} {written : List UInt8}
    (number : Varint prefixLen.toNat written) :
    (tenList prefixLen).EncodedBy
      ([0x0A, UInt8.ofNat (tenEntry written).length] ++ tenEntry written) := by
  have bounded := number.short
  have cidr_short : (tenCidr written).length < 128 := by
    rw [tenCidr, List.length_append]
    exact Nat.lt_of_le_of_lt (Nat.add_le_add_left bounded 7) (by decide)
  have entry_short : (tenEntry written).length < 128 := by
    simp only [tenEntry, tenCidr, List.length_append, List.length_cons, List.length_nil]
    omega
  have cidr : Encodes [⟨1, .bytes [10, 0, 0, 0]⟩, ⟨2, .varint prefixLen.toNat⟩]
      (tenCidr written ++ []) :=
    .cons_bytes (by decide) (by decide) (.cons_varint (by decide) number .nil)
  have entry : Encodes [⟨1, .bytes [0x43, 0x4E]⟩, ⟨2, .bytes (tenCidr written)⟩]
      (tenEntry written ++ []) :=
    .cons_bytes (by decide) (by decide) (.cons_bytes (by decide) cidr_short .nil)
  have file : Encodes [⟨1, .bytes (tenEntry written)⟩]
      ([0x0A, UInt8.ofNat (tenEntry written).length] ++ tenEntry written ++ []) :=
    .cons_bytes (by decide) entry_short .nil
  rw [List.append_nil] at cidr entry file
  have octets : addressBytes (.v4 0x0A000000) = [10, 0, 0, 0] := by decide
  have block : GeoCidr.EncodedBy ⟨.v4 0x0A000000, prefixLen⟩ (tenCidr written) :=
    ⟨_, cidr, octets.symm, rfl⟩
  have code : utf8 "CN".toList = [0x43, 0x4E] := by decide
  exact ⟨_, file, .cons ⟨_, entry, code.symm, .cons block .nil⟩ .nil⟩

/-- The prefix 8 -/
def tenFile : ByteSlice :=
  ⟨[0x0A, 14, 0x0A, 2, 0x43, 0x4E, 0x12, 8, 0x0A, 4, 10, 0, 0, 0, 0x10, 8], by decide⟩

theorem decoding_exact_tenFile :
    ∃ maps, parseGeoipFile tenFile.1 = .done maps ∧ (tenList 8).HeldBy maps :=
  ((decoding_exact_iff fun _ _ => none).1 (tenList 8) tenFile
    (tenList_encodedBy (.single (by decide)))).mpr (by decide)

/-- The prefix 257, of which a `u8` holds 1 -/
def wideFile : ByteSlice :=
  ⟨[0x0A, 15, 0x0A, 2, 0x43, 0x4E, 0x12, 9, 0x0A, 4, 10, 0, 0, 0, 0x10, 0x81, 2], by decide⟩

theorem not_decoding_wideFile :
    (tenList 257).EncodedBy wideFile.1 ∧
      ¬∃ maps, parseGeoipFile wideFile.1 = .done maps ∧ (tenList 257).HeldBy maps := by
  have groups : Groups ((0x81 : UInt8).toNat - 128 + 128 * (2 : UInt8).toNat) [0x81, 2] :=
    .more (by decide) (.last (by decide))
  have written : Varint (257 : UInt32).toNat [0x81, 2] := ⟨groups, by decide, by decide⟩
  have encoded : (tenList 257).EncodedBy wideFile.1 := tenList_encodedBy written
  refine ⟨encoded, ?_⟩
  rintro ⟨maps, parsed, held⟩
  rw [parseGeoipFile_of_encoded encoded wideFile.2] at parsed
  cases parsed
  have narrows := (tenList 257).heldBy_read_iff.mp held
  have wide := narrows _ List.mem_cons_self _ List.mem_cons_self
  exact absurd wide (by decide)

end Mirage.Routing
