import Mirage.Routing.Geo.Indexing
import Mirage.Routing.GeoFiles.Sites
import Mirage.Routing.GeoFiles.Total

/-!
# Loading the Geo files again

`load_geo_files` reads both files and puts all tables in the place of those which were
loaded before.  A file which is not there or cannot be read leaves empty tables, and
one which is malformed leaves what stands in front of the place.  A panic in a reader
comes before the store is locked.
-/

namespace Mirage.Routing

open Mirage.Foundations
open Mirage.Foundations.Wire

/-- The file system during one load; reading a file may fail. -/
structure Files where
  fileExists : String → Bool
  read : String → Option ByteSlice

/-- The global store -/
structure LoadedGeo where
  store : GeoStore
  geositePath : String
  geoipPath : String

section Load

variable (compile : String → Option (String → Bool))

/-- The bytes which are given to a reader, if there are any -/
def Files.bytes (files : Files) (path : String) : Option ByteSlice :=
  if path ≠ "" ∧ files.fileExists path = true then files.read path else none

def readSites (files : Files) (path : String) : Checked (FiniteMap String (List SiteDomain)) :=
  match files.bytes path with
  | some bytes => parseGeositeFile compile bytes.1
  | none => pure ∅

def readIps (files : Files) (path : String) : Checked IpTables :=
  match files.bytes path with
  | some bytes => parseGeoipFile bytes.1
  | none => pure (∅, ∅)

/-- The store after a load, and the counts which are returned -/
def loadGeoFiles (files : Files) (geositePath geoipPath : String) (loaded : LoadedGeo) :
    Checked (LoadedGeo × ℕ × ℕ) := do
  let siteMap ← readSites compile files geositePath
  let (ipV4Map, ipV6Map) ← readIps files geoipPath
  let siteCount := siteMap.entries.length
  let ipCount := ipV4Map.entries.length + ipV6Map.entries.length
  let indexedSites := siteMap.mapValues GeoSiteMatcher.new
  let store := { loaded.store with sites := indexedSites, ipV4 := ipV4Map, ipV6 := ipV6Map }
  pure (⟨store, geositePath, geoipPath⟩, siteCount, ipCount)

/-- The arguments of a load, and the files which it finds -/
structure Load where
  files : Files
  geositePath : String
  geoipPath : String

/-- What is loaded afterwards -/
def reload (loaded : LoadedGeo) (load : Load) : LoadedGeo :=
  match loadGeoFiles compile load.files load.geositePath load.geoipPath loaded with
  | .done (after, _) => after
  | .refused | .panicked => loaded

end Load

section Malformed

variable {State : Type} {handle : State → Field → Checked State} {fields : List Field}
  {front tail : List UInt8} {fault : Fault}

/-- A loop over a file which is malformed from a place on does what stands in front of it. -/
theorem walk_malformed (encoded : Encodes fields front) (stuck : takeField tail = .error fault)
    (short : (front ++ tail).length < 2 ^ 63) (start : State)
    (survives : walk (front ++ tail) handle 0 start ≠ .panicked) :
    (walk (front ++ tail) handle 0 start >>= fun result => .done result.2) =
      walk front handle 0 start >>= fun result => .done result.2 := by
  have front_short : front.length < 2 ^ 63 := by
    rw [List.length_append] at short
    omega
  have nothing : (scan tail).1 = [] := by
    by_cases empty : tail = []
    · rw [empty, scan_nil]
    · rw [scan_of_error empty stuck]
  have whole := @walk_eq _ handle [] (front ++ tail) short start
  rw [List.nil_append, List.length_nil, scan_append encoded, nothing, List.append_nil] at whole
  rw [whole] at survives ⊢
  rw [walk_of_encodes handle encoded front_short]
  simp only at survives ⊢
  cases folded : fields.foldlM handle start with
  | refused | panicked => rfl
  | done state =>
      rw [folded] at survives
      simp only [Checked.done_bind] at survives ⊢
      revert survives
      rcases (scan tail).2 with _ | _ | ⟨left, announced⟩ | _
      · exact fun _ => rfl
      · exact fun _ => rfl
      · rw [endWalk]
        split
        · exact fun _ => rfl
        · exact fun survives => absurd rfl survives
      · exact fun _ => rfl

variable {compile : String → Option (String → Bool)}

theorem parseGeositeFile_malformed (encoded : Encodes fields front)
    (stuck : takeField tail = .error fault) (short : (front ++ tail).length < 2 ^ 63)
    (survives : parseGeositeFile compile (front ++ tail) ≠ .panicked) :
    parseGeositeFile compile (front ++ tail) = parseGeositeFile compile front := by
  apply walk_malformed encoded stuck short
  intro panics
  rw [parseGeositeFile, panics] at survives
  exact survives rfl

theorem parseGeoipFile_malformed (encoded : Encodes fields front)
    (stuck : takeField tail = .error fault) (short : (front ++ tail).length < 2 ^ 63)
    (survives : parseGeoipFile (front ++ tail) ≠ .panicked) :
    parseGeoipFile (front ++ tail) = parseGeoipFile front := by
  apply walk_malformed encoded stuck short
  intro panics
  rw [parseGeoipFile, panics] at survives
  exact survives rfl

end Malformed

section Reload

variable {compile : String → Option (String → Bool)} {load : Load} {before after : LoadedGeo}
  {counts : ℕ × ℕ}

/-- A load which returns replaces all tables, and keeps only the built-in one. -/
theorem loadGeoFiles_eq_done_iff :
    loadGeoFiles compile load.files load.geositePath load.geoipPath before = .done (after, counts) ↔
      ∃ sites maps, readSites compile load.files load.geositePath = .done sites ∧
        readIps load.files load.geoipPath = .done maps ∧
        after = ⟨⟨sites.mapValues GeoSiteMatcher.new, maps.1, maps.2, before.store.cnIpv4⟩,
          load.geositePath, load.geoipPath⟩ ∧
        counts = (sites.entries.length, maps.1.entries.length + maps.2.entries.length) := by
  rw [loadGeoFiles]
  cases readSites compile load.files load.geositePath with
  | refused | panicked => simp
  | done sites =>
      cases readIps load.files load.geoipPath with
      | refused | panicked => simp
      | done maps => simp [eq_comm]

theorem reload_of_done
    (ran : loadGeoFiles compile load.files load.geositePath load.geoipPath before =
      .done (after, counts)) : reload compile before load = after := by
  rw [reload, ran]

/-- What was loaded before makes no difference. -/
theorem reload_of_other
    (ran : loadGeoFiles compile load.files load.geositePath load.geoipPath before =
      .done (after, counts)) {other : LoadedGeo}
    (same : other.store.cnIpv4 = before.store.cnIpv4) : reload compile other load = after := by
  rcases loadGeoFiles_eq_done_iff.mp ran with ⟨sites, maps, sites_read, ips_read, stored, counted⟩
  apply @reload_of_done _ _ _ _ counts
  rw [loadGeoFiles_eq_done_iff, same]
  exact ⟨sites, maps, sites_read, ips_read, stored, counted⟩

theorem matchGeosite_of_empty {geo : GeoStore} (unloaded : geo.sites = ∅) (tag domain : String) :
    geo.matchGeosite tag domain = GeoStore.empty.matchGeosite tag domain := by
  rw [GeoStore.matchGeosite, unloaded]
  rfl

theorem matchGeoip_of_empty {geo : GeoStore} (no_v4 : geo.ipV4 = ∅) (no_v6 : geo.ipV6 = ∅)
    (code : String) (ip : IpAddr) : geo.matchGeoip code ip = GeoStore.empty.matchGeoip code ip := by
  rw [GeoStore.matchGeoip.eq_def, no_v4, no_v6]
  rfl

/-- The tables of a store are those of the two files of a load, and of nothing else. -/
structure TablesOf (compile : String → Option (String → Bool)) (load : Load) (geo : GeoStore) :
    Prop where
  /-- Without the file no domain is matched but those which are built in. -/
  no_sites : load.files.bytes load.geositePath = none → geo.sites = ∅ ∧
    ∀ tag domain, geo.matchGeosite tag domain = GeoStore.empty.matchGeosite tag domain
  no_ips : load.files.bytes load.geoipPath = none → geo.ipV4 = ∅ ∧ geo.ipV6 = ∅ ∧
    ∀ code ip, geo.matchGeoip code ip = GeoStore.empty.matchGeoip code ip
  sites : ∀ file, load.files.bytes load.geositePath = some file → ∃ sites,
    parseGeositeFile compile file.1 = .done sites ∧
      geo.sites = sites.mapValues GeoSiteMatcher.new
  ips : ∀ file, load.files.bytes load.geoipPath = some file →
    parseGeoipFile file.1 = .done (geo.ipV4, geo.ipV6)
  /-- Of a malformed file they are those of what stands in front of the place. -/
  front_sites : ∀ file fields front tail fault, load.files.bytes load.geositePath = some file →
    file.1 = front ++ tail → Encodes fields front → takeField tail = .error fault → ∃ sites,
      parseGeositeFile compile front = .done sites ∧
        geo.sites = sites.mapValues GeoSiteMatcher.new
  front_ips : ∀ file fields front tail fault, load.files.bytes load.geoipPath = some file →
    file.1 = front ++ tail → Encodes fields front → takeField tail = .error fault →
      parseGeoipFile front = .done (geo.ipV4, geo.ipV6)

theorem tablesOf_of_done
    (ran : loadGeoFiles compile load.files load.geositePath load.geoipPath before =
      .done (after, counts)) : TablesOf compile load after.store := by
  rcases loadGeoFiles_eq_done_iff.mp ran with ⟨sites, maps, sites_read, ips_read, rfl, _⟩
  have parsed_sites : ∀ file, load.files.bytes load.geositePath = some file →
      parseGeositeFile compile file.1 = .done sites := by
    intro file found
    rwa [readSites, found] at sites_read
  have parsed_ips : ∀ file, load.files.bytes load.geoipPath = some file →
      parseGeoipFile file.1 = .done maps := by
    intro file found
    rwa [readIps, found] at ips_read
  constructor
  · intro absent
    rw [readSites, absent] at sites_read
    cases sites_read
    exact ⟨rfl, matchGeosite_of_empty rfl⟩
  · intro absent
    rw [readIps, absent] at ips_read
    cases ips_read
    exact ⟨rfl, rfl, matchGeoip_of_empty rfl rfl⟩
  · intro file found
    exact ⟨sites, parsed_sites file found, rfl⟩
  · exact parsed_ips
  · intro file fields front tail fault found whole encoded stuck
    have parsed := parsed_sites file found
    have short := file.2
    rw [whole] at parsed short
    refine ⟨sites, ?_, rfl⟩
    have survives : parseGeositeFile compile (front ++ tail) ≠ .panicked := by
      rw [parsed]
      exact Checked.done_ne_panicked _
    rw [← parsed, parseGeositeFile_malformed encoded stuck short survives]
  · intro file fields front tail fault found whole encoded stuck
    have parsed := parsed_ips file found
    have short := file.2
    rw [whole] at parsed short
    have survives : parseGeoipFile (front ++ tail) ≠ .panicked := by
      rw [parsed]
      exact Checked.done_ne_panicked _
    rw [← parseGeoipFile_malformed encoded stuck short survives, parsed]

end Reload

/--
A load which returns leaves the tables of the files which it read, whatever was loaded
before; one in which a reader panics leaves everything as it was.
-/
theorem reload_replaces (compile : String → Option (String → Bool)) (load : Load)
    (before : LoadedGeo) :
    (∀ after counts, loadGeoFiles compile load.files load.geositePath load.geoipPath before =
        .done (after, counts) →
      reload compile before load = after ∧ TablesOf compile load after.store ∧
        ∀ other : LoadedGeo, other.store.cnIpv4 = before.store.cnIpv4 →
          reload compile other load = after) ∧
      (loadGeoFiles compile load.files load.geositePath load.geoipPath before = .panicked →
        reload compile before load = before) := by
  constructor
  · intro after counts ran
    exact ⟨reload_of_done ran, tablesOf_of_done ran, fun other same => reload_of_other ran same⟩
  · intro panicked
    rw [reload, panicked]

/-- Both files are there, and the one of addresses holds the block `10.0.0.0/8` of `CN`. -/
def goodLoad : Load :=
  ⟨⟨fun _ => true, fun _ => some tenFile⟩, "", "/geo/geoip.dat"⟩

/-- The same file cannot be read any more. -/
def failingLoad : Load :=
  ⟨⟨fun _ => true, fun _ => none⟩, "", "/geo/geoip.dat"⟩

/-- What is loaded after the first of these, from nothing -/
def loadedOnce : LoadedGeo :=
  reload (fun _ => none) ⟨GeoStore.empty, "", ""⟩ goodLoad

theorem reload_replaces_failingLoad :
    reload (fun _ => none) ⟨GeoStore.empty, "", ""⟩ failingLoad =
      ⟨GeoStore.empty, "", "/geo/geoip.dat"⟩ :=
  ((reload_replaces (fun _ => none) failingLoad ⟨GeoStore.empty, "", ""⟩).1 _ _ rfl).1

/-- A block which was matched is not matched after a load which cannot read the file. -/
theorem not_reload_keeps :
    failingLoad.files.bytes failingLoad.geoipPath = none ∧
      loadedOnce.store.matchGeoip "cn" (.v4 0x0A010203) = true ∧
      (reload (fun _ => none) loadedOnce failingLoad).store.matchGeoip "cn" (.v4 0x0A010203) =
        false := by
  decide +kernel

end Mirage.Routing
