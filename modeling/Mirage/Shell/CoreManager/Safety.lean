import Mirage.Foundations.Text
import Mirage.Shell.CoreManager.Intact

/-!
# Safe runs of the store of cores

What each call keeps of the list of custom cores and of their files.  The files
of different cores are different, as their names come from the identifiers.
-/

namespace Mirage.Shell

open Mirage.Foundations CoreManager

variable {platform : CorePlatform}

namespace CoreManager

theorem sameText_iff {first second : String} :
    sameText platform first second = true ↔
      (utf16 first.toList).map platform.foldCase = (utf16 second.toList).map platform.foldCase :=
  beq_iff_eq

theorem sameText_refl (text : String) : sameText platform text text = true :=
  sameText_iff.mpr rfl

theorem sameText_comm (first second : String) :
    sameText platform first second = sameText platform second first := by
  rw [Bool.eq_iff_iff, sameText_iff, sameText_iff, eq_comm]

theorem sameText_congr {first second : String} (same : sameText platform first second = true)
    (third : String) : sameText platform first third = sameText platform second third := by
  rw [Bool.eq_iff_iff, sameText_iff, sameText_iff, sameText_iff.mp same]

theorem isText_some (text other : String) :
    isText platform (some text) other = sameText platform text other :=
  rfl

theorem corePath_injective {first second : String}
    (same : corePath platform first = corePath platform second) : first = second := by
  have texts := congrArg String.toList same
  simp only [corePath, String.toList_append, List.append_assoc, List.append_cancel_left_eq,
    List.append_cancel_right_eq] at texts
  exact String.toList_injective texts

end CoreManager

namespace CoreInfo

theorem Apart.symm {first second : CoreInfo} (apart : first.Apart platform second) :
    second.Apart platform first := by
  rcases apart with ⟨digests, names⟩
  refine ⟨?_, (sameText_comm _ _).trans names⟩
  intro digest has
  cases own : first.sha256 with
  | none => rfl
  | some text =>
      have different := digests text own
      rw [Option.mem_def.mp has, isText_some] at different
      rw [isText_some, sameText_comm, different]

theorem HasFile.insert_ne {files : FiniteMap String FileContent} {core : CoreInfo}
    (has : core.HasFile platform files) {path : String} (other : core.filePath ≠ some path)
    (content : FileContent) : core.HasFile platform (files.insert path content) := by
  rcases has with ⟨own, atOwn, found, there, describes⟩
  refine ⟨own, atOwn, found, ?_, describes⟩
  have different : own ≠ path := by
    rintro rfl
    exact other atOwn
  rwa [Option.mem_def, AList.lookup_insert_ne different]

theorem HasFile.erase_ne {files : FiniteMap String FileContent} {core : CoreInfo}
    (has : core.HasFile platform files) {path : String} (other : core.filePath ≠ some path) :
    core.HasFile platform (files.erase path) := by
  rcases has with ⟨own, atOwn, found, there, describes⟩
  refine ⟨own, atOwn, found, ?_, describes⟩
  have different : own ≠ path := by
    rintro rfl
    exact other atOwn
  rwa [Option.mem_def, AList.lookup_erase_ne different]

end CoreInfo

/-- A copy over a file leaves the others as they are. -/
theorem CoreInfo.HasFile.copyOver {files : FiniteMap String FileContent} {core : CoreInfo}
    (has : core.HasFile platform files) {path : String} (other : core.filePath ≠ some path)
    (content : FileContent) (copy : CopyOutcome) :
    core.HasFile platform (copyOver files path content copy).2 := by
  cases copy with
  | completes => exact has.insert_ne other content
  | deleteFails =>
      simp only [CoreManager.copyOver]
      split
      · exact has
      · exact has.insert_ne other content
  | breaks written =>
      cases written with
      | none => exact has.erase_ne other
      | some written => exact has.insert_ne other _

theorem copyOver_completed {files after : FiniteMap String FileContent} {path : String}
    {content : FileContent} {copy : CopyOutcome}
    (completed : copyOver files path content copy = (true, after)) :
    after = files.insert path content := by
  cases copy with
  | completes => exact (congrArg Prod.snd completed).symm
  | deleteFails =>
      simp only [copyOver] at completed
      split at completed
      · cases completed
      · exact (congrArg Prod.snd completed).symm
  | breaks written => cases written <;> cases completed

/-- A start of the app reads only the size of the file again. -/
def CoreInfo.refresh (files : FiniteMap String FileContent) (core : CoreInfo) : CoreInfo :=
  { core with
    fileSize := ((core.filePath.bind files.lookup).map fun content => content.bytes.length).getD 0 }

/-- The custom cores of a store, with their files. -/
structure Collection (platform : CorePlatform) (files : FiniteMap String FileContent) (issued : ℕ)
    (customs : List CoreInfo) : Prop where
  custom : ∀ core ∈ customs, core.isBuiltin = false
  shaped : ∀ core ∈ customs, ∃ number < issued,
    core.id = platform.randomUUID number ∧ core.filePath = some (corePath platform core.id)
  nodup : (customs.map CoreInfo.id).Nodup
  files : ∀ core ∈ customs, core.HasFile platform files
  apart : customs.Pairwise (CoreInfo.Apart platform)

namespace Collection

variable {files : FiniteMap String FileContent} {issued : ℕ} {customs before after : List CoreInfo}
  {old : CoreInfo}

theorem path (collection : Collection platform files issued customs) {core : CoreInfo}
    (member : core ∈ customs) : core.filePath = some (corePath platform core.id) := by
  rcases collection.shaped core member with ⟨_, _, _, shaped⟩
  exact shaped

/-- The others have other files than this core. -/
theorem path_ne (collection : Collection platform files issued (before ++ old :: after))
    {other : CoreInfo} (member : other ∈ before ++ after) :
    other.id ≠ old.id ∧ other.filePath ≠ some (corePath platform old.id) := by
  have nodup := collection.nodup
  rw [List.map_append, List.map_cons, List.nodup_middle, List.nodup_cons, ← List.map_append]
    at nodup
  have different : other.id ≠ old.id := by
    intro same
    exact nodup.1 (same ▸ List.mem_map_of_mem member)
  refine ⟨different, ?_⟩
  have inside : other ∈ before ++ old :: after := by
    simp only [List.mem_append, List.mem_cons] at member ⊢
    tauto
  rw [collection.path inside, ne_eq, Option.some.injEq]
  exact fun same => different (corePath_injective same)

/-- Other files change, and other identifiers are issued. -/
theorem of_files (collection : Collection platform files issued customs)
    {after : FiniteMap String FileContent} {later : ℕ} (more : issued ≤ later)
    (kept : ∀ core ∈ customs, core.HasFile platform after) :
    Collection platform after later customs where
  custom := collection.custom
  shaped := by
    intro core member
    rcases collection.shaped core member with ⟨number, early, shaped⟩
    exact ⟨number, early.trans_le more, shaped⟩
  nodup := collection.nodup
  files := kept
  apart := collection.apart

/-- A core is replaced by one of the same identifier, in the same file. -/
theorem replace (collection : Collection platform files issued (before ++ old :: after))
    {new : CoreInfo} {later : FiniteMap String FileContent} (same : new.id = old.id)
    (path : new.filePath = old.filePath) (builtin : new.isBuiltin = old.isBuiltin)
    (file : new.HasFile platform later)
    (others : ∀ core ∈ before ++ after, core.HasFile platform later)
    (apart : ∀ core ∈ before ++ after, new.Apart platform core) :
    Collection platform later issued (before ++ new :: after) := by
  have inside : old ∈ before ++ old :: after := by simp
  have split {good : CoreInfo → Prop} (first : good new)
      (rest : ∀ core ∈ before ++ after, good core) :
      ∀ core ∈ before ++ new :: after, good core := by
    intro core member
    rw [List.mem_append, List.mem_cons] at member
    rcases member with left | rfl | right
    · exact rest core (List.mem_append_left _ left)
    · exact first
    · exact rest core (List.mem_append_right _ right)
  have kept {core : CoreInfo} (member : core ∈ before ++ after) :
      core ∈ before ++ old :: after := by
    simp only [List.mem_append, List.mem_cons] at member ⊢
    tauto
  have pairwise := collection.apart
  rw [List.pairwise_middle CoreInfo.Apart.symm, List.pairwise_cons] at pairwise
  constructor
  · exact split (builtin.trans (collection.custom old inside)) fun core member =>
      collection.custom core (kept member)
  · refine split ?_ fun core member => collection.shaped core (kept member)
    rw [same, path]
    exact collection.shaped old inside
  · have nodup := collection.nodup
    rw [List.map_append, List.map_cons] at nodup ⊢
    rwa [same]
  · exact split file others
  · rw [List.pairwise_middle CoreInfo.Apart.symm, List.pairwise_cons]
    exact ⟨apart, pairwise.2⟩

/-- A core is added, with an identifier which has not been issued before. -/
theorem add (collection : Collection platform files issued customs) {new : CoreInfo}
    {content : FileContent} (id : new.id = platform.randomUUID issued)
    (path : new.filePath = some (corePath platform new.id)) (builtin : new.isBuiltin = false)
    (describes : new.Describes platform content)
    (apart : ∀ core ∈ customs, core.Apart platform new) :
    Collection platform (files.insert (corePath platform new.id) content) (issued + 1)
      (customs ++ [new]) := by
  have fresh {core : CoreInfo} (member : core ∈ customs) : core.id ≠ new.id := by
    rcases collection.shaped core member with ⟨number, early, issuedId, -⟩
    rw [issuedId, id]
    exact fun same => early.ne (platform.randomUUID_injective same)
  have split {good : CoreInfo → Prop} (rest : ∀ core ∈ customs, good core) (last : good new) :
      ∀ core ∈ customs ++ [new], good core := by
    intro core member
    rcases List.mem_append.mp member with early | late
    · exact rest core early
    · rw [List.mem_singleton.mp late]
      exact last
  constructor
  · exact split collection.custom builtin
  · refine split ?_ ⟨issued, by omega, id, path⟩
    intro core member
    rcases collection.shaped core member with ⟨number, early, shaped⟩
    exact ⟨number, by omega, shaped⟩
  · rw [List.map_append, List.map_cons, List.map_nil, List.nodup_append]
    refine ⟨collection.nodup, List.nodup_singleton _, ?_⟩
    intro id member other last
    rcases List.mem_map.mp member with ⟨core, inside, rfl⟩
    rw [List.mem_singleton.mp last]
    exact fresh inside
  · refine split ?_ ⟨_, path, content, AList.lookup_insert _, describes⟩
    intro core member
    refine (collection.files core member).insert_ne ?_ content
    rw [collection.path member, ne_eq, Option.some.injEq]
    exact fun same => fresh member (corePath_injective same)
  · rw [List.pairwise_append]
    refine ⟨collection.apart, List.pairwise_singleton _ _, ?_⟩
    intro core member other last
    rw [List.mem_singleton.mp last]
    exact apart core member

/-- A core is removed. -/
theorem remove (collection : Collection platform files issued (before ++ old :: after))
    {later : FiniteMap String FileContent}
    (others : ∀ core ∈ before ++ after, core.HasFile platform later) :
    Collection platform later issued (before ++ after) := by
  have fewer : (before ++ after).Sublist (before ++ old :: after) :=
    List.Sublist.append_left (List.sublist_cons_self old after) before
  constructor
  · exact fun core member => collection.custom core (fewer.subset member)
  · exact fun core member => collection.shaped core (fewer.subset member)
  · exact collection.nodup.sublist (fewer.map CoreInfo.id)
  · exact others
  · exact collection.apart.sublist fewer

theorem loadCore_save (collection : Collection platform files issued customs) {core : CoreInfo}
    (member : core ∈ customs) : loadCore files core.save = some (core.refresh files) := by
  rcases collection.files core member with ⟨path, atPath, content, there, digest, -⟩
  have notBuiltin := collection.custom core member
  rw [Option.mem_def] at atPath there
  simp only [loadCore, CoreInfo.save, atPath, there, digest, Option.bind_eq_bind, Option.bind_some,
    Option.getD_some, platform.sha256_not_blank, CoreInfo.refresh, Option.map_some, notBuiltin,
    Bool.false_eq_true, if_false]

/-- A start of the app finds the same cores. -/
theorem load (collection : Collection platform files issued customs) :
    (customs.map CoreInfo.save).filterMap (loadCore files) =
      customs.map (CoreInfo.refresh files) := by
  rw [List.filterMap_map, ← List.filterMap_eq_map]
  exact List.filterMap_congr fun core member => collection.loadCore_save member

theorem refresh (collection : Collection platform files issued customs) :
    Collection platform files issued (customs.map (CoreInfo.refresh files)) where
  custom := List.forall_mem_map.mpr collection.custom
  shaped := List.forall_mem_map.mpr collection.shaped
  nodup := by
    rw [List.map_map]
    exact collection.nodup
  files := List.forall_mem_map.mpr collection.files
  apart := List.pairwise_map.mpr collection.apart

end Collection

/-- A store with these custom cores, as they are saved. -/
structure Stored (platform : CorePlatform) (store : CoreStore) (customs : List CoreInfo) :
    Prop where
  cores : store.cores = .builtin :: customs
  collection : Collection platform store.files store.issued customs
  saved : store.coresJson.getD [] = customs.map CoreInfo.save

/-- And the active core is listed and saved. -/
structure Whole (platform : CorePlatform) (store : CoreStore) (customs : List CoreInfo) : Prop
    extends Stored platform store customs where
  savedActive : store.savedActive.getD CoreInfo.builtinId = store.activeCoreId
  active : ∃ core ∈ store.cores, core.id = store.activeCoreId

namespace Stored

variable {store : CoreStore} {customs : List CoreInfo}

theorem filter_customs {customs : List CoreInfo}
    (custom : ∀ core ∈ customs, core.isBuiltin = false) :
    (CoreInfo.builtin :: customs).filter (!·.isBuiltin) = customs := by
  rw [List.filter_cons_of_neg (by decide), List.filter_eq_self]
  intro core member
  rw [custom core member]
  rfl

theorem customs_eq (stored : Stored platform store customs) : store.customs = customs := by
  rw [CoreStore.customs, stored.cores, filter_customs stored.collection.custom]

/-- A new list of cores is saved. -/
theorem save (store : CoreStore) {later : List CoreInfo} {files : FiniteMap String FileContent}
    {issued : ℕ} (collection : Collection platform files issued later) :
    Stored platform
      (saveCustomCores { store with files, cores := .builtin :: later, issued }
        (.builtin :: later)) later where
  cores := rfl
  collection := collection
  saved := by rw [saveCustomCores, Option.getD_some, filter_customs collection.custom]

theorem setActiveCore (stored : Stored platform store customs) {id : String}
    (listed : ∃ core ∈ store.cores, core.id = id) :
    Whole platform (CoreManager.setActiveCore store id).2 customs := by
  have found : store.cores.any (·.id == id) = true := by
    rcases listed with ⟨core, member, same⟩
    exact List.any_eq_true.mpr ⟨core, member, beq_iff_eq.mpr same⟩
  rw [CoreManager.setActiveCore, if_pos found]
  exact
    { cores := stored.cores
      collection := stored.collection
      saved := stored.saved
      savedActive := rfl
      active := listed }

/-- A listed core other than the built-in one, with those before and after it. -/
theorem exists_split (stored : Stored platform store customs) {old : CoreInfo}
    (listed : old ∈ store.cores) (custom : old.id ≠ CoreInfo.builtinId) :
    ∃ before after, customs = before ++ old :: after := by
  rw [stored.cores, List.mem_cons] at listed
  rcases listed with rfl | member
  · exact absurd rfl custom
  · exact List.append_of_mem member

/-- No custom core has the identifier of the built-in one. -/
theorem id_ne_builtin (stored : Stored platform store customs) {core : CoreInfo}
    (member : core ∈ customs) : core.id ≠ CoreInfo.builtinId := by
  rcases stored.collection.shaped core member with ⟨number, -, issued, -⟩
  rw [issued]
  exact platform.randomUUID_ne_builtin number

end Stored

namespace Whole

variable {store : CoreStore} {customs : List CoreInfo}

theorem new : Whole platform .new [] where
  cores := rfl
  collection :=
    { custom := by simp
      shaped := by simp
      nodup := List.nodup_nil
      files := by simp
      apart := List.Pairwise.nil }
  saved := rfl
  savedActive := rfl
  active := ⟨.builtin, by simp [CoreStore.new], rfl⟩

/-- The files of a store change, and its list of cores does not. -/
theorem of_files (whole : Whole platform store customs)
    {files : FiniteMap String FileContent} {issued : ℕ} (more : store.issued ≤ issued)
    (kept : ∀ core ∈ customs, core.HasFile platform files) :
    Whole platform { store with files, issued } customs where
  cores := whole.cores
  collection := whole.collection.of_files more kept
  saved := whole.saved
  savedActive := whole.savedActive
  active := whole.active

/-- A list which keeps the identifiers is saved. -/
theorem save (whole : Whole platform store customs) {later : List CoreInfo}
    {files : FiniteMap String FileContent} {issued : ℕ}
    (collection : Collection platform files issued later)
    (ids : ∀ core ∈ customs, ∃ other ∈ later, other.id = core.id) :
    Whole platform
      (saveCustomCores { store with files, cores := .builtin :: later, issued }
        (.builtin :: later)) later where
  toStored := Stored.save store collection
  savedActive := whole.savedActive
  active := by
    rcases whole.active with ⟨core, member, active⟩
    rw [whole.cores, List.mem_cons] at member
    rcases member with rfl | member
    · exact ⟨.builtin, List.mem_cons_self, active⟩
    · rcases ids core member with ⟨other, inside, same⟩
      exact ⟨other, List.mem_cons_of_mem _ inside, same.trans active⟩

theorem setActiveCore (whole : Whole platform store customs) (id : String) :
    Whole platform (CoreManager.setActiveCore store id).2 customs := by
  by_cases listed : ∃ core ∈ store.cores, core.id = id
  · exact whole.toStored.setActiveCore listed
  · have absent : ¬store.cores.any (·.id == id) = true := by
      intro found
      rcases List.any_eq_true.mp found with ⟨core, member, same⟩
      exact listed ⟨core, member, beq_iff_eq.mp same⟩
    rw [CoreManager.setActiveCore, if_neg absent]
    exact whole

theorem loadCustomCores (whole : Whole platform store customs) :
    Whole platform (CoreManager.loadCustomCores store)
      (customs.map (CoreInfo.refresh store.files)) := by
  have paths : (customs.map CoreInfo.save).all (·.filePath.isSome) = true := by
    rw [List.all_map, List.all_eq_true]
    intro core member
    simp [CoreInfo.save, whole.collection.path member]
  have listed : (CoreInfo.builtin :: customs.map (CoreInfo.refresh store.files)).any
      (·.id == store.activeCoreId) = true := by
    rcases whole.active with ⟨core, member, active⟩
    rw [whole.cores, List.mem_cons] at member
    rw [List.any_eq_true]
    rcases member with rfl | member
    · exact ⟨.builtin, List.mem_cons_self, beq_iff_eq.mpr active⟩
    · exact ⟨core.refresh store.files,
        List.mem_cons_of_mem _ (List.mem_map_of_mem member), beq_iff_eq.mpr active⟩
  have loaded : CoreManager.loadCustomCores store =
      { store with
        cores := .builtin :: customs.map (CoreInfo.refresh store.files)
        activeCoreId := store.activeCoreId } := by
    rw [CoreManager.loadCustomCores, whole.saved, whole.savedActive, if_pos paths,
      whole.collection.load, if_pos listed]
  rw [loaded]
  refine ⟨⟨rfl, whole.collection.refresh, ?_⟩, whole.savedActive, ?_⟩
  · rw [List.map_map]
    exact whole.saved
  · rcases List.any_eq_true.mp listed with ⟨core, member, same⟩
    exact ⟨core, member, beq_iff_eq.mp same⟩

/-- The list and the files after a core has been removed. -/
theorem erase {before after : List CoreInfo} {old : CoreInfo}
    (whole : Whole platform store (before ++ old :: after)) (deletes : Bool) :
    store.cores.erase old = .builtin :: (before ++ after) ∧
      Collection platform (deleteFile store.files old deletes) store.issued
        (before ++ after) := by
  have inside : old ∈ before ++ old :: after := by simp
  have elsewhere {other : CoreInfo} (member : other ∈ before ++ after) :=
    whole.collection.path_ne member
  constructor
  · have absent : old ∉ before := fun early => (elsewhere (List.mem_append_left _ early)).1 rfl
    have other : ¬(CoreInfo.builtin == old) = true := by
      rw [beq_iff_eq]
      rintro rfl
      exact whole.id_ne_builtin inside rfl
    rw [whole.cores, List.erase_cons_tail other, List.erase_append_right _ absent,
      List.erase_cons_head]
  · apply whole.collection.remove
    intro other member
    have has : other.HasFile platform store.files := by
      apply whole.collection.files
      simp only [List.mem_append, List.mem_cons] at member ⊢
      tauto
    rw [deleteFile, whole.collection.path inside]
    cases deletes with
    | true => exact has.erase_ne (elsewhere member).2
    | false => exact has

theorem deleteCore (whole : Whole platform store customs) (id : String) (deletes : Bool) :
    ∃ later, Whole platform (CoreManager.deleteCore store id deletes).2 later := by
  rw [CoreManager.deleteCore]
  by_cases builtin : id = CoreInfo.builtinId
  · rw [if_pos builtin]
    exact ⟨customs, whole⟩
  · rw [if_neg builtin]
    cases found : store.cores.find? fun core => core.id == id with
    | none => exact ⟨customs, whole⟩
    | some old =>
        have same := (List.find?_eq_some_iff_append.mp found).1
        rw [beq_iff_eq] at same
        rcases whole.exists_split (List.mem_of_find?_eq_some found) (same.trans_ne builtin) with
          ⟨before, after, rfl⟩
        rcases whole.erase deletes with ⟨current, collection⟩
        have stored := Stored.save store collection
        refine ⟨before ++ after, ?_⟩
        simp only [current]
        split
        · exact stored.setActiveCore ⟨.builtin, List.mem_cons_self, rfl⟩
        · rename_i active
          refine ⟨stored, whole.savedActive, ?_⟩
          rcases whole.active with ⟨core, member, isActive⟩
          refine ⟨core, ?_, isActive⟩
          have other : core ≠ old := by
            rintro rfl
            exact active (isActive.symm.trans same)
          rw [← current]
          exact (List.mem_erase_of_ne other).mpr member

/-- The core which an import finds has the digest or the name. -/
theorem findExisting_eq_some (whole : Whole platform store customs) {digest name : String}
    {old : CoreInfo} (found : findExisting platform store digest name = some old) :
    (∃ before after, customs = before ++ old :: after) ∧
      (isText platform old.sha256 digest = true ∨ sameText platform old.name name = true) := by
  have matched := List.find?_some found
  simp only [Bool.and_eq_true, Bool.not_eq_true', Bool.or_eq_true] at matched
  refine ⟨whole.exists_split (List.mem_of_find?_eq_some found) ?_, matched.2⟩
  have member := List.mem_of_find?_eq_some found
  rw [whole.cores, List.mem_cons] at member
  rcases member with rfl | member
  · exact absurd matched.1 (by decide)
  · exact whole.id_ne_builtin member

theorem findExisting_eq_none (whole : Whole platform store customs) {digest name : String}
    (missing : findExisting platform store digest name = none) {core : CoreInfo}
    (member : core ∈ customs) :
    isText platform core.sha256 digest = false ∧ sameText platform core.name name = false := by
  have listed : core ∈ store.cores := by
    rw [whole.cores]
    exact List.mem_cons_of_mem _ member
  have unmatched := List.find?_eq_none.mp missing core listed
  rw [whole.collection.custom core member] at unmatched
  simpa using unmatched

theorem putCore_eq (whole : Whole platform store customs) {before after : List CoreInfo}
    {old new : CoreInfo} (split : customs = before ++ old :: after) (same : new.id = old.id) :
    putCore store.cores new = .builtin :: (before ++ new :: after) := by
  have inside : old ∈ customs := by simp [split]
  have builtin : (CoreInfo.builtin.id == new.id) = false := by
    rw [beq_eq_false_iff_ne, same]
    exact (whole.id_ne_builtin inside).symm
  have absent : before.findIdx? (·.id == new.id) = none := by
    rw [List.findIdx?_eq_none_iff]
    intro other member
    subst split
    rw [beq_eq_false_iff_ne, same]
    exact (whole.collection.path_ne (List.mem_append_left _ member)).1
  have here : (old.id == new.id) = true := beq_iff_eq.mpr same.symm
  rw [putCore, whole.cores, split, List.findIdx?_cons, builtin, List.findIdx?_append, absent,
    List.findIdx?_cons, here]
  simp

/-- A file of the same digest as no other core, with the ABI of the core which it replaces. -/
theorem replaceFile {before after : List CoreInfo} {old new : CoreInfo}
    (whole : Whole platform store (before ++ old :: after)) {content : FileContent}
    (id : new.id = old.id) (path : new.filePath = old.filePath)
    (builtin : new.isBuiltin = old.isBuiltin) (named : sameText platform old.name new.name = true)
    (describes : new.Describes platform content)
    (unique : ∀ other ∈ before ++ after,
      isText platform other.sha256 (platform.sha256 content.bytes) = false) :
    Whole platform
      (saveCustomCores
        { store with
          files := store.files.insert (corePath platform old.id) content
          cores := .builtin :: (before ++ new :: after) }
        (.builtin :: (before ++ new :: after)))
      (before ++ new :: after) := by
  have inside : old ∈ before ++ old :: after := by simp
  have kept {other : CoreInfo} (member : other ∈ before ++ after) :
      other ∈ before ++ old :: after := by
    simp only [List.mem_append, List.mem_cons] at member ⊢
    tauto
  have pairwise := whole.collection.apart
  rw [List.pairwise_middle CoreInfo.Apart.symm, List.pairwise_cons] at pairwise
  apply whole.save
  · refine whole.collection.replace id path builtin ?_ ?_ ?_
    · exact ⟨_, path.trans (whole.collection.path inside), content, AList.lookup_insert _,
        describes⟩
    · intro other member
      exact (whole.collection.files other (kept member)).insert_ne
        (whole.collection.path_ne member).2 content
    · intro other member
      refine ⟨?_, ?_⟩
      · intro digest has
        rw [Option.mem_def, describes.1, Option.some.injEq] at has
        rw [← has]
        exact unique other member
      · rw [← sameText_congr named]
        exact (pairwise.1 other member).2
  · intro core member
    by_cases same : core = old
    · exact ⟨new, by simp, id.trans (congrArg CoreInfo.id same.symm)⟩
    · refine ⟨core, ?_, rfl⟩
      simp only [List.mem_append, List.mem_cons] at member ⊢
      tauto

theorem overwriteCore {before after : List CoreInfo} {old : CoreInfo}
    (whole : Whole platform store (before ++ old :: after)) {content : FileContent}
    {name abi : String} {disk : Disk}
    (checked : ElfChecker.checkAbi (some content) = .ok abi)
    (named : sameText platform old.name name = true)
    (safe : SafeOverwrite platform store old content abi disk.copy) :
    ∃ later, Whole platform
      (CoreManager.overwriteCore platform store old (corePath platform old.id) content name abi
        disk).2 later := by
  have inside : old ∈ before ++ old :: after := by simp
  rw [CoreManager.overwriteCore]
  cases copy : disk.copy with
  | completes =>
      rw [copy] at safe
      rcases safe with ⟨sameAbi, unique⟩
      let new : CoreInfo :=
        { old with
          name
          version := customVersion abi
          fileSize := content.bytes.length
          sha256 := some (platform.sha256 content.bytes)
          addedTime := disk.now }
      have put : putCore store.cores new = .builtin :: (before ++ new :: after) :=
        whole.putCore_eq rfl rfl
      refine ⟨before ++ new :: after, ?_⟩
      simp only [copyOver]
      rw [put]
      refine whole.replaceFile rfl rfl rfl named ⟨rfl, ?_⟩ ?_
      · rw [checked, sameAbi]
      · intro other member
        apply unique other _ (whole.collection.path_ne member).1
        rw [whole.customs_eq]
        simp only [List.mem_append, List.mem_cons] at member ⊢
        tauto
  | deleteFails =>
      rcases whole.collection.files old inside with ⟨path, atPath, content, there, -⟩
      rw [whole.collection.path inside, Option.mem_def, Option.some.injEq] at atPath
      rw [← atPath, Option.mem_def] at there
      refine ⟨before ++ old :: after, ?_⟩
      simp only [copyOver, there, Option.isSome_some, if_true]
      exact whole
  | breaks written =>
      rw [copy] at safe
      cases written with
      | none => exact safe.elim
      | some written =>
          refine ⟨_, whole.of_files le_rfl ?_⟩
          intro core member
          by_cases same : core = old
          · rw [same]
            exact ⟨_, whole.collection.path inside, _, AList.lookup_insert _, safe⟩
          · refine (whole.collection.files core member).insert_ne ?_ _
            apply (whole.collection.path_ne _).2
            simp only [List.mem_append, List.mem_cons] at member ⊢
            tauto

/-- A file of a new digest and name, under a new identifier. -/
theorem addFile (whole : Whole platform store customs) {new : CoreInfo} {content : FileContent}
    (id : new.id = platform.randomUUID store.issued)
    (path : new.filePath = some (corePath platform new.id)) (builtin : new.isBuiltin = false)
    (describes : new.Describes platform content)
    (apart : ∀ core ∈ customs, core.Apart platform new) :
    Whole platform
      (saveCustomCores
        { store with
          files := store.files.insert (corePath platform new.id) content
          cores := .builtin :: (customs ++ [new])
          issued := store.issued + 1 }
        (.builtin :: (customs ++ [new])))
      (customs ++ [new]) := by
  apply whole.save
  · exact whole.collection.add id path builtin describes apart
  · exact fun core member => ⟨core, List.mem_append_left _ member, rfl⟩

theorem addCore (whole : Whole platform store customs) {content : FileContent} {name abi : String}
    (disk : Disk) (checked : ElfChecker.checkAbi (some content) = .ok abi)
    (missing : findExisting platform store (platform.sha256 content.bytes) name = none) :
    ∃ later, Whole platform (CoreManager.addCore platform store content name abi disk).2 later := by
  have elsewhere {core : CoreInfo} (member : core ∈ customs) :
      core.filePath ≠ some (corePath platform (platform.randomUUID store.issued)) := by
    rcases whole.collection.shaped core member with ⟨number, early, issued, path⟩
    rw [path, ne_eq, Option.some.injEq, issued]
    exact fun same => early.ne (platform.randomUUID_injective (corePath_injective same))
  rw [CoreManager.addCore]
  simp only
  split
  · rename_i files copied
    refine ⟨customs, whole.of_files (Nat.le_succ _) ?_⟩
    intro core member
    have kept := (whole.collection.files core member).copyOver (elsewhere member) content
      (if disk.renames then .completes else disk.copy)
    rwa [copied] at kept
  · rename_i files copied
    rw [copyOver_completed copied, whole.cores, List.cons_append]
    let new : CoreInfo :=
      { id := platform.randomUUID store.issued
        name
        version := customVersion abi
        abi
        filePath := some (corePath platform (platform.randomUUID store.issued))
        fileSize := content.bytes.length
        sha256 := some (platform.sha256 content.bytes)
        isBuiltin := false
        addedTime := disk.now }
    refine ⟨customs ++ [new],
      @addFile platform store customs whole new content rfl rfl rfl ⟨rfl, checked⟩ ?_⟩
    intro core member
    rcases whole.findExisting_eq_none missing member with ⟨digest, name⟩
    refine CoreInfo.Apart.symm ⟨?_, (sameText_comm _ _).trans name⟩
    intro own same
    rw [← Option.some.inj same]
    exact digest

theorem installCore (whole : Whole platform store customs) {content : FileContent}
    {name abi : String} {disk : Disk} (checked : ElfChecker.checkAbi (some content) = .ok abi)
    (safe : SafeInstall platform store content name abi disk) :
    ∃ later, Whole platform
      (CoreManager.installCore platform store content name abi disk).2 later := by
  rw [CoreManager.installCore]
  cases found : findExisting platform store (platform.sha256 content.bytes) name with
  | none =>
      exact whole.addCore disk checked found
  | some old =>
      rcases whole.findExisting_eq_some found with ⟨⟨before, after, rfl⟩, matched⟩
      have inside : old ∈ before ++ old :: after := by simp
      have exists_file : (store.files.lookup (corePath platform old.id)).isSome = true := by
        rcases whole.collection.files old inside with ⟨path, atPath, file, there, -⟩
        rw [whole.collection.path inside, Option.mem_def, Option.some.injEq] at atPath
        rw [atPath, there]
        rfl
      simp only [whole.collection.path inside, exists_file, and_true]
      split
      · exact ⟨before ++ old :: after, whole⟩
      · rename_i different
        rw [Bool.not_eq_true] at different
        have named := matched.resolve_left (by rw [different]; decide)
        exact whole.overwriteCore checked named (safe old found different)

end Whole

theorem checkCore_eq_ok {content : FileContent} {expectedSha256 : Option String} {abi : String}
    (accepted : checkCore platform content expectedSha256 = .ok abi) :
    ElfChecker.checkAbi (some content) = .ok abi ∧
      ∀ expected ∈ demanded expectedSha256,
        sameText platform (platform.sha256 content.bytes) expected = true := by
  have file (passed : checkCore.checkFile platform content = .ok abi) :
      ElfChecker.checkAbi (some content) = .ok abi := by
    rw [checkCore.checkFile] at passed
    split at passed
    · cases passed
    · rename_i found read
      split at passed
      · split at passed
        · cases passed
        · rw [read, Except.ok.inj passed]
      · cases passed
  rw [checkCore] at accepted
  split at accepted
  · rename_i expected given
    split at accepted
    · rename_i same
      refine ⟨file accepted, ?_⟩
      rintro other has
      rw [given, Option.mem_def, Option.some.injEq] at has
      rw [← has]
      exact same
    · cases accepted
  · rename_i none
    refine ⟨file accepted, ?_⟩
    intro expected has
    rw [none] at has
    cases has

/-- The core which an installation reports has the digest of the file. -/
theorem installCore_digest {store : CoreStore} {content : FileContent} {name abi : String}
    {disk : Disk} {core : CoreInfo}
    (installed : (installCore platform store content name abi disk).1 = .ok core) :
    isText platform core.sha256 (platform.sha256 content.bytes) = true := by
  have added (passed : (addCore platform store content name abi disk).1 = .ok core) :
      isText platform core.sha256 (platform.sha256 content.bytes) = true := by
    simp only [addCore] at passed
    split at passed
    · cases passed
    · cases passed
      exact sameText_refl _
  rw [installCore] at installed
  split at installed
  · split at installed
    · split at installed
      · rename_i reused
        cases installed
        exact reused.1
      · simp only [overwriteCore] at installed
        split at installed
        · cases installed
        · cases installed
          exact sameText_refl _
    · exact added installed
  · exact added installed

/-- An import with an expected digest reports only a core of this digest. -/
theorem importCore_digest {store : CoreStore} {content : FileContent} {displayName : String}
    {expectedSha256 : Option String} {disk : Disk} {core : CoreInfo}
    (imported : (importCore platform store content displayName expectedSha256 disk).1 = .ok core) :
    ∀ expected ∈ demanded expectedSha256, isText platform core.sha256 expected = true := by
  rw [importCore] at imported
  split at imported
  · split at imported
    · cases imported
    · rename_i abi accepted
      have digest := installCore_digest imported
      intro expected given
      have same := (checkCore_eq_ok accepted).2 expected given
      cases own : core.sha256 with
      | none =>
          rw [own] at digest
          cases digest
      | some text =>
          rw [own, isText_some] at digest
          rw [isText_some, sameText_congr digest, same]
  · cases imported

theorem Whole.importCore {store : CoreStore} {customs : List CoreInfo}
    (whole : Whole platform store customs) {content : FileContent} {displayName : String}
    {expectedSha256 : Option String} {disk : Disk}
    (safe : SafeImport platform store content displayName expectedSha256 disk) :
    ∃ later, Whole platform
      (CoreManager.importCore platform store content displayName expectedSha256 disk).2 later := by
  rw [CoreManager.importCore]
  split
  · rename_i reads
    split
    · exact ⟨customs, whole⟩
    · rename_i abi accepted
      apply whole.installCore (checkCore_eq_ok accepted).1
      apply safe reads abi
      rw [accepted]
      rfl
  · exact ⟨customs, whole⟩

/-- What the mirrors leave, and what they report. -/
theorem Whole.tryMirrors {release : OnlineReleaseInfo} {network : String → Download}
    {urls : List String} {lastError : CoreError} {store : CoreStore} {customs : List CoreInfo}
    (whole : Whole platform store customs)
    (safe : SafeMirrors platform release network urls store) :
    (∃ later, Whole platform
      (CoreManager.tryMirrors platform release network urls lastError store).2 later) ∧
    ∀ core,
      (CoreManager.tryMirrors platform release network urls lastError store).1 = .ok core →
        ∀ expected ∈ demanded release.expectedSha256,
          isText platform core.sha256 expected = true := by
  induction urls generalizing lastError store customs with
  | nil => exact ⟨⟨customs, whole⟩, fun core done => by cases done⟩
  | cons url rest ih =>
      rw [SafeMirrors] at safe
      rw [CoreManager.tryMirrors]
      cases download : network url with
      | fails =>
          rw [download] at safe
          exact ih whole safe
      | delivers content disk =>
          rw [download] at safe
          by_cases large : minimumSize < content.bytes.length
          · simp only [if_pos large] at safe ⊢
            rcases safe with ⟨safe, others⟩
            rcases whole.importCore safe with ⟨later, kept⟩
            cases imported : CoreManager.importCore platform store content release.coreName
                release.expectedSha256 disk with
            | mk result after =>
                rw [imported] at kept others
                cases result with
                | ok core =>
                    refine ⟨⟨later, kept⟩, ?_⟩
                    intro other done
                    cases done
                    exact importCore_digest (congrArg Prod.fst imported)
                | error error => exact ih kept others
          · simp only [if_neg large] at safe ⊢
            exact ih whole safe

theorem Whole.downloadAndImportRelease {release : OnlineReleaseInfo}
    {downloadPrefix : Option String} {network : String → Download} {store : CoreStore}
    {customs : List CoreInfo} (whole : Whole platform store customs)
    (safe : SafeRelease platform store release downloadPrefix network) :
    (∃ later, Whole platform
      (CoreManager.downloadAndImportRelease platform store release downloadPrefix network).2
        later) ∧
    ∀ core,
      (CoreManager.downloadAndImportRelease platform store release downloadPrefix
        network).1 = .ok core →
        ∀ expected ∈ demanded release.expectedSha256,
          isText platform core.sha256 expected = true := by
  rw [SafeRelease] at safe
  rw [CoreManager.downloadAndImportRelease]
  cases found : findInstalled platform store release with
  | some existing =>
      rw [found] at safe
      refine ⟨⟨customs, whole⟩, ?_⟩
      intro core done
      cases done
      exact safe
  | none =>
      rw [found] at safe
      exact whole.tryMirrors safe

namespace CoreHistory

/-- What a safe run keeps. -/
structure Kept (platform : CorePlatform) (history : CoreHistory) : Prop where
  whole : ∃ customs, Whole platform history.store customs
  installed : ∀ report ∈ history.installed, ∀ expected ∈ demanded report.1.expectedSha256,
    isText platform report.2.sha256 expected = true

theorem Kept.intact {history : CoreHistory} (kept : Kept platform history) :
    history.Intact platform := by
  rcases kept.whole with ⟨customs, whole⟩
  constructor
  · rw [whole.customs_eq]
    exact whole.collection.files
  · rw [whole.customs_eq]
    exact whole.collection.apart
  · exact whole.active
  · exact kept.installed

theorem Kept.step {history : CoreHistory} (kept : Kept platform history) {event : CoreEvent}
    (safe : history.Safe platform event) : Kept platform (history.step platform event) := by
  rcases kept with ⟨⟨customs, whole⟩, installed⟩
  cases event with
  | importCore content displayName expectedSha256 disk => exact ⟨whole.importCore safe, installed⟩
  | downloadAndImportRelease release downloadPrefix network =>
      rcases whole.downloadAndImportRelease safe with ⟨after, digest⟩
      rw [CoreHistory.step]
      split
      · rename_i core store outcome
        rw [outcome] at after digest
        refine ⟨after, ?_⟩
        intro report member
        rcases List.mem_append.mp member with before | last
        · exact installed report before
        · rw [List.mem_singleton.mp last]
          exact digest core rfl
      · rename_i error store outcome
        rw [outcome] at after
        exact ⟨after, installed⟩
  | deleteCore id deletes => exact ⟨whole.deleteCore id deletes, installed⟩
  | setActiveCore id => exact ⟨⟨customs, whole.setActiveCore id⟩, installed⟩
  | restart => exact ⟨⟨_, whole.loadCustomCores⟩, installed⟩

/--
In every run in which each overwriting import is safe, and each core which is
taken for a release without a download has its digest, the store is intact in
every state.
-/
theorem intact_of_safe (platform : CorePlatform) {events : List CoreEvent}
    (safe : Along (CoreHistory.step platform) (CoreHistory.Safe platform) .new events) :
    Throughout (CoreHistory.step platform) (CoreHistory.Intact platform) .new events := by
  refine throughout_of_along (Kept platform) (fun kept => kept.intact)
    (fun kept safe => kept.step safe) safe ?_
  refine ⟨⟨[], Whole.new⟩, ?_⟩
  intro report member
  cases member

/-- Two cores of the same ABI. -/
def firstCore : FileContent where
  bytes := NativeSymbolPolicy.writeElf (NativeSymbolPolicy.jniPrefix ++ "start") 1
  length_lt := by decide +kernel

def secondCore : FileContent where
  bytes := NativeSymbolPolicy.writeElf (NativeSymbolPolicy.jniPrefix ++ "start") 2
  length_lt := by decide +kernel

/-- A device, with the digests of the two cores and of the empty file. -/
def device : CorePlatform where
  sha256 bytes :=
    if bytes = firstCore.bytes then
      "4b3b71e4825b8cc5ba1f4df52e633a365e76ff9e57e0a610cc76b91a8c98f828"
    else if bytes = secondCore.bytes then
      "99625bf2ae727a9f1d32bc0347a6fc37647099055a3e01a2b22514db15c6b676"
    else "e3b0c44298fc1c149afbf4c8996fb92427ae41e4649b934ca495991b7852b855"
  foldCase unit := if 'A'.toNat ≤ unit ∧ unit ≤ 'Z'.toNat then unit + 32 else unit
  supportedAbis := ["arm64-v8a", "armeabi-v7a", "armeabi"]
  classLoader := some ⟨.ok ["start"]⟩
  coresDir := "/data/user/0/com.mirage.android/files/cores"
  randomUUID number := "00000000-0000-4000-8000-00000000000" ++ toString number
  sha256_not_blank := by
    intro bytes
    split
    · decide
    · split <;> decide
  randomUUID_injective := by
    intro first second same
    have digits : toString first = toString second := by
      have texts := congrArg String.toList same
      simp only [String.toList_append, List.append_cancel_left_eq] at texts
      exact String.toList_injective texts
    have parsed := parseUnsigned_toString (Nat.le_max_left first second)
    rw [digits, parseUnsigned_toString (Nat.le_max_right first second)] at parsed
    exact (Except.ok.inj parsed).symm
  randomUUID_ne_builtin := by
    intro number same
    have start := congrArg (fun text => text.toList.head?) same
    simp at start

/-- A disk on which nothing fails. -/
def goodDisk : Disk := ⟨true, true, .completes, 0⟩

/-- A core is imported, and then replaced by another one of the same name. -/
theorem intact_replacement :
    Throughout (CoreHistory.step device) (CoreHistory.Intact device) .new
      [.importCore firstCore "mirage" none goodDisk, .importCore secondCore "Mirage" none goodDisk,
        .restart] := by
  apply intact_of_safe
  refine ⟨?_, ?_, trivial, trivial⟩
  · change SafeImport device _ _ _ _ _
    decide +kernel
  · change SafeImport device _ _ _ _ _
    decide +kernel

/-- The disk is full when the new file is written: the old one is already gone. -/
theorem not_intact_fullDisk :
    ¬ Throughout (CoreHistory.step device) (CoreHistory.Intact device) .new
      [.importCore firstCore "mirage" none goodDisk,
        .importCore secondCore "mirage" none ⟨true, true, .breaks none, 0⟩] := by
  intro throughout
  have files := throughout.run.files
  revert files
  decide +kernel

end CoreHistory

end Mirage.Shell
