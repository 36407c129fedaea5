import Mirage.Shell.CoreManager

/-!
# Runs of the store of cores

The calls on the store, and what is to hold between them: the file of each
custom core is there and has the recorded digest and ABI, no two custom cores
share a digest or a name, the active core is listed, and a release is reported
as installed only by a core of its digest.
-/

namespace Mirage.Shell

open Mirage.Foundations CoreManager

/-- The store, and the releases which have been reported as installed. -/
structure CoreHistory where
  store : CoreStore
  installed : List (OnlineReleaseInfo × CoreInfo)

inductive CoreEvent where
  | importCore (content : FileContent) (displayName : String) (expectedSha256 : Option String)
      (disk : Disk)
  | downloadAndImportRelease (release : OnlineReleaseInfo) (downloadPrefix : Option String)
      (network : String → Download)
  | deleteCore (id : String) (deletes : Bool)
  | setActiveCore (id : String)
  | restart

namespace CoreHistory

def new : CoreHistory where
  store := .new
  installed := []

variable (platform : CorePlatform)

def step (history : CoreHistory) : CoreEvent → CoreHistory
  | .importCore content displayName expectedSha256 disk =>
      { history with
        store := (importCore platform history.store content displayName expectedSha256 disk).2 }
  | .downloadAndImportRelease release downloadPrefix network =>
      match downloadAndImportRelease platform history.store release downloadPrefix network with
      | (.ok core, store) => { store, installed := history.installed ++ [(release, core)] }
      | (.error _, store) => { history with store }
  | .deleteCore id deletes => { history with store := (deleteCore history.store id deletes).2 }
  | .setActiveCore id => { history with store := (setActiveCore history.store id).2 }
  | .restart => { history with store := loadCustomCores history.store }

end CoreHistory

section Property

variable (platform : CorePlatform)

/-- The content has the digest and the ABI of the record. -/
def CoreInfo.Describes (core : CoreInfo) (content : FileContent) : Prop :=
  core.sha256 = some (platform.sha256 content.bytes) ∧
    ElfChecker.checkAbi (some content) = .ok core.abi

instance (core : CoreInfo) (content : FileContent) : Decidable (core.Describes platform content) :=
  inferInstanceAs (Decidable (_ ∧ _))

/-- The file of the record is there, and is the one which it describes. -/
def CoreInfo.HasFile (files : FiniteMap String FileContent) (core : CoreInfo) : Prop :=
  ∃ path ∈ core.filePath, ∃ content ∈ files.lookup path, core.Describes platform content

instance (files : FiniteMap String FileContent) (core : CoreInfo) :
    Decidable (core.HasFile platform files) :=
  inferInstanceAs (Decidable (∃ path ∈ _, _))

/-- Two cores have neither the digest nor the name in common. -/
def CoreInfo.Apart (first second : CoreInfo) : Prop :=
  (∀ digest ∈ first.sha256, isText platform second.sha256 digest = false) ∧
    sameText platform first.name second.name = false

structure CoreHistory.Intact (history : CoreHistory) : Prop where
  files : ∀ core ∈ history.store.customs, core.HasFile platform history.store.files
  apart : history.store.customs.Pairwise (CoreInfo.Apart platform)
  active : ∃ core ∈ history.store.cores, core.id = history.store.activeCoreId
  installed : ∀ report ∈ history.installed, ∀ expected ∈ demanded report.1.expectedSha256,
    isText platform report.2.sha256 expected = true

end Property

section Guard

variable (platform : CorePlatform) (store : CoreStore)

/-- The file of an old core may be replaced with this outcome. -/
def SafeOverwrite (old : CoreInfo) (content : FileContent) (abi : String) : CopyOutcome → Prop
  | .completes =>
      abi = old.abi ∧ ∀ other ∈ store.customs, other.id ≠ old.id →
        isText platform other.sha256 (platform.sha256 content.bytes) = false
  | .deleteFails => True
  | .breaks none => False
  | .breaks (some written) => old.Describes platform (content.take written)

/-- If an import overwrites a core, it is safe to do so. -/
def SafeInstall (content : FileContent) (name abi : String) (disk : Disk) : Prop :=
  ∀ old ∈ findExisting platform store (platform.sha256 content.bytes) name,
    isText platform old.sha256 (platform.sha256 content.bytes) = false →
      SafeOverwrite platform store old content abi disk.copy

def SafeImport (content : FileContent) (displayName : String) (expectedSha256 : Option String)
    (disk : Disk) : Prop :=
  disk.reads = true → ∀ abi ∈ (checkCore platform content expectedSha256).toOption,
    SafeInstall platform store content (coreName displayName abi) abi disk

instance (old : CoreInfo) (content : FileContent) (abi : String) (copy : CopyOutcome) :
    Decidable (SafeOverwrite platform store old content abi copy) :=
  match copy with
  | .completes => inferInstanceAs (Decidable (_ ∧ _))
  | .deleteFails => inferInstanceAs (Decidable True)
  | .breaks none => inferInstanceAs (Decidable False)
  | .breaks (some _) => inferInstanceAs (Decidable (old.Describes platform _))

instance (content : FileContent) (displayName : String) (expectedSha256 : Option String)
    (disk : Disk) :
    Decidable (SafeImport platform store content displayName expectedSha256 disk) := by
  unfold SafeImport SafeInstall
  infer_instance

/-- Each import of a download is safe where it happens. -/
def SafeMirrors (release : OnlineReleaseInfo) (network : String → Download) :
    List String → CoreStore → Prop
  | [], _ => True
  | url :: rest, store =>
      match network url with
      | .fails => SafeMirrors release network rest store
      | .delivers content disk =>
          if minimumSize < content.bytes.length then
            SafeImport platform store content release.coreName release.expectedSha256 disk ∧
              match importCore platform store content release.coreName release.expectedSha256
                disk with
              | (.ok _, _) => True
              | (.error _, after) => SafeMirrors release network rest after
          else SafeMirrors release network rest store

/-- A core which is taken without a download has the digest of the release. -/
def SafeRelease (release : OnlineReleaseInfo) (downloadPrefix : Option String)
    (network : String → Download) : Prop :=
  match findInstalled platform store release with
  | some existing =>
      ∀ expected ∈ demanded release.expectedSha256,
        isText platform existing.sha256 expected = true
  | none =>
      SafeMirrors platform release network (candidateUrls downloadPrefix release.downloadUrl)
        store

def CoreHistory.Safe (history : CoreHistory) : CoreEvent → Prop
  | .importCore content displayName expectedSha256 disk =>
      SafeImport platform history.store content displayName expectedSha256 disk
  | .downloadAndImportRelease release downloadPrefix network =>
      SafeRelease platform history.store release downloadPrefix network
  | _ => True

end Guard

end Mirage.Shell
