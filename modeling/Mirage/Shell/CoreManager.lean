import Mirage.Foundations.MutualMaps
import Mirage.Foundations.Run
import Mirage.Shell.JvmText
import Mirage.Shell.NativeSymbolPolicy

/-!
# The store of cores

`CoreManager` keeps the cores which the user has imported or downloaded: a list
of records, which is saved in the preferences, and a file for each of them.  A
core of the same digest or name is replaced in its file.

What a device, its reflection and its disk do is given from outside: the
platform by a structure, the failures of a call with its event.
-/

namespace Mirage.Shell

open Mirage.Foundations

/-- The first bytes of a file. -/
def FileContent.take (content : FileContent) (count : ℕ) : FileContent where
  bytes := content.bytes.take count
  length_lt := Nat.lt_of_le_of_lt (List.length_take_le' _ _) content.length_lt

/--
`MessageDigest`, `Character`, `Build`, reflection and `UUID`.  A digest is never
a blank text, and no identifier comes twice or is that of the built-in core.
-/
structure CorePlatform where
  sha256 : List UInt8 → String
  foldCase : ℕ → ℕ
  supportedAbis : List String
  classLoader : Option ClassLoader
  coresDir : String
  randomUUID : ℕ → String
  sha256_not_blank : ∀ bytes, isBlank (sha256 bytes) = false
  randomUUID_injective : Function.Injective randomUUID
  randomUUID_ne_builtin : ∀ number, randomUUID number ≠ "builtin"

structure CoreInfo where
  id : String
  name : String
  version : String
  abi : String
  filePath : Option String
  fileSize : ℕ
  sha256 : Option String
  isBuiltin : Bool
  addedTime : ℕ
  deriving DecidableEq, Repr

namespace CoreInfo

def builtinId : String := "builtin"

def builtin : CoreInfo where
  id := builtinId
  name := "内置默认内核"
  version := "v0.10.4 (内置)"
  abi := "系统原生"
  filePath := none
  fileSize := 0
  sha256 := none
  isBuiltin := true
  addedTime := 0

end CoreInfo

/-- The parts of a release which an installation uses. -/
structure OnlineReleaseInfo where
  tagName : String
  downloadUrl : String
  expectedSha256 : Option String
  deriving DecidableEq, Repr

def OnlineReleaseInfo.coreName (release : OnlineReleaseInfo) : String :=
  "Mirage-rs " ++ release.tagName

/-- A record of the preferences. -/
structure SavedCore where
  id : String
  name : String
  version : String
  abi : String
  filePath : Option String
  sha256 : String
  addedTime : ℕ
  deriving DecidableEq, Repr

def CoreInfo.save (core : CoreInfo) : SavedCore where
  id := core.id
  name := core.name
  version := core.version
  abi := core.abi
  filePath := core.filePath
  sha256 := core.sha256.getD ""
  addedTime := core.addedTime

/-- How a copy over a file ends: what is there is deleted first, and then written anew. -/
inductive CopyOutcome where
  | completes
  | deleteFails
  /-- The file is not opened, or this many bytes are written. -/
  | breaks (written : Option ℕ)
  deriving DecidableEq, Repr

/--
What the disk does in one import: whether the temporary file is written and read
back, and how it gets to its place.
-/
structure Disk where
  reads : Bool
  renames : Bool
  copy : CopyOutcome
  now : ℕ
  deriving DecidableEq, Repr

inductive CoreError where
  | io
  | digest (expected actual : String)
  | elf (error : ElfError)
  | incompatible (abi : String)
  | symbols (reason : String)
  | tooSmall
  deriving DecidableEq, Repr

/-- The message of the exception; that of an input or output error comes from the system. -/
def CoreError.message (platform : CorePlatform) : CoreError → Option String
  | .io => none
  | .digest expected actual =>
      some ("内核 SHA-256 完整性校验失败 (文件可能损坏或被篡改)！\n" ++ "期望: " ++
        String.ofList (expected.toList.take 16) ++ "...\n实际: " ++
        String.ofList (actual.toList.take 16) ++ "...")
  | .elf error => error.message
  | .incompatible abi =>
      some ("架构不兼容！该内核为 " ++ abi ++ "，但当前设备支持: " ++
        ", ".intercalate platform.supportedAbis)
  | .symbols reason => some reason
  | .tooSmall => some "下载文件不完整 (大小过小)"

structure CoreStore where
  files : FiniteMap String FileContent
  cores : List CoreInfo
  activeCoreId : String
  coresJson : Option (List SavedCore)
  savedActive : Option String
  issued : ℕ

namespace CoreStore

/-- A fresh installation. -/
def new : CoreStore where
  files := ∅
  cores := [.builtin]
  activeCoreId := CoreInfo.builtinId
  coresJson := none
  savedActive := none
  issued := 0

def customs (store : CoreStore) : List CoreInfo := store.cores.filter (!·.isBuiltin)

end CoreStore

namespace CoreManager

variable (platform : CorePlatform)

/-- `equals` with `ignoreCase` -/
def sameText (first second : String) : Bool :=
  (utf16 first.toList).map platform.foldCase == (utf16 second.toList).map platform.foldCase

/-- The same where one side may be missing. -/
def isText (text : Option String) (other : String) : Bool :=
  text.any fun text => sameText platform text other

def isDeviceCompatible (abi : String) : Bool :=
  platform.supportedAbis.any fun supported => sameText platform supported abi

def corePath (id : String) : String := platform.coresDir ++ "/libmirage_" ++ id ++ ".so"

/-- The digest which is asked for, if one is. -/
def demanded (expectedSha256 : Option String) : Option String :=
  expectedSha256.filter (!isBlank ·)

def saveCustomCores (store : CoreStore) (cores : List CoreInfo) : CoreStore :=
  { store with coresJson := some ((cores.filter (!·.isBuiltin)).map CoreInfo.save) }

/-- A record whose file exists; a blank digest is none. -/
def loadCore (files : FiniteMap String FileContent) (saved : SavedCore) : Option CoreInfo := do
  let path ← saved.filePath
  let content ← files.lookup path
  some
    { id := saved.id
      name := saved.name
      version := saved.version
      abi := saved.abi
      filePath := some path
      fileSize := content.bytes.length
      sha256 := if isBlank saved.sha256 then none else some saved.sha256
      isBuiltin := false
      addedTime := saved.addedTime }

/-- The store after a start of the app; a record without a path makes the whole list unreadable. -/
def loadCustomCores (store : CoreStore) : CoreStore :=
  let saved := store.coresJson.getD []
  let customs :=
    if saved.all (·.filePath.isSome) then saved.filterMap (loadCore store.files) else []
  let cores := CoreInfo.builtin :: customs
  let active := store.savedActive.getD CoreInfo.builtinId
  { store with
    cores
    activeCoreId := if cores.any (·.id == active) then active else CoreInfo.builtinId }

def setActiveCore (store : CoreStore) (id : String) : Bool × CoreStore :=
  if store.cores.any (·.id == id) then
    (true, { store with activeCoreId := id, savedActive := some id })
  else (false, store)

/-- `deletes` tells whether the file can be deleted. -/
def deleteFile (files : FiniteMap String FileContent) (item : CoreInfo) (deletes : Bool) :
    FiniteMap String FileContent :=
  match item.filePath with
  | some path => if deletes then files.erase path else files
  | none => files

def deleteCore (store : CoreStore) (id : String) (deletes : Bool) : Bool × CoreStore :=
  if id = CoreInfo.builtinId then (false, store)
  else
    match store.cores.find? (·.id == id) with
    | none => (false, store)
    | some item =>
        let current := store.cores.erase item
        let saved := saveCustomCores
          { store with files := deleteFile store.files item deletes, cores := current } current
        if saved.activeCoreId = id then (true, (setActiveCore saved CoreInfo.builtinId).2)
        else (true, saved)

section Import

/-- The checks of a file, and its ABI. -/
def checkCore (content : FileContent) (expectedSha256 : Option String) :
    Except CoreError String :=
  let computed := platform.sha256 content.bytes
  match demanded expectedSha256 with
  | some expected =>
      if sameText platform computed expected then checkFile else .error (.digest expected computed)
  | none => checkFile
where
  checkFile : Except CoreError String :=
    match ElfChecker.checkAbi (some content) with
    | .error error => .error (.elf error)
    | .ok abi =>
        if isDeviceCompatible platform abi then
          match NativeSymbolPolicy.verify (some content) platform.classLoader with
          | some reason => .error (.symbols reason)
          | none => .ok abi
        else .error (.incompatible abi)

def coreName (displayName abi : String) : String :=
  if isBlank displayName then "Mirage 内核 (" ++ abi ++ ")" else displayName

def customVersion (abi : String) : String := "自定义版本 (" ++ abi ++ ")"

/-- The first core with this digest or this name. -/
def findExisting (store : CoreStore) (digest name : String) : Option CoreInfo :=
  store.cores.find? fun core =>
    !core.isBuiltin && (isText platform core.sha256 digest || sameText platform core.name name)

/-- The files after a copy over one of them, and whether the copy has completed. -/
def copyOver (files : FiniteMap String FileContent) (path : String) (content : FileContent) :
    CopyOutcome → Bool × FiniteMap String FileContent
  | .completes => (true, files.insert path content)
  | .deleteFails =>
      if (files.lookup path).isSome then (false, files) else (true, files.insert path content)
  | .breaks none => (false, files.erase path)
  | .breaks (some written) => (false, files.insert path (content.take written))

/-- A new record takes the place of the one with its identifier. -/
def putCore (cores : List CoreInfo) (core : CoreInfo) : List CoreInfo :=
  match cores.findIdx? (·.id == core.id) with
  | some index => cores.set index core
  | none => cores ++ [core]

def overwriteCore (store : CoreStore) (existing : CoreInfo) (path : String) (content : FileContent)
    (name abi : String) (disk : Disk) : Except CoreError CoreInfo × CoreStore :=
  match copyOver store.files path content disk.copy with
  | (false, files) => (.error .io, { store with files })
  | (true, files) =>
      let updatedInfo :=
        { existing with
          name
          version := customVersion abi
          fileSize := content.bytes.length
          sha256 := some (platform.sha256 content.bytes)
          addedTime := disk.now }
      let current := putCore store.cores updatedInfo
      (.ok updatedInfo, saveCustomCores { store with files, cores := current } current)

def addCore (store : CoreStore) (content : FileContent) (name abi : String) (disk : Disk) :
    Except CoreError CoreInfo × CoreStore :=
  let id := platform.randomUUID store.issued
  let path := corePath platform id
  let issued := store.issued + 1
  match copyOver store.files path content (if disk.renames then .completes else disk.copy) with
  | (false, files) => (.error .io, { store with files, issued })
  | (true, files) =>
      let coreInfo : CoreInfo :=
        { id
          name
          version := customVersion abi
          abi
          filePath := some path
          fileSize := content.bytes.length
          sha256 := some (platform.sha256 content.bytes)
          isBuiltin := false
          addedTime := disk.now }
      let current := store.cores ++ [coreInfo]
      (.ok coreInfo, saveCustomCores { store with files, cores := current, issued } current)

/-- An accepted file takes the place of a core, or becomes a new one. -/
def installCore (store : CoreStore) (content : FileContent) (name abi : String)
    (disk : Disk) : Except CoreError CoreInfo × CoreStore :=
  let computed := platform.sha256 content.bytes
  match findExisting platform store computed name with
  | some existing =>
      match existing.filePath with
      | some path =>
          if isText platform existing.sha256 computed ∧ (store.files.lookup path).isSome then
            (.ok existing, store)
          else overwriteCore platform store existing path content name abi disk
      | none => addCore platform store content name abi disk
  | none => addCore platform store content name abi disk

def importCore (store : CoreStore) (content : FileContent) (displayName : String)
    (expectedSha256 : Option String) (disk : Disk) : Except CoreError CoreInfo × CoreStore :=
  if disk.reads then
    match checkCore platform content expectedSha256 with
    | .error error => (.error error, store)
    | .ok abi => installCore platform store content (coreName displayName abi) abi disk
  else (.error .io, store)

end Import

section Releases

/-- The core which is taken for a release without a download. -/
def findInstalled (store : CoreStore) (release : OnlineReleaseInfo) : Option CoreInfo :=
  store.cores.find? fun core =>
    !core.isBuiltin &&
      ((demanded release.expectedSha256).any (isText platform core.sha256 ·) ||
        sameText platform core.name release.coreName) &&
      core.filePath.any fun path => (store.files.lookup path).isSome

def candidateUrls (downloadPrefix : Option String) (downloadUrl : String) : List String :=
  (((demanded downloadPrefix).map (· ++ downloadUrl)).toList ++
    ["https://ghfast.top/" ++ downloadUrl, "https://gh.ddlc.top/" ++ downloadUrl,
      downloadUrl]).eraseDups

/-- A download is to be larger than this. -/
def minimumSize : ℕ := 50 * 1024

/-- What a mirror delivers, and what the disk does when it is imported. -/
inductive Download where
  | fails
  | delivers (content : FileContent) (disk : Disk)
  deriving DecidableEq

/-- The mirrors one after the other. -/
def tryMirrors (release : OnlineReleaseInfo) (network : String → Download) :
    List String → CoreError → CoreStore → Except CoreError CoreInfo × CoreStore
  | [], lastError, store => (.error lastError, store)
  | url :: rest, _, store =>
      match network url with
      | .fails => tryMirrors release network rest .io store
      | .delivers content disk =>
          if minimumSize < content.bytes.length then
            match importCore platform store content release.coreName release.expectedSha256
                disk with
            | (.ok core, store) => (.ok core, store)
            | (.error error, store) => tryMirrors release network rest error store
          else tryMirrors release network rest .tooSmall store

def downloadAndImportRelease (store : CoreStore) (release : OnlineReleaseInfo)
    (downloadPrefix : Option String) (network : String → Download) :
    Except CoreError CoreInfo × CoreStore :=
  match findInstalled platform store release with
  | some existing => (.ok existing, store)
  | none =>
      tryMirrors platform release network (candidateUrls downloadPrefix release.downloadUrl) .io
        store

end Releases

end CoreManager

end Mirage.Shell
