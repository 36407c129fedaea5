import Mirage.Foundations.Replacement
import Mirage.Shell.JvmText

/-!
# The Geo data files

`GeoManager` downloads `geosite.dat` and `geoip.dat` from a list of mirrors,
checks each against the digest which its mirror publishes, and installs the two
together.  A built-in mirror has to publish a matching digest; from a custom
source a file without one is accepted, but not as verified.

The answers of the network are a function of the request: each request of an
update has its own data set, mirror, purpose, attempt and number of redirects.
The moves of the installation fail as an oracle says.
-/

namespace Mirage.Shell

open Mirage.Foundations

structure GeoSource where
  id : String
  name : String
  geositeUrl : String
  geoipUrl : String
  isBuiltin : Bool
  deriving DecidableEq, Repr

inductive FailureReason where
  | download
  | mismatch
  | digestAbsent
  | digestUnavailable
  deriving DecidableEq, Repr

inductive Dataset where
  | site
  | ip
  deriving DecidableEq, Repr

def Dataset.title : Dataset → String
  | .site => "GeoSite 数据集"
  | .ip => "GeoIP 数据集"

def GeoSource.url (source : GeoSource) : Dataset → String
  | .site => source.geositeUrl
  | .ip => source.geoipUrl

/-- `body` is what is read until the stream ends or breaks, `text` what one `read` of it gives. -/
structure Response where
  code : ℕ
  location : Option String
  body : List UInt8
  breaks : Bool
  text : String
  deriving DecidableEq, Repr

inductive Reply where
  | fails
  | answers (response : Response)
  deriving DecidableEq, Repr

/-- `freshDigest` is the second digest, which is fetched past the cache. -/
inductive Purpose where
  | artifact
  | digest
  | freshDigest
  deriving DecidableEq, Repr

structure HttpRequest where
  dataset : Dataset
  mirror : String
  purpose : Purpose
  attempt : ℕ
  hop : ℕ
  deriving DecidableEq, Repr

/-- `URL` and `MessageDigest`; a malformed URL has no protocol and resolves to nothing. -/
structure Platform where
  protocol : String → Option String
  resolve : String → String → Option String
  sha256 : List UInt8 → String

inductive DigestResult where
  | found (hex : String)
  | absent
  | unavailable
  deriving DecidableEq, Repr

/-- A file on disk, and the URL which this update has downloaded it from. -/
structure GeoFile where
  bytes : List UInt8
  origin : Option String
  deriving DecidableEq, Repr

/-- The digest of the file is this one. -/
def DigestResult.confirms (platform : Platform) (file : GeoFile) : DigestResult → Bool
  | .found hex => equalsIgnoreCase (platform.sha256 file.bytes) hex
  | _ => false

structure DownloadOutcome where
  ok : Bool
  verified : Bool
  failure : FailureReason := .download
  deriving DecidableEq, Repr

structure GeoFiles (Content : Type*) where
  site : Slot Content
  ip : Slot Content
  deriving DecidableEq, Repr

def GeoFiles.current {Content : Type*} (files : GeoFiles Content) : Dataset → Option Content
  | .site => files.site.current
  | .ip => files.ip.current

/-- The files which an update finds. -/
def GeoFiles.ofBytes (files : GeoFiles (List UInt8)) : GeoFiles GeoFile where
  site := files.site.map fun bytes => ⟨bytes, none⟩
  ip := files.ip.map fun bytes => ⟨bytes, none⟩

/-- What can fail in an installation. -/
inductive Move where
  | backupSite
  | backupIp
  | installSite
  | installIp
  | deleteSiteBackup
  | deleteIpBackup
  | restoreSite
  | restoreIp
  deriving DecidableEq, Repr

structure GeoUpdateResult where
  success : Bool
  message : String
  geositeTags : ℕ := 0
  geoipCodes : ℕ := 0
  verified : Bool := true
  deriving DecidableEq, Repr

namespace GeoManager

def builtinSources : List GeoSource :=
  [{ id := "loyalsoldier"
     name := "Loyalsoldier 官方源 (GitHub)"
     geositeUrl :=
      "https://raw.githubusercontent.com/Loyalsoldier/v2ray-rules-dat/release/geosite.dat"
     geoipUrl := "https://raw.githubusercontent.com/Loyalsoldier/v2ray-rules-dat/release/geoip.dat"
     isBuiltin := true },
   { id := "fastly_cdn"
     name := "Fastly CDN 加速镜像 (国内极速)"
     geositeUrl := "https://fastly.jsdelivr.net/gh/Loyalsoldier/v2ray-rules-dat@release/geosite.dat"
     geoipUrl := "https://fastly.jsdelivr.net/gh/Loyalsoldier/v2ray-rules-dat@release/geoip.dat"
     isBuiltin := true },
   { id := "v2fly"
     name := "v2fly 官方源"
     geositeUrl :=
      "https://github.com/v2fly/domain-list-community/releases/latest/download/dlc.dat"
     geoipUrl := "https://github.com/v2fly/geoip/releases/latest/download/geoip.dat"
     isBuiltin := true }]

/-- The mirrors which are tried after the active source. -/
def fallbackMirrors : Dataset → List String
  | .site =>
      ["https://fastly.jsdelivr.net/gh/Loyalsoldier/v2ray-rules-dat@release/geosite.dat",
       "https://raw.githubusercontent.com/Loyalsoldier/v2ray-rules-dat/release/geosite.dat"]
  | .ip =>
      ["https://fastly.jsdelivr.net/gh/Loyalsoldier/v2ray-rules-dat@release/geoip.dat",
       "https://raw.githubusercontent.com/Loyalsoldier/v2ray-rules-dat/release/geoip.dat"]

def builtinMirrorUrls : List String :=
  (builtinSources.flatMap fun source => [source.geositeUrl, source.geoipUrl]) ++
    fallbackMirrors .site ++ fallbackMirrors .ip

def isBuiltinUrl (url : String) : Bool :=
  builtinMirrorUrls.contains (jvmTrim url)

def isHttps (url : String) : Bool :=
  startsWithIgnoreCase url "https://"

def mirrors (source : GeoSource) (dataset : Dataset) : List String :=
  ((source.url dataset :: fallbackMirrors dataset).filter isHttps).eraseDups

/-- The files are to be larger than this. -/
def minimumSize : ℕ := 50 * 1024

def describeFailure (what : String) : FailureReason → String
  | .download => what ++ " 下载失败，请检查网络或更换更新 URL"
  | .mismatch => what ++ " 的内容与上游 SHA-256 摘要不符，已拒绝安装。" ++
      "常见原因是镜像缓存尚未与上游同步（稍后重试通常即可恢复）；若持续不符，则可能是内容被篡改"
  | .digestAbsent => what ++ " 的上游未提供 SHA-256 摘要，内置源要求强制校验，已拒绝安装"
  | .digestUnavailable =>
      what ++ " 无法获取 SHA-256 摘要（网络或镜像暂时不可用），已拒绝安装；请稍后重试"

section Downloads

variable (platform : Platform)

def speaksHttps (url : String) : Bool :=
  (platform.protocol url).any fun protocol => equalsIgnoreCase protocol "https"

/-- How the redirects of a download end. -/
inductive Opening where
  | thrown
  | refused
  | opened (response : Response)
  deriving DecidableEq, Repr

/-- At most `left` connections; the number of the redirect is `hop`. -/
def openArtifact (replies : ℕ → Reply) : (left hop : ℕ) → (url : String) → Opening
  | 0, _, _ => .refused
  | left + 1, hop, url =>
      if !speaksHttps platform url then .refused
      else
        match replies hop with
        | .fails => .thrown
        | .answers response =>
            if 300 ≤ response.code ∧ response.code ≤ 399 then
              match response.location with
              | none => .refused
              | some location =>
                  match platform.resolve url location with
                  | none => .thrown
                  | some next =>
                      if speaksHttps platform next then openArtifact replies left (hop + 1) next
                      else .refused
            else if response.code = 200 then .opened response
            else .refused

/-- The result, and the file at `dest` afterwards: an exception deletes it. -/
def downloadFile (replies : ℕ → Reply) (url : String) (dest : Option GeoFile) :
    Bool × Option GeoFile :=
  if !isHttps url then (false, dest)
  else if (platform.protocol url).isNone then (false, none)
  else
    match openArtifact platform replies 5 0 url with
    | .thrown => (false, none)
    | .refused => (false, dest)
    | .opened response =>
        if response.breaks then (false, none)
        else (decide (0 < response.body.length), some ⟨response.body, some url⟩)

def isHexDigit (char : Char) : Bool :=
  char.isDigit || ('a' ≤ char && char ≤ 'f') || ('A' ≤ char && char ≤ 'F')

/-- The first 64 characters of the digest file, if they are hexadecimal digits. -/
def parseDigest (text : String) : DigestResult :=
  let digits := ((jvmTrim (String.ofList (text.toList.take 4096))).toList.take 64)
  if digits.length = 64 ∧ digits.all isHexDigit then
    .found (String.ofList (digits.map Char.toLower))
  else .unavailable

def openDigest (replies : ℕ → Reply) : (left hop : ℕ) → (url : String) → DigestResult
  | 0, _, _ => .unavailable
  | left + 1, hop, url =>
      if !speaksHttps platform url then .unavailable
      else
        match replies hop with
        | .fails => .unavailable
        | .answers response =>
            if 300 ≤ response.code ∧ response.code ≤ 399 then
              match response.location.bind (platform.resolve url) with
              | none => .unavailable
              | some next => openDigest replies left (hop + 1) next
            else if response.code = 404 ∨ response.code = 410 then .absent
            else if response.code = 200 then parseDigest response.text
            else .unavailable

/-- At most `left` more attempts. -/
def attemptDigest (replies : ℕ → ℕ → Reply) (url : String) : (left attempt : ℕ) → DigestResult
  | 0, _ => .unavailable
  | left + 1, attempt =>
      match openDigest platform (replies attempt) 5 0 url with
      | .unavailable => attemptDigest replies url left (attempt + 1)
      | result => result

def fetchSha256 (replies : ℕ → ℕ → Reply) (url : String) : DigestResult :=
  if !isHttps url then .unavailable else attemptDigest platform replies url 3 1

variable (network : HttpRequest → Reply) (now : ℕ)

/-- The download of a file from one mirror. -/
def download (dataset : Dataset) (url : String) (dest : Option GeoFile) : Bool × Option GeoFile :=
  downloadFile platform (fun hop => network ⟨dataset, url, .artifact, 1, hop⟩) url dest

/-- The digest which one mirror publishes for its file. -/
def digestOf (dataset : Dataset) (url : String) : DigestResult :=
  fetchSha256 platform (fun attempt hop => network ⟨dataset, url, .digest, attempt, hop⟩)
    (url ++ ".sha256sum")

def freshDigestOf (dataset : Dataset) (url : String) : DigestResult :=
  fetchSha256 platform (fun attempt hop => network ⟨dataset, url, .freshDigest, attempt, hop⟩)
    (url ++ ".sha256sum?_=" ++ toString now)

/-- What comes of one mirror; a rejected one may leave a file at `dest`. -/
inductive MirrorResult where
  | accepted (verified : Bool) (file : GeoFile)
  | rejected (dest : Option GeoFile) (failure : FailureReason)
  deriving DecidableEq, Repr

/-- The verdict on a file by the digest of its mirror. -/
def judge (dataset : Dataset) (url : String) (file : GeoFile) : MirrorResult :=
  match digestOf platform network dataset url with
  | .found hex =>
      -- a stale digest in a cache is told apart by a second one past the cache
      if (DigestResult.found hex).confirms platform file ||
          (freshDigestOf platform network now dataset url).confirms platform file then
        .accepted true file
      else .rejected none .mismatch
  | .absent => if isBuiltinUrl url then .rejected none .digestAbsent else .accepted false file
  | .unavailable =>
      if isBuiltinUrl url then .rejected none .digestUnavailable else .accepted false file

def tryMirror (dataset : Dataset) (url : String) (dest : Option GeoFile) : MirrorResult :=
  match download platform network dataset url dest with
  | (true, some file) =>
      if minimumSize < file.bytes.length then judge platform network now dataset url file
      else .rejected (some file) .download
  | (_, left) => .rejected left .download

/-- The outcome, and the file at `dest` afterwards. -/
def downloadWithMirrors (dataset : Dataset) :
    List String → Option GeoFile → FailureReason → DownloadOutcome × Option GeoFile
  | [], dest, lastFailure => ({ ok := false, verified := false, failure := lastFailure }, dest)
  | url :: rest, dest, lastFailure =>
      if !isHttps url then downloadWithMirrors dataset rest dest lastFailure
      else
        match tryMirror platform network now dataset url dest with
        | .accepted verified file => ({ ok := true, verified }, some file)
        | .rejected left failure => downloadWithMirrors dataset rest left failure

end Downloads

section Installation

variable {Content : Type*} (fails : Move → Bool)

/-- The roll-back after a failed move: what is found as a backup is moved back. -/
def rollBack (files : GeoFiles Content) : GeoFiles Content where
  site := if fails .restoreSite then files.site else files.site.restore
  ip := if fails .restoreIp then files.ip else files.ip.restore

/-- Both files are replaced; an absent file is not moved aside. -/
def install (files : GeoFiles Content) (newSite newIp : Content) : Bool × GeoFiles Content :=
  let siteAside := { files with site := files.site.setAside }
  let bothAside := { siteAside with ip := siteAside.ip.setAside }
  let half := { bothAside with site := bothAside.site.put newSite }
  let full := { half with ip := half.ip.put newIp }
  if files.site.current.isSome && fails .backupSite then (false, rollBack fails files)
  else if files.ip.current.isSome && fails .backupIp then (false, rollBack fails siteAside)
  else if fails .installSite then (false, rollBack fails bothAside)
  else if fails .installIp then (false, rollBack fails half)
  else
    (true,
      { site := if fails .deleteSiteBackup then full.site else full.site.discard
        ip := if fails .deleteIpBackup then full.ip else full.ip.discard })

end Installation

/-- `loaded` is what the kernel counts once it has loaded the files. -/
structure Environment where
  platform : Platform
  network : HttpRequest → Reply
  now : ℕ
  fails : Move → Bool
  error : String
  loaded : ℕ × ℕ

def emptyFile : GeoFile := ⟨[], none⟩

def tmpLength (file : Option GeoFile) : ℕ :=
  (file.map fun file => file.bytes.length).getD 0

/-- The installation of two downloaded files, and the result which is reported. -/
def installStaged (env : Environment) (files : GeoFiles GeoFile) (site ip : GeoFile)
    (verified allowUnverified : Bool) : GeoUpdateResult × GeoFiles GeoFile :=
  if !verified && !allowUnverified then
    ({ success := false
       message := "该数据源未提供可校验的 SHA-256 摘要，已拒绝自动安装。" ++
        "如确认信任该源，请在「Geo 资产」页手动发起更新并确认。"
       verified := false }, files)
  else
    match install env.fails files site ip with
    | (false, after) =>
        ({ success := false, message := "安装 Geo 数据文件失败: " ++ env.error }, after)
    | (true, after) =>
        ({ success := true
           message := "成功更新 Geo 规则集: " ++ toString env.loaded.1 ++ " 个 Site 标签, " ++
            toString env.loaded.2 ++ " 个 IP 分类" ++
            if verified then "" else "\n⚠️ 该自定义源未提供 SHA-256 摘要，本次产物未经完整性校验"
           geositeTags := env.loaded.1
           geoipCodes := env.loaded.2
           verified }, after)

/-- One data set is downloaded into an empty temporary file. -/
def stage (env : Environment) (source : GeoSource) (dataset : Dataset) :
    DownloadOutcome × Option GeoFile :=
  downloadWithMirrors env.platform env.network env.now dataset (mirrors source dataset)
    (some emptyFile) .download

def updateGeoFilesStaged (env : Environment) (source : GeoSource) (allowUnverified : Bool)
    (before : GeoFiles (List UInt8)) : GeoUpdateResult × GeoFiles GeoFile :=
  let files := before.ofBytes
  match stage env source .site with
  | (siteOutcome, siteTmp) =>
      if !siteOutcome.ok || tmpLength siteTmp < minimumSize then
        ({ success := false, message := describeFailure Dataset.site.title siteOutcome.failure },
          files)
      else
        match stage env source .ip with
        | (ipOutcome, ipTmp) =>
            if !ipOutcome.ok || tmpLength ipTmp < minimumSize then
              ({ success := false, message := describeFailure Dataset.ip.title ipOutcome.failure },
                files)
            else
              installStaged env files (siteTmp.getD emptyFile) (ipTmp.getD emptyFile)
                (siteOutcome.verified && ipOutcome.verified) allowUnverified

end GeoManager

end Mirage.Shell
