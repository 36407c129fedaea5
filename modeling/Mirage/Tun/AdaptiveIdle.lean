import Mathlib.Data.List.MinMax
import Mirage.Foundations.MutualMaps
import Mirage.Foundations.Net
import Mirage.Foundations.Run

/-!
# The adaptive idle timeouts

`tun::adaptive_idle` keeps a profile for every domain a connection has led to.
Computing a timeout reads the profile and may lengthen its timeout, when the
domain is reached again shortly after an idle close; the end of a connection
records what it transferred, and may shorten the timeout or move the profile to
another category.

The store is behind one lock, so that each function is a step.  A full store drops
one of the profiles seen least recently; which of several depends on the order
of the hash map.  `str::to_lowercase` is the parameter `lower`.
-/

namespace Mirage.Tun

open Mirage.Foundations

inductive TrafficCategory where
  | interactive
  | mediaCdn
  | pushIm
  | generalApi
  deriving DecidableEq, Repr

namespace TrafficCategory

def defaultIdleSecs : TrafficCategory → ℕ
  | .interactive => 300
  | .mediaCdn => 10
  | .pushIm => 900
  | .generalApi => 30

/-- In seconds -/
def idleTimeout (category : TrafficCategory) (isActiveTransfer : Bool) : ℕ :=
  match category with
  | .interactive => 300
  | .mediaCdn => if isActiveTransfer then 10 else 15
  | .pushIm => 900
  | .generalApi => if isActiveTransfer then 30 else 15

end TrafficCategory

inductive CloseReason where
  | clientClosed
  | serverClosed
  | idleTimeout
  | error
  deriving DecidableEq, Repr

structure DomainProfile where
  domain : String
  category : TrafficCategory
  sampleCount : UInt64
  totalUpBytes : UInt64
  totalDownBytes : UInt64
  avgDownUpRatio : Float32
  assignedIdleSecs : ℕ
  isStaticRule : Bool
  lastSeenSecs : ℕ
  churnPenalties : UInt32
  zombieDecays : UInt32
  reuseHits : UInt32
  lastClosedSecs : ℕ
  lastCloseReason : CloseReason

section Rules

def cdnSuffixes : List String :=
  ["twimg.com", "ytimg.com", "ggpht.com", "gvt1.com", "gvt2.com", "1e100.net",
    "googleusercontent.com", "fbcdn.net", "cdninstagram.com", "akamaized.net", "cloudfront.net",
    "fastly.net", "tiktokcdn.com", "byteoversea.com", "vimeocdn.com", "edgesuite.net",
    "llnwd.net", "cdn.sstatic.net", "githubusercontent.com", "alicdn.com", "hdslb.com",
    "bilivideo.com", "sinaimg.cn", "qpic.cn", "gtimg.com", "bdstatic.com", "douyincdn.com",
    "snssdk.com", "kuaishoucdn.com", "yximgs.com", "iqiyipic.com", "ykimg.com", "360buyimg.com",
    "meituan.net", "pstatp.com", "baidupcs.com", "aliyuncs.com"]

def imSuffixes : List String :=
  ["telegram.org", "t.me", "telesco.pe", "tdesktop.com", "whatsapp.net", "whatsapp.com",
    "mtalk.google.com", "push.apple.com", "discord.gg", "discord.com", "matrix.org",
    "signal.org", "weixin.qq.com", "qq.com", "wechat.com", "tencent.com", "servicewechat.com",
    "tenpay.com", "wxs.qq.com", "wx.qq.com", "dingtalk.com", "laiwang.com", "feishu.cn",
    "larksuite.com", "jpush.cn", "getui.com", "getui.net", "umeng.com", "push.aliyun.com",
    "push.dingtalk.com", "xmpush.xiaomi.com", "push.xiaomi.com", "push.hicloud.com",
    "push.heytap.com", "push.oppomobile.com", "push.vivo.com.cn"]

/-- `attribution::is_im_or_push_package` looks for one of these. -/
def imPackageParts : List String :=
  ["tencent.mm", "tencent.mobileqq", "tencent.tim", "alibaba.android.rimet", "ss.android.lark",
    "larksuite", "telegram", "whatsapp", "discord", "signal", "line", "slack", "matrix",
    "element", "teams", "skype", "google.android.talk", "google.android.gms"]

/-- Masks and networks of `is_tencent_or_im_ip` -/
def tencentNetworks : List (Ipv4Addr × Ipv4Addr) :=
  [(0xFFFE0000, 0xB7020000), (0xFFFC0000, 0xB7040000), (0xFFF80000, 0x78E80000),
    (0xFFF80000, 0x78F00000), (0xFFFF0000, 0x0E110000), (0xFFFE0000, 0x0E120000),
    (0xFFFF0000, 0x0ED70000), (0xFFFE0000, 0x71600000), (0xFFFF0000, 0x716C0000),
    (0xFFFF0000, 0x81E20000), (0xFFFE0000, 0x771C0000), (0xFFFE0000, 0x65200000),
    (0xFFF00000, 0x2B800000), (0xFFFF0000, 0x966D0000), (0xFFFF0000, 0xA20E0000)]

def isInteractivePort (port : ℕ) : Bool := [22, 23, 3389].contains port

def isImOrPushPort (port : ℕ) : Bool := [14000, 5228, 5229, 5230, 5222, 5223].contains port

def isTencentOrImIp : IpAddr → Bool
  | .v4 address => tencentNetworks.any fun network => address &&& network.1 == network.2
  | .v6 _ => false

def matchesSuffix (host : String) (suffixes : List String) : Bool :=
  let h := trimEndMatches host '.'
  suffixes.any fun suffix => h == suffix || endsWith h ("." ++ suffix)

def isImageOrMediaCdn (host : String) : Bool := matchesSuffix host cdnSuffixes

def isPushOrImService (host : String) : Bool := matchesSuffix host imSuffixes

/-- The category a domain starts with -/
def initialCategory (domain : String) : TrafficCategory :=
  if isImageOrMediaCdn domain then .mediaCdn
  else if isPushOrImService domain then .pushIm
  else .generalApi

end Rules

abbrev Profiles := FiniteMap String DomainProfile

def maxProfilesCapacity : ℕ := 512

/-- A flow as the computation of its timeout sees it -/
structure Flow where
  dstIp : Option IpAddr
  dstPort : ℕ
  domain : Option String
  sourceApp : Option String
  deriving DecidableEq

/-- What is recorded at the end of a connection -/
structure ConnMetrics where
  domain : Option String
  upBytes : UInt64
  downBytes : UInt64
  durationMs : UInt64
  closeReason : CloseReason
  isReused : Bool
  deriving DecidableEq

/-- `min_by_key` over the entries of the map, whose order may be any -/
structure Oldest where
  key : Profiles → Option String
  isSome_of_entry : ∀ profiles domain, domain ∈ profiles → (key profiles).isSome
  least : ∀ profiles victim, key profiles = some victim →
    ∃ profile, profiles.lookup victim = some profile ∧
      ∀ domain other, profiles.lookup domain = some other →
        profile.lastSeenSecs ≤ other.lastSeenSecs

/-- The map in the order of its entries -/
def Oldest.first : Oldest where
  key profiles := (profiles.entries.argmin fun entry => entry.2.lastSeenSecs).map Sigma.fst
  isSome_of_entry profiles domain there := by
    rw [Option.isSome_map, Option.isSome_iff_ne_none, Ne, List.argmin_eq_none]
    intro empty
    rw [AList.mem_keys, AList.keys, empty] at there
    cases there
  least profiles victim found := by
    rcases Option.map_eq_some_iff.mp found with ⟨⟨domain, profile⟩, least, rfl⟩
    refine ⟨profile, AList.mem_lookup_iff.mpr (List.argmin_mem least), ?_⟩
    intro other seen there
    have member : (⟨other, seen⟩ : Sigma fun _ : String => DomainProfile) ∈ profiles.entries :=
      AList.mem_lookup_iff.mp there
    have smallest := List.le_of_mem_argmin member least
    exact smallest

namespace Profiles

/-- The profile which a full store drops before it takes in that of a domain -/
def evicted (oldest : Oldest) (profiles : Profiles) (domain : String) : Option String :=
  if maxProfilesCapacity ≤ profiles.keys.length ∧ domain ∉ profiles then oldest.key profiles
  else none

def makeRoom (oldest : Oldest) (profiles : Profiles) (domain : String) : Profiles :=
  match profiles.evicted oldest domain with
  | some victim => profiles.erase victim
  | none => profiles

end Profiles

namespace DomainProfile

/-- The domain is reached again at most four seconds after an idle close. -/
def Churns (profile : DomainProfile) (now : ℕ) : Prop :=
  profile.isStaticRule = false ∧ profile.category = .generalApi ∧ 0 < profile.lastClosedSecs ∧
    now - profile.lastClosedSecs ≤ 4 ∧ profile.lastCloseReason = .idleTimeout

instance decidableChurns (profile : DomainProfile) (now : ℕ) : Decidable (profile.Churns now) :=
  inferInstanceAs (Decidable (_ ∧ _ ∧ _ ∧ _ ∧ _))

/-- A profile which a connection finds -/
def found (profile : DomainProfile) (now : ℕ) : DomainProfile :=
  let profile := { profile with lastSeenSecs := now }
  if profile.Churns now then
    { profile with
      assignedIdleSecs := min (profile.assignedIdleSecs * 15 % (u64Max + 1) / 10) 120
      churnPenalties := profile.churnPenalties + 1 }
  else profile

/-- `record_initial_profile`, where nothing has been closed yet -/
def initial (domain : String) (category : TrafficCategory) (isStatic : Bool) (now : ℕ) :
    DomainProfile where
  domain
  category
  sampleCount := 0
  totalUpBytes := 0
  totalDownBytes := 0
  avgDownUpRatio := 1.0
  assignedIdleSecs := category.defaultIdleSecs
  isStaticRule := isStatic
  lastSeenSecs := now
  churnPenalties := 0
  zombieDecays := 0
  reuseHits := 0
  lastClosedSecs := 0
  lastCloseReason := .serverClosed

def downUpRatio (profile : DomainProfile) : Float32 :=
  profile.totalDownBytes.toFloat32 / (max profile.totalUpBytes 1).toFloat32

/-- The sample is added up. -/
def sampled (profile : DomainProfile) (metrics : ConnMetrics) (now : ℕ) : DomainProfile :=
  let profile :=
    { profile with
      sampleCount := profile.sampleCount + 1
      totalUpBytes := profile.totalUpBytes + metrics.upBytes
      totalDownBytes := profile.totalDownBytes + metrics.downBytes
      lastSeenSecs := now
      lastClosedSecs := now
      lastCloseReason := metrics.closeReason }
  { profile with
    avgDownUpRatio := profile.downUpRatio
    reuseHits := if metrics.isReused then profile.reuseHits + 1 else profile.reuseHits }

/-- An idle close without any reuse shortens the timeout. -/
def decayed (profile : DomainProfile) (metrics : ConnMetrics) : DomainProfile :=
  if profile.isStaticRule = false ∧ profile.category = .generalApi ∧
      metrics.closeReason = .idleTimeout ∧ metrics.isReused = false then
    { profile with
      assignedIdleSecs := max (profile.assignedIdleSecs * 8 % (u64Max + 1) / 10) 20
      zombieDecays := profile.zombieDecays + 1 }
  else profile

def moved (profile : DomainProfile) (category : TrafficCategory) (idleSecs : ℕ) : DomainProfile :=
  { profile with category, assignedIdleSecs := idleSecs, churnPenalties := 0, zombieDecays := 0 }

/-- The category follows the averages of the samples. -/
def evolved (profile : DomainProfile) (metrics : ConnMetrics) : DomainProfile :=
  if profile.isStaticRule = false ∧ profile.sampleCount ≥ 2 then
    let avgDown := profile.totalDownBytes / profile.sampleCount
    let avgUp := profile.totalUpBytes / profile.sampleCount
    if profile.downUpRatio ≥ 6.0 ∧ avgDown ≥ 16 * 1024 then profile.moved .mediaCdn 10
    else if avgUp ≤ 2048 ∧ avgDown ≤ 4096 ∧ metrics.durationMs ≥ 8000 then
      profile.moved .pushIm 900
    else profile
  else profile

end DomainProfile

section Operations

variable (lower : String → String)

def isImOrPushPackage (package : String) : Bool :=
  imPackageParts.any (containsText (lower package))

/-- The category of a flow which its application, its port or its address decides -/
def Flow.fixedCategory (flow : Flow) : Option TrafficCategory :=
  if flow.sourceApp.any (isImOrPushPackage lower) then some .pushIm
  else if isInteractivePort flow.dstPort then some .interactive
  else if isImOrPushPort flow.dstPort then some .pushIm
  else if flow.dstIp.any isTencentOrImIp && [80, 443, 8080, 14000].contains flow.dstPort then
    some .pushIm
  else none

namespace Profiles

def recordInitialProfile (oldest : Oldest) (profiles : Profiles) (domain : String)
    (category : TrafficCategory) (isStatic : Bool) (now : ℕ) : Profiles :=
  let room := profiles.makeRoom oldest domain
  if domain ∈ room then room
  else room.insert domain (.initial domain category isStatic now)

/-- The clock is read at the start, and once more when a profile is inserted. -/
def classifyConnection (oldest : Oldest) (profiles : Profiles) (flow : Flow)
    (now inserting : ℕ) : (TrafficCategory × ℕ) × Profiles :=
  match flow.fixedCategory lower with
  | some category => ((category, category.defaultIdleSecs), profiles)
  | none =>
      match flow.domain with
      | none => ((.generalApi, TrafficCategory.generalApi.defaultIdleSecs), profiles)
      | some domain =>
          let domain := lower domain
          match profiles.lookup domain with
          | some profile =>
              let profile := profile.found now
              ((profile.category, profile.assignedIdleSecs), profiles.insert domain profile)
          | none =>
              let category := initialCategory domain
              ((category, category.defaultIdleSecs),
                if category = .generalApi then profiles
                else profiles.recordInitialProfile oldest domain category true inserting)

/-- The timeout in seconds; nothing comes between the two accesses to the store. -/
def computeAdaptiveTimeout (oldest : Oldest) (profiles : Profiles) (flow : Flow)
    (isActiveTransfer : Bool) (now inserting : ℕ) : ℕ × Profiles :=
  if flow.sourceApp.any (isImOrPushPackage lower) then (900, profiles)
  else if isInteractivePort flow.dstPort then (300, profiles)
  else
    let ((category, _), profiles) := profiles.classifyConnection lower oldest flow now inserting
    if category = .pushIm then (900, profiles)
    else if !isActiveTransfer then (15, profiles)
    else
      match flow.domain.bind fun domain => profiles.lookup (lower domain) with
      | some profile => (profile.assignedIdleSecs, profiles)
      | none => (category.idleTimeout isActiveTransfer, profiles)

def recordConnMetrics (oldest : Oldest) (profiles : Profiles) (metrics : ConnMetrics) (now : ℕ) :
    Profiles :=
  match metrics.domain with
  | none => profiles
  | some domain =>
      if domain = "" then profiles
      else
        let domain := lower domain
        let room := profiles.makeRoom oldest domain
        let category := initialCategory domain
        let profile := (room.lookup domain).getD
          { DomainProfile.initial domain category (category ≠ .generalApi) now with
            lastClosedSecs := now
            lastCloseReason := metrics.closeReason }
        room.insert domain
          (((profile.sampled metrics now).decayed metrics).evolved metrics)

/-- `load_profiles_from_disk`; there is nothing to load if the file is missing or malformed. -/
def loadProfiles (profiles : Profiles) (file : Option (List DomainProfile)) : Profiles :=
  match file with
  | some loaded => FiniteMap.collect DomainProfile.domain some loaded profiles
  | none => profiles

end Profiles

end Operations

/-- What connections do to the store -/
inductive Observation where
  | classify (flow : Flow) (now inserting : ℕ) (oldest : Oldest)
  | compute (flow : Flow) (isActiveTransfer : Bool) (now inserting : ℕ) (oldest : Oldest)
  | record (metrics : ConnMetrics) (now : ℕ) (oldest : Oldest)

inductive ProfileEvent where
  | observe (observation : Observation)
  | load (file : Option (List DomainProfile))

namespace Profiles

variable (lower : String → String)

def observe (profiles : Profiles) : Observation → Profiles
  | .classify flow now inserting oldest =>
      (profiles.classifyConnection lower oldest flow now inserting).2
  | .compute flow isActiveTransfer now inserting oldest =>
      (profiles.computeAdaptiveTimeout lower oldest flow isActiveTransfer now inserting).2
  | .record metrics now oldest => profiles.recordConnMetrics lower oldest metrics now

def step (profiles : Profiles) : ProfileEvent → Profiles
  | .observe observation => profiles.observe lower observation
  | .load file => profiles.loadProfiles file

end Profiles

end Mirage.Tun
