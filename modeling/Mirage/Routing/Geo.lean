import Mathlib.Data.List.Sort
import Mirage.Foundations.MutualMaps
import Mirage.Routing.Domains

/-!
# Address classes and the Geo data

The classes of addresses which routing distinguishes, and the matchers over the
sets loaded from the Geo files.  A compiled regular expression is the predicate
it decides.  The built-in table of Chinese IPv4 blocks is a field of `GeoStore`
here, next to the tables which are loaded.
-/

namespace Mirage.Routing

open Mirage.Foundations

def isFakeIp : IpAddr → Bool
  | .v4 address => address &&& 0xFFFE0000 == 0xC6120000
  | .v6 _ => false

def segment (address : Ipv6Addr) (index : ℕ) : BitVec 16 :=
  address.extractLsb' (112 - 16 * index) 16

def isPrivateIpv4 (u : Ipv4Addr) : Bool :=
  u &&& 0xFF000000 == 0x0A000000 || u &&& 0xFFF00000 == 0xAC100000 ||
    u &&& 0xFFFF0000 == 0xC0A80000 || u &&& 0xFF000000 == 0x7F000000 ||
    u &&& 0xFFFF0000 == 0xA9FE0000 || u &&& 0xFFC00000 == 0x64400000 ||
    u &&& 0xF0000000 == 0xE0000000 || u &&& 0xF0000000 == 0xF0000000 ||
    u &&& 0xFF000000 == 0x00000000

def isPrivateIp : IpAddr → Bool
  | .v4 address => !isFakeIp (.v4 address) && isPrivateIpv4 address
  | .v6 address =>
      address == 1 || address == 0 || segment address 0 &&& 0xFFC0 == 0xFE80 ||
        segment address 0 &&& 0xFE00 == 0xFC00 || segment address 0 &&& 0xFF00 == 0xFF00 ||
        -- `::ffff:0:0/96`, where the last 32 bits are an IPv4 address.
        (address.extractLsb' 32 96 == 0xFFFF &&
          (let mapped := address.extractLsb' 0 32
           !isFakeIp (.v4 mapped) && isPrivateIpv4 mapped))

structure Ipv4Cidr where
  net : BitVec 32
  mask : BitVec 32
  deriving DecidableEq

/--
The mask of `Ipv4Cidr::new` for every `u8`.  Past 32 the difference wraps, and
the shift takes it modulo 32.
-/
def wrappedMask (prefixLen : ℕ) : BitVec 32 :=
  if prefixLen = 0 then 0 else BitVec.allOnes 32 <<< ((288 - prefixLen) % 256 % 32)

theorem wrappedMask_eq_maskOf {prefixLen : ℕ} (bounded : prefixLen ≤ 32) :
    wrappedMask prefixLen = maskOf prefixLen := by
  unfold wrappedMask maskOf
  split
  · rfl
  · rw [show (288 - prefixLen) % 256 % 32 = 32 - prefixLen by omega]

def Ipv4Cidr.new (ip : Ipv4Addr) (prefixLen : ℕ) : Ipv4Cidr :=
  ⟨ip &&& wrappedMask prefixLen, wrappedMask prefixLen⟩

def Ipv4Cidr.contains (cidr : Ipv4Cidr) (ip : Ipv4Addr) : Bool :=
  ip &&& cidr.mask == cidr.net

structure Ipv6Cidr where
  net : BitVec 128
  mask : BitVec 128
  deriving DecidableEq

/-- The mask of `Ipv6Cidr::new`, which wraps past 128. -/
def wrappedMask6 (prefixLen : ℕ) : BitVec 128 :=
  if prefixLen = 0 then 0 else BitVec.allOnes 128 <<< ((384 - prefixLen) % 256 % 128)

def Ipv6Cidr.new (ip : Ipv6Addr) (prefixLen : ℕ) : Ipv6Cidr :=
  ⟨ip &&& wrappedMask6 prefixLen, wrappedMask6 prefixLen⟩

def Ipv6Cidr.contains (cidr : Ipv6Cidr) (ip : Ipv6Addr) : Bool :=
  ip &&& cidr.mask == cidr.net

/-- One entry of a geosite list. -/
inductive SiteDomain where
  | keyword (v : String)
  | regex (raw : String) (re : Option (String → Bool))
  | suffix (v : String)
  | exact (v : String)

def SiteDomain.matches (site : SiteDomain) (domain : String) : Bool :=
  let d := normalize domain
  match site with
  | .exact v => d == v
  | .suffix v => underRoot d v
  | .keyword v => containsText d v
  | .regex _ (some re) => re d
  | .regex raw none => containsText d raw

structure GeoSiteMatcher where
  exactSet : List String
  suffixSet : List String
  otherRules : List SiteDomain

/-- What follows each dot of a domain, longest first. -/
def parentDomains : List Char → List String
  | [] => []
  | char :: rest =>
      if char = '.' then String.ofList rest :: parentDomains rest else parentDomains rest

def GeoSiteMatcher.matches (matcher : GeoSiteMatcher) (domain : String) : Bool :=
  let d := normalize domain
  matcher.exactSet.contains d || matcher.suffixSet.contains d ||
    (parentDomains d.toList).any matcher.suffixSet.contains ||
    matcher.otherRules.any fun item => item.matches domain

structure GeoStore where
  sites : FiniteMap String GeoSiteMatcher
  ipV4 : FiniteMap String (List Ipv4Cidr)
  ipV6 : FiniteMap String (List Ipv6Cidr)
  /-- The table `CN_IPV4` of networks and prefix lengths. -/
  cnIpv4 : List (BitVec 32 × ℕ)

namespace GeoStore

def empty : GeoStore :=
  ⟨∅, ∅, ∅, []⟩

def matchGeosite (geo : GeoStore) (tag domain : String) : Bool :=
  let tagUpper := toAsciiUppercase (trim tag)
  match geo.sites.lookup tagUpper with
  | some matcher =>
      matcher.matches domain ||
        ((tagUpper == "PRIVATE" || tagUpper == "LAN") && isLanOrRouterDomain domain)
  | none => (tagUpper == "PRIVATE" || tagUpper == "LAN") && isLanOrRouterDomain domain

def matchGeoip (geo : GeoStore) (code : String) (ip : IpAddr) : Bool :=
  let codeUpper := toAsciiUppercase (trim code)
  if isFakeIp ip then false
  else if codeUpper == "PRIVATE" || codeUpper == "LAN" then isPrivateIp ip
  else
    match ip with
    | .v4 v4 => ((geo.ipV4.lookup codeUpper).getD []).any fun cidr => cidr.contains v4
    | .v6 v6 => ((geo.ipV6.lookup codeUpper).getD []).any fun cidr => cidr.contains v6

/-- The first and the last address of a block of the built-in table. -/
def cnRange (block : BitVec 32 × ℕ) : ℕ × ℕ :=
  let start := block.1 &&& maskOf block.2
  (start.toNat, (start ||| ~~~maskOf block.2).toNat)

/-- Add a range to merged ones, the last of which stands first. -/
def mergeRange (merged : List (ℕ × ℕ)) (range : ℕ × ℕ) : List (ℕ × ℕ) :=
  match merged with
  | [] => [range]
  | last :: rest =>
      if range.1 ≤ min (last.2 + 1) u32Max then
        if range.2 > last.2 then (last.1, range.2) :: rest else merged
      else range :: merged

/-- The ranges which `is_cn_ip` searches, in order. -/
def cnRanges (geo : GeoStore) : List (ℕ × ℕ) :=
  let ranges := (geo.cnIpv4.map cnRange).mergeSort fun first second => first.1 ≤ second.1
  (ranges.foldl mergeRange []).reverse

def isCnIp (geo : GeoStore) (ip : IpAddr) : Bool :=
  if isFakeIp ip then false
  else if geo.matchGeoip "CN" ip then true
  else
    match ip with
    | .v4 v4 =>
        -- The binary search finds a range exactly when one contains the address.
        geo.cnRanges.any fun range => range.1 ≤ v4.toNat && v4.toNat ≤ range.2
    | .v6 v6 =>
        let top := segment v6 0
        let second := segment v6 1
        0x2408 ≤ top && top ≤ 0x240f || top == 0x2400 && (second == 0x3200 || second == 0xda00) ||
          top == 0x2001 && (second == 0xda8 || second == 0x250 || second == 0xcc0)

def isTrustworthyCnAnswer (geo : GeoStore) (ip : IpAddr) : Bool :=
  !isPrivateIp ip && geo.isCnIp ip

def isCnDomain (geo : GeoStore) (domain : String) : Bool :=
  if isKnownNonCnDomain domain then false
  else geo.matchGeosite "CN" domain || isBuiltinCnDomain domain

@[simp]
theorem matchGeosite_normalize (geo : GeoStore) (tag domain : String) :
    geo.matchGeosite tag (normalize domain) = geo.matchGeosite tag domain := by
  have site : ∀ item : SiteDomain, item.matches (normalize domain) = item.matches domain := by
    intro item
    simp [SiteDomain.matches]
  simp [matchGeosite, GeoSiteMatcher.matches, site]

@[simp]
theorem isCnDomain_normalize (geo : GeoStore) (domain : String) :
    geo.isCnDomain (normalize domain) = geo.isCnDomain domain := by
  simp [isCnDomain]

end GeoStore

end Mirage.Routing
