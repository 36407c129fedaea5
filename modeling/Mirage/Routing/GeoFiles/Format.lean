import Mirage.Routing.GeoFiles

/-!
# What the Geo files say

A `GeoIPList` is a list of codes, each with its blocks of addresses, and a
`GeoSiteList` one of codes with their domains.  An encoding writes the fields of
each message in any order, among others which are not known.  The code of an entry
is the same in any case and with any blanks around it, as `codeKey` reads it.

`compile` reads a regular expression, with or without regard to case.
-/

namespace Mirage.Routing

open Mirage.Foundations
open Mirage.Foundations.Wire

/-! ## Blocks of addresses -/

/-- The octets of an address, the highest first -/
def addressBytes : IpAddr → List UInt8
  | .v4 address => bigEndian 4 address.toNat
  | .v6 address => bigEndian 16 address.toNat

def addressWidth : IpAddr → ℕ
  | .v4 _ => 32
  | .v6 _ => 128

def IpCidr.v4? : IpCidr → Option Ipv4Cidr
  | .v4 cidr => some cidr
  | .v6 _ => none

def IpCidr.v6? : IpCidr → Option Ipv6Cidr
  | .v4 _ => none
  | .v6 cidr => some cidr

/-- The block of a prefix of an address -/
def blockOf : IpAddr → ℕ → IpCidr
  | .v4 ip, prefixLen => .v4 (Ipv4Cidr.new ip prefixLen)
  | .v6 ip, prefixLen => .v6 (Ipv6Cidr.new ip prefixLen)

structure GeoCidr where
  ip : IpAddr
  prefixLen : UInt32

namespace GeoCidr

def EncodedBy (cidr : GeoCidr) (bytes : List UInt8) : Prop :=
  ∃ fields, Encodes fields bytes ∧ lastBytes 1 fields = addressBytes cidr.ip ∧
    lastVarint 2 fields = cidr.prefixLen.toNat

/-- The block, with a prefix of at most the width of the address -/
def block (cidr : GeoCidr) : IpCidr :=
  blockOf cidr.ip (min cidr.prefixLen.toNat (addressWidth cidr.ip))

/-- A `u8` holds the prefix, or what it holds of it is no less than the width of the address. -/
def Narrows (cidr : GeoCidr) : Prop :=
  cidr.prefixLen.toNat < 2 ^ 8 ∨ addressWidth cidr.ip ≤ cidr.prefixLen.toNat % 2 ^ 8

instance (cidr : GeoCidr) : Decidable cidr.Narrows :=
  inferInstanceAs (Decidable (_ ∨ _))

end GeoCidr

structure GeoIp where
  code : String
  cidrs : List GeoCidr
  named : codeKey code ≠ ""

def GeoIp.EncodedBy (entry : GeoIp) (bytes : List UInt8) : Prop :=
  ∃ fields, Encodes fields bytes ∧ lastBytes 1 fields = utf8 entry.code.toList ∧
    List.Forall₂ GeoCidr.EncodedBy entry.cidrs (allBytes 2 fields)

/-- Entries of distinct codes -/
abbrev GeoIpList : Type :=
  { entries : List GeoIp // (entries.map fun entry => codeKey entry.code).Nodup }

namespace GeoIpList

def EncodedBy (list : GeoIpList) (bytes : List UInt8) : Prop :=
  ∃ fields, Encodes fields bytes ∧ List.Forall₂ GeoIp.EncodedBy list.1 (allBytes 1 fields)

/-- The tables hold the blocks of each code, in order, and no other codes. -/
structure HeldBy (list : GeoIpList) (maps : IpTables) : Prop where
  v4 : ∀ entry ∈ list.1, (maps.1.lookup (codeKey entry.code)).getD [] =
    entry.cidrs.filterMap fun cidr => cidr.block.v4?
  v6 : ∀ entry ∈ list.1, (maps.2.lookup (codeKey entry.code)).getD [] =
    entry.cidrs.filterMap fun cidr => cidr.block.v6?
  only : ∀ code, maps.1.lookup code ≠ none ∨ maps.2.lookup code ≠ none →
    ∃ entry ∈ list.1, codeKey entry.code = code

end GeoIpList

/-! ## Domains -/

structure GeoDomain where
  /-- `0` is a keyword, `1` a pattern, `3` a full name and every other number a suffix. -/
  type : ℕ
  value : String
  named : value ≠ ""

namespace GeoDomain

variable (compile : Bool → String → Option (String → Bool))

def EncodedBy (domain : GeoDomain) (bytes : List UInt8) : Prop :=
  ∃ fields, Encodes fields bytes ∧ lastVarint 1 fields = domain.type ∧
    lastBytes 2 fields = utf8 domain.value.toList

/--
What an entry of a table has to be.  A pattern which can be read at all is to match
what it matches when it is read without regard to case.
-/
def Means (domain : GeoDomain) (site : SiteDomain) : Prop :=
  match domain.type with
  | 0 => site = .keyword (toAsciiLowercase domain.value)
  | 1 => (∃ raw re, site = .regex raw re) ∧
      ∀ reading, compile true domain.value = some reading →
        ∀ host, site.matches host = reading (normalize host)
  | 3 => site = .exact (normalize domain.value)
  | _ => site = .suffix (normalize domain.value)

/--
The value means the same without its capital letters and its trailing dots: there is
something left of it, a keyword has no such dots, and a pattern which is changed so
matches the same hosts.
-/
def Plain (domain : GeoDomain) : Prop :=
  normalize domain.value ≠ "" ∧
    match domain.type with
    | 0 => endsWith domain.value "." = false
    | 1 => ∀ reading, compile true domain.value = some reading → ∀ host,
        (SiteDomain.regex (normalize domain.value) (compile false (normalize domain.value))).matches
          host = reading (normalize host)
    | _ => True

end GeoDomain

structure GeoSite where
  code : String
  domains : List GeoDomain
  named : codeKey code ≠ ""

def GeoSite.EncodedBy (entry : GeoSite) (bytes : List UInt8) : Prop :=
  ∃ fields, Encodes fields bytes ∧ lastBytes 1 fields = utf8 entry.code.toList ∧
    List.Forall₂ GeoDomain.EncodedBy entry.domains (allBytes 2 fields)

/-- Entries of distinct codes -/
abbrev GeoSiteList : Type :=
  { entries : List GeoSite // (entries.map fun entry => codeKey entry.code).Nodup }

namespace GeoSiteList

def EncodedBy (list : GeoSiteList) (bytes : List UInt8) : Prop :=
  ∃ fields, Encodes fields bytes ∧ List.Forall₂ GeoSite.EncodedBy list.1 (allBytes 1 fields)

/-- The table holds the domains of each code, in order, and no other codes. -/
structure HeldBy (compile : Bool → String → Option (String → Bool)) (list : GeoSiteList)
    (map : FiniteMap String (List SiteDomain)) : Prop where
  domains : ∀ entry ∈ list.1, ∃ sites, map.lookup (codeKey entry.code) = some sites ∧
    List.Forall₂ (GeoDomain.Means compile) entry.domains sites
  only : ∀ code, map.lookup code ≠ none → ∃ entry ∈ list.1, codeKey entry.code = code

end GeoSiteList

end Mirage.Routing
