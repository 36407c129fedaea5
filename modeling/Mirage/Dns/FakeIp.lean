import Mirage.Foundations.MutualMaps
import Mirage.Foundations.Net

/-!
# The fake-IP mapper

`FakeIpMapper` assigns an address of a private block to every domain the DNS
responder answers, and finds the domain again when a connection to the address
arrives.  Addresses are handed out round robin: when the cursor reaches an
address which is in use, its old domain is evicted.

Both maps and the cursor are guarded by locks which `lookup_or_assign` and
`clear` take in the same order, `domain_to_ip` first and for their whole body,
so each operation is one step.  `str::to_lowercase` is the parameter `lower`,
and nothing below depends on the Unicode tables behind it.
-/

namespace Mirage.Dns

open Mirage.Foundations

structure FakeIpMapper where
  network : BitVec 32
  mask : BitVec 32
  prefixLen : ℕ
  nextIp : BitVec 32
  domainToIp : FiniteMap String Ipv4Addr
  ipToDomain : FiniteMap Ipv4Addr String
  persistPath : Option String
  /-- Set by a new assignment, cleared when the mappings reach the disk. -/
  dirty : Bool
  deriving DecidableEq

namespace FakeIpMapper

/-- `with_persist`, up to the loading of the cache file. -/
def construct (cidr : String) (persistPath : Option String) : Except String FakeIpMapper :=
  match splitChar cidr '/' with
  | [address, length] =>
      match parseIpv4 address with
      | none => .error "invalid IPv4 address syntax"
      | some ip =>
          match parseUnsigned u32Max length with
          | .error parseError => .error parseError.message
          | .ok prefixLen =>
              if prefixLen > 29 then
                .error ("fake-ip CIDR 前缀 /" ++ toString prefixLen ++
                  " 太小 (需 <= /29, 至少 3 个主机位)")
              else
                let mask := maskOf prefixLen
                let network := ip &&& mask
                .ok
                  { network, mask, prefixLen, nextIp := network + 2, domainToIp := ∅,
                    ipToDomain := ∅, persistPath, dirty := false }
  | _ => .error "Invalid CIDR format"

def new (cidr : String) : Except String FakeIpMapper :=
  construct cidr none

/-- The cursor after `cur`: skip the broadcast address, the network and the gateway. -/
def advance (mapper : FakeIpMapper) (cur : BitVec 32) : BitVec 32 :=
  let n := cur + 1
  if n &&& ~~~mapper.mask = ~~~mapper.mask then mapper.network + 2 else n

/-- `lookup_or_assign`: the address of a domain, and the mapper afterwards. -/
def lookupOrAssign (lower : String → String) (mapper : FakeIpMapper) (domain : String) :
    Ipv4Addr × FakeIpMapper :=
  let domain := lower domain
  match mapper.domainToIp.lookup domain with
  | some ip => (ip, mapper)
  | none =>
      -- The second lookup under the write lock sees the same map.
      let ip := mapper.nextIp
      let oldDomain := mapper.ipToDomain.lookup ip
      (ip,
        { mapper with
          nextIp := mapper.advance mapper.nextIp
          ipToDomain := mapper.ipToDomain.insert ip domain
          domainToIp := (evict mapper.domainToIp oldDomain domain).insert domain ip
          dirty := true })

def lookupDomain (mapper : FakeIpMapper) (ip : Ipv4Addr) : Option String :=
  mapper.ipToDomain.lookup ip

def isFakeIp (mapper : FakeIpMapper) (ip : Ipv4Addr) : Bool :=
  ip &&& mapper.mask == mapper.network

def clear (mapper : FakeIpMapper) : FakeIpMapper :=
  { mapper with
    domainToIp := ∅
    ipToDomain := ∅
    nextIp := mapper.network + 2
    dirty := false }

end FakeIpMapper

inductive MapperCall where
  | lookupOrAssign (domain : String)
  | lookupDomain (ip : Ipv4Addr)
  | clear
  deriving DecidableEq, Repr

def FakeIpMapper.step (lower : String → String) (mapper : FakeIpMapper) :
    MapperCall → FakeIpMapper
  | .lookupOrAssign domain => (mapper.lookupOrAssign lower domain).2
  | .lookupDomain _ => mapper
  | .clear => mapper.clear

end Mirage.Dns
