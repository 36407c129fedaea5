import Mirage.Dns.FakeIp
import Mirage.Routing.Decision

/-!
# Engines

An `Engine` owns the fake-IP mapper of a node, always over `FAKE_IP_CIDR`.  The
data path reads the engine, the rules and the cache of direct answers through
shared handles; `Shared` is what one read of them finds.
-/

namespace Mirage.Tun

open Mirage.Foundations Mirage.Dns Mirage.Routing

def fakeIpCidr : String := "198.18.0.0/16"

structure Engine where
  fakeIp : FakeIpMapper
  network_eq : fakeIp.network = ipv4 198 18 0 0
  mask_eq : fakeIp.mask = maskOf 16

namespace Engine

def new : Engine where
  fakeIp :=
    { network := ipv4 198 18 0 0, mask := maskOf 16, prefixLen := 16, nextIp := ipv4 198 18 0 2,
      domainToIp := ∅, ipToDomain := ∅, persistPath := none, dirty := false }
  network_eq := rfl
  mask_eq := rfl

theorem new_fakeIp : FakeIpMapper.new fakeIpCidr = .ok new.fakeIp :=
  rfl

def fakeIpReverse (engine : Engine) : IpAddr → Option String
  | .v4 address => engine.fakeIp.lookupDomain address
  | .v6 _ => none

def isFakeIp (engine : Engine) : IpAddr → Bool
  | .v4 address => engine.fakeIp.isFakeIp address
  | .v6 _ => false

/-- The address of a domain, and the engine afterwards. -/
def fakeIpAllocate (lower : String → String) (engine : Engine) (domain : String) :
    Ipv4Addr × Engine :=
  ((engine.fakeIp.lookupOrAssign lower domain).1,
    { fakeIp := (engine.fakeIp.lookupOrAssign lower domain).2
      network_eq := by
        simp only [FakeIpMapper.lookupOrAssign]
        split <;> exact engine.network_eq
      mask_eq := by
        simp only [FakeIpMapper.lookupOrAssign]
        split <;> exact engine.mask_eq })

/-- An address of the mapper's block is in the range which routing reserves for it. -/
theorem isFakeIp_routing {engine : Engine} {ip : IpAddr} (fake : engine.isFakeIp ip = true) :
    Routing.isFakeIp ip = true := by
  cases ip with
  | v4 address =>
      simp only [isFakeIp, FakeIpMapper.isFakeIp, engine.network_eq, engine.mask_eq,
        beq_iff_eq] at fake
      have wider : (maskOf 16) &&& 0xFFFE0000 = 0xFFFE0000 := by decide
      have masked := congrArg (· &&& (0xFFFE0000 : BitVec 32)) fake
      simp only [BitVec.and_assoc, wider] at masked
      simp only [Routing.isFakeIp, masked]
      decide
  | v6 address => simp [isFakeIp] at fake

/-- Every engine has the same block of fake addresses. -/
theorem isFakeIp_eq (first second : Engine) (ip : IpAddr) :
    first.isFakeIp ip = second.isFakeIp ip := by
  cases ip with
  | v4 address =>
      simp only [isFakeIp, FakeIpMapper.isFakeIp, first.network_eq, first.mask_eq,
        second.network_eq, second.mask_eq]
  | v6 address => rfl

/-- The address of the DNS server is not in the block. -/
theorem not_isFakeIp_localDnsIp (engine : Engine) :
    engine.isFakeIp RouterState.localDnsIp = false := by
  rw [isFakeIp_eq engine new]
  decide

/-- A fake address is not private. -/
theorem not_isPrivateIp {engine : Engine} {ip : IpAddr} (fake : engine.isFakeIp ip = true) :
    isPrivateIp ip = false := by
  cases ip with
  | v4 address => simp [isPrivateIp, isFakeIp_routing fake]
  | v6 address => simp [isFakeIp] at fake

end Engine

/-- What the tasks of the data path share, as one of them finds it. -/
structure Shared where
  /-- How many engines were installed before this one. -/
  engineId : ℕ
  engine : Engine
  router : RouterState

end Mirage.Tun

/-!
# Where a direct flow goes

A flow which is routed directly and whose address is fake needs a real address
first.  `resolveDirectTarget` is the part of that search before its wait, if it
has to wait; `lanAnswered` and `upstreamAnswered` are the parts after it.  The
TCP and the UDP relay share these functions and the check `mayDial` on the
address they find.
-/

namespace Mirage.Tun

open Mirage.Foundations Mirage.Routing

inductive DirectTarget where
  | ip (ip : IpAddr)
  | routerIp (ip : IpAddr)
  | fallbackProxy
  | drop
  deriving DecidableEq, Repr

/-- A call of `resolve_upstream`, and the routing state in which it was decided. -/
structure UpstreamCall where
  domain : String
  /-- The domain was routed directly by a rule of the user. -/
  byRule : Bool
  router : RouterState

/-- The name may reach a public resolver. -/
def UpstreamCall.Gated (call : UpstreamCall) : Prop :=
  isLanOrRouterDomain call.domain = false ∧ isKnownNonCnDomain call.domain = false ∧
    (call.byRule = true ∨ call.router.shouldResolveUpstream call.domain = true)

def mayQueryUpstream (router : RouterState) (dom : String) (source : DecisionSource) : Bool :=
  if isKnownNonCnDomain dom || isLanOrRouterDomain dom then false
  else source == .rule || router.shouldResolveUpstream dom

/-- How far `resolve_direct_target` comes without waiting. -/
inductive Resolution where
  | done (target : DirectTarget)
  | lanLookup
  | upstream
  deriving DecidableEq, Repr

def resolveDirectTarget (router : RouterState) (dom : String) (source : DecisionSource) :
    Resolution :=
  match router.directDnsLookup dom with
  | some realIp => .done (.ip realIp)
  | none =>
      if isLanOrRouterDomain dom then
        match defaultRouterIpForDomain dom with
        | some routerIp => .done (.routerIp routerIp)
        | none => .lanLookup
      else if source = .default then .done .fallbackProxy
      else if mayQueryUpstream router dom source then .upstream
      else .done .fallbackProxy

/-- The answer of the system's resolver, `none` if there is none in time. -/
def lanAnswered : Option IpAddr → DirectTarget
  | some ip => if isPrivateIp ip then .ip ip else .drop
  | none => .drop

def upstreamAnswered : Option Ipv4Addr → DirectTarget
  | some realV4 => .ip (.v4 realV4)
  | none => .fallbackProxy

/-- The check on the resolved address: only local and Chinese addresses stand for a fake one. -/
def mayDial (router : RouterState) (target : IpAddr) (isFake : Bool) : Bool :=
  isPrivateIp target || router.geo.isCnIp target || !isFake

theorem mayQueryUpstream_gated {router : RouterState} {dom : String} {source : DecisionSource}
    (allowed : mayQueryUpstream router dom source = true) :
    UpstreamCall.Gated ⟨dom, source == .rule, router⟩ := by
  simp only [mayQueryUpstream] at allowed
  split at allowed
  · simp at allowed
  · rename_i excluded
    simp only [Bool.or_eq_true, not_or, Bool.not_eq_true] at excluded
    exact ⟨excluded.2, excluded.1, by simpa using allowed⟩

/-- Every name which the direct relays send to a public resolver may reach it. -/
theorem resolveDirectTarget_gated {router : RouterState} {dom : String} {source : DecisionSource}
    (waits : resolveDirectTarget router dom source = .upstream) :
    UpstreamCall.Gated ⟨dom, source == .rule, router⟩ := by
  simp only [resolveDirectTarget] at waits
  split at waits
  · simp at waits
  · split at waits
    · split at waits <;> simp at waits
    · split at waits
      · simp at waits
      · split at waits
        · rename_i allowed
          exact mayQueryUpstream_gated allowed
        · simp at waits

end Mirage.Tun
