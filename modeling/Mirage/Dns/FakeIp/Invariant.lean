import Mirage.Dns.FakeIp
import Mirage.Foundations.Run
import Mathlib.Order.Interval.Finset.Nat

/-!
# The representation invariant of the fake-IP mapper

A mapper is well formed when its two maps are mutually inverse, every assigned
address is in the pool of the configured network, and so is the cursor.  The
pool leaves out the network address, the gateway and the broadcast address;
after `Configured.inPool_iff` it is an interval of `2 ^ h - 3` numbers, which
bounds both maps.
-/

namespace Mirage.Dns

open Mirage.Foundations

namespace FakeIpMapper

def hostBits (mapper : FakeIpMapper) : ℕ :=
  32 - mapper.prefixLen

/-- The address lies in the network and is not its network, gateway or broadcast address. -/
def InPool (mapper : FakeIpMapper) (ip : Ipv4Addr) : Prop :=
  ip &&& mapper.mask = mapper.network ∧
    2 ≤ (ip &&& ~~~mapper.mask).toNat ∧ (ip &&& ~~~mapper.mask).toNat ≤ 2 ^ mapper.hostBits - 2

/-- The fields which the constructor sets and no operation changes. -/
structure Configured (mapper : FakeIpMapper) : Prop where
  prefixLen_le : mapper.prefixLen ≤ 29
  mask_eq : mapper.mask = maskOf mapper.prefixLen
  network_masked : mapper.network &&& maskOf mapper.prefixLen = mapper.network

namespace Configured

variable {mapper : FakeIpMapper}

theorem eight_le_size (configured : mapper.Configured) : 8 ≤ 2 ^ mapper.hostBits := by
  have prefixLen_le := configured.prefixLen_le
  have three_le : 3 ≤ mapper.hostBits := by
    simp only [hostBits]
    omega
  exact Nat.pow_le_pow_right (show 0 < 2 by omega) three_le

theorem network_add_size_le (configured : mapper.Configured) :
    mapper.network.toNat + 2 ^ mapper.hostBits ≤ 2 ^ 32 :=
  masked_add_size_le configured.network_masked

theorem host_eq (configured : mapper.Configured) (address : BitVec 32) (host : ℕ)
    (offset : address.toNat = mapper.network.toNat + host) (host_lt : host < 2 ^ mapper.hostBits) :
    address.toNat % 2 ^ mapper.hostBits = host := by
  rcases size_dvd_of_masked configured.network_masked with ⟨index, start⟩
  rw [offset, start]
  exact (Nat.mul_add_mod ..).trans (Nat.mod_eq_of_lt host_lt)

theorem inPool_iff (configured : mapper.Configured) (ip : Ipv4Addr) :
    mapper.InPool ip ↔
      mapper.network.toNat + 2 ≤ ip.toNat ∧
        ip.toNat + 2 ≤ mapper.network.toNat + 2 ^ mapper.hostBits := by
  have size_ge := configured.eight_le_size
  simp only [InPool, configured.mask_eq, and_maskOf_eq_iff, and_not_maskOf_toNat]
  constructor
  · rintro ⟨in_network, host_ge, host_le⟩
    simp only [hostBits] at *
    omega
  · rintro ⟨ip_ge, ip_le⟩
    have host := configured.host_eq ip (ip.toNat - mapper.network.toNat)
      (by omega) (by omega)
    simp only [hostBits] at *
    omega

theorem first_toNat (configured : mapper.Configured) :
    (mapper.network + 2).toNat = mapper.network.toNat + 2 := by
  have size_ge := configured.eight_le_size
  have block_le := configured.network_add_size_le
  apply BitVec.toNat_add_of_lt
  change mapper.network.toNat + 2 < 2 ^ 32
  omega

theorem first_inPool (configured : mapper.Configured) : mapper.InPool (mapper.network + 2) := by
  have size_ge := configured.eight_le_size
  rw [configured.inPool_iff, configured.first_toNat]
  omega

/-- The cursor stays in the pool, wrapping around at the broadcast address. -/
theorem advance_inPool (configured : mapper.Configured) {cur : BitVec 32}
    (cur_inPool : mapper.InPool cur) : mapper.InPool (mapper.advance cur) := by
  have block_le := configured.network_add_size_le
  have cur_bounds := (configured.inPool_iff cur).mp cur_inPool
  have next_toNat : (cur + 1).toNat = cur.toNat + 1 := by
    apply BitVec.toNat_add_of_lt
    change cur.toNat + 1 < 2 ^ 32
    omega
  simp only [advance]
  split
  · exact configured.first_inPool
  · rename_i notBroadcast
    rw [configured.inPool_iff, next_toNat]
    by_contra outside
    apply notBroadcast
    have host := configured.host_eq (cur + 1) (2 ^ mapper.hostBits - 1)
      (by omega) (by omega)
    rw [← BitVec.toNat_inj, configured.mask_eq, and_not_maskOf_toNat, not_maskOf_toNat]
    exact host

end Configured

/-- The representation invariant. -/
structure WellFormed (mapper : FakeIpMapper) : Prop extends mapper.Configured where
  mutual_maps : Mutual mapper.domainToIp mapper.ipToDomain
  assigned_inPool : ∀ domain ip, mapper.domainToIp.lookup domain = some ip → mapper.InPool ip
  nextIp_inPool : mapper.InPool mapper.nextIp

theorem construct_ok {cidr : String} {persistPath : Option String} {mapper : FakeIpMapper}
    (accepted : construct cidr persistPath = .ok mapper) :
    ∃ (ip : Ipv4Addr) (prefixLen : ℕ), prefixLen ≤ 29 ∧
      mapper =
        { network := ip &&& maskOf prefixLen, mask := maskOf prefixLen, prefixLen,
          nextIp := (ip &&& maskOf prefixLen) + 2, domainToIp := ∅, ipToDomain := ∅,
          persistPath, dirty := false } := by
  unfold construct at accepted
  split at accepted
  · split at accepted
    · simp at accepted
    · split at accepted
      · simp at accepted
      · split at accepted
        · simp at accepted
        · rename_i ip _ _ prefixLen _ small
          refine ⟨ip, prefixLen, by omega, ?_⟩
          simpa using accepted.symm
  · simp at accepted

/-- What a domain has after a call is new, or it had it before. -/
theorem lookup_of_lookupOrAssign {mapper : FakeIpMapper} {lower : String → String}
    {domain other : String} {ip : Ipv4Addr}
    (assigned : (mapper.lookupOrAssign lower domain).2.domainToIp.lookup other = some ip) :
    (other = lower domain ∧ ip = mapper.nextIp) ∨ mapper.domainToIp.lookup other = some ip := by
  simp only [lookupOrAssign] at assigned
  split at assigned
  · exact Or.inr assigned
  · by_cases same : other = lower domain
    · subst same
      rw [AList.lookup_insert, Option.some.injEq] at assigned
      exact Or.inl ⟨rfl, assigned.symm⟩
    · rw [AList.lookup_insert_ne same] at assigned
      right
      by_cases owner : mapper.ipToDomain.lookup mapper.nextIp = some other
      · rw [owner, lookup_evict_owner same] at assigned
        cases assigned
      · rwa [lookup_evict_of_ne owner] at assigned

namespace WellFormed

variable {mapper : FakeIpMapper} {lower : String → String}

theorem of_construct {cidr : String} {persistPath : Option String}
    (accepted : construct cidr persistPath = .ok mapper) : mapper.WellFormed := by
  rcases construct_ok accepted with ⟨ip, prefixLen, prefixLen_le, rfl⟩
  have configured : Configured
      { network := ip &&& maskOf prefixLen, mask := maskOf prefixLen, prefixLen,
        nextIp := (ip &&& maskOf prefixLen) + 2, domainToIp := ∅, ipToDomain := ∅,
        persistPath, dirty := false } := by
    refine ⟨prefixLen_le, rfl, ?_⟩
    rw [BitVec.and_assoc, BitVec.and_self]
  exact ⟨configured, .empty, by simp, configured.first_inPool⟩

theorem of_new {cidr : String} (accepted : FakeIpMapper.new cidr = .ok mapper) :
    mapper.WellFormed :=
  of_construct accepted

theorem clear (wellFormed : mapper.WellFormed) : mapper.clear.WellFormed := by
  have configured : mapper.clear.Configured :=
    ⟨wellFormed.prefixLen_le, wellFormed.mask_eq, wellFormed.network_masked⟩
  refine ⟨configured, ?_, ?_, configured.first_inPool⟩
  · exact Mutual.empty
  · simp [FakeIpMapper.clear]

theorem lookupOrAssign (wellFormed : mapper.WellFormed) (domain : String) :
    (mapper.lookupOrAssign lower domain).2.WellFormed := by
  have inPool : ∀ other ip,
      (mapper.lookupOrAssign lower domain).2.domainToIp.lookup other = some ip →
        mapper.InPool ip := by
    intro other ip assigned
    -- The new pair is at the cursor; every other pair was there before.
    rcases lookup_of_lookupOrAssign assigned with ⟨_, rfl⟩ | before
    · exact wellFormed.nextIp_inPool
    · exact wellFormed.assigned_inPool other ip before
  simp only [FakeIpMapper.lookupOrAssign] at inPool ⊢
  split
  · exact wellFormed
  · rename_i fresh
    simp only [fresh] at inPool
    refine ⟨⟨wellFormed.prefixLen_le, wellFormed.mask_eq, wellFormed.network_masked⟩, ?_, inPool,
      ?_⟩
    · exact wellFormed.mutual_maps.rebind fresh mapper.nextIp
    · exact wellFormed.advance_inPool wellFormed.nextIp_inPool

theorem step (wellFormed : mapper.WellFormed) (call : MapperCall) :
    (mapper.step lower call).WellFormed := by
  cases call with
  | lookupOrAssign domain => exact wellFormed.lookupOrAssign domain
  | lookupDomain ip => exact wellFormed
  | clear => exact wellFormed.clear

def poolAddresses (mapper : FakeIpMapper) : Finset Ipv4Addr :=
  (Finset.Icc (mapper.network.toNat + 2) (mapper.network.toNat + 2 ^ mapper.hostBits - 2)).image
    (BitVec.ofNat 32)

theorem poolAddresses_card_le (mapper : FakeIpMapper) :
    (poolAddresses mapper).card ≤ 2 ^ mapper.hostBits - 3 := by
  calc (poolAddresses mapper).card
      ≤ (Finset.Icc (mapper.network.toNat + 2)
          (mapper.network.toNat + 2 ^ mapper.hostBits - 2)).card := Finset.card_image_le
    _ = 2 ^ mapper.hostBits - 3 := by
        rw [Nat.card_Icc]
        omega

theorem mem_poolAddresses (wellFormed : mapper.WellFormed) {ip : Ipv4Addr}
    (inPool : mapper.InPool ip) : ip ∈ poolAddresses mapper := by
  have bounds := (wellFormed.inPool_iff ip).mp inPool
  refine Finset.mem_image.mpr ⟨ip.toNat, ?_, by simp⟩
  rw [Finset.mem_Icc]
  omega

theorem domainToIp_length_le (wellFormed : mapper.WellFormed) :
    mapper.domainToIp.keys.length ≤ 2 ^ mapper.hostBits - 3 :=
  (wellFormed.mutual_maps.forward_length_le fun domain ip assigned =>
    wellFormed.mem_poolAddresses (wellFormed.assigned_inPool domain ip assigned)).trans
      (poolAddresses_card_le mapper)

theorem ipToDomain_length_le (wellFormed : mapper.WellFormed) :
    mapper.ipToDomain.keys.length ≤ 2 ^ mapper.hostBits - 3 :=
  (wellFormed.mutual_maps.backward_length_le fun domain ip assigned =>
    wellFormed.mem_poolAddresses (wellFormed.assigned_inPool domain ip assigned)).trans
      (poolAddresses_card_le mapper)

end WellFormed

def SameNetwork (first second : FakeIpMapper) : Prop :=
  second.network = first.network ∧ second.mask = first.mask ∧ second.prefixLen = first.prefixLen

theorem SameNetwork.step {first second : FakeIpMapper} {lower : String → String}
    (same : SameNetwork first second) (call : MapperCall) :
    SameNetwork first (second.step lower call) := by
  cases call with
  | lookupOrAssign domain =>
      simp only [FakeIpMapper.step, FakeIpMapper.lookupOrAssign]
      split <;> exact same
  | lookupDomain ip => exact same
  | clear => exact same

theorem SameNetwork.inPool_iff {first second : FakeIpMapper} (same : SameNetwork first second)
    (ip : Ipv4Addr) : second.InPool ip ↔ first.InPool ip := by
  rcases same with ⟨network_eq, mask_eq, prefixLen_eq⟩
  simp only [InPool, hostBits, network_eq, mask_eq, prefixLen_eq]

/--
Assigning `domain` takes the cursor's address away from `old` in both maps and
leaves every other pair as it was.
-/
structure EvictsExactly (before after : FakeIpMapper) (old domain : String) : Prop where
  different : old ≠ domain
  old_forgotten : after.domainToIp.lookup old = none
  address_reassigned : after.lookupDomain before.nextIp = some domain
  other_domains : ∀ other, other ≠ old → other ≠ domain →
    after.domainToIp.lookup other = before.domainToIp.lookup other
  other_addresses : ∀ ip, ip ≠ before.nextIp → after.lookupDomain ip = before.lookupDomain ip

theorem WellFormed.evictsExactly {mapper : FakeIpMapper} {lower : String → String}
    (wellFormed : mapper.WellFormed) {old domain : String}
    (fresh : mapper.domainToIp.lookup (lower domain) = none)
    (occupied : mapper.lookupDomain mapper.nextIp = some old) :
    EvictsExactly mapper (mapper.lookupOrAssign lower domain).2 old (lower domain) := by
  have different : old ≠ lower domain := by
    rintro rfl
    exact wellFormed.mutual_maps.owner_ne_of_fresh fresh mapper.nextIp occupied
  simp only [lookupDomain] at occupied
  simp only [FakeIpMapper.lookupOrAssign, fresh, occupied]
  refine ⟨different, ?_, ?_, ?_, ?_⟩
  · simp only
    rw [AList.lookup_insert_ne different, lookup_evict_owner different]
  · simp [lookupDomain]
  · intro other not_old not_domain
    simp only
    rw [AList.lookup_insert_ne not_domain, lookup_evict_of_ne]
    simpa using Ne.symm not_old
  · intro ip elsewhere
    simp only [lookupDomain]
    exact AList.lookup_insert_ne elsewhere

/-- The address a domain is given is the one the maps record for it. -/
theorem lookup_lookupOrAssign (mapper : FakeIpMapper) (lower : String → String) (domain : String) :
    (mapper.lookupOrAssign lower domain).2.domainToIp.lookup (lower domain) =
      some (mapper.lookupOrAssign lower domain).1 := by
  simp only [lookupOrAssign]
  split
  · assumption
  · simp

/--
After every run of calls on a mapper which the constructor accepts, the maps
are mutually inverse, bounded, and inside the pool, and so is the cursor; a
wrap-around evicts exactly one pair.
-/
theorem representation_invariant (lower : String → String) {cidr : String}
    {initial : FakeIpMapper} (accepted : FakeIpMapper.new cidr = .ok initial)
    (calls : List MapperCall) :
    let mapper := run (FakeIpMapper.step lower) initial calls
    initial.prefixLen ≤ 29 ∧
      (∀ domain ip, mapper.domainToIp.lookup domain = some ip ↔
        mapper.lookupDomain ip = some domain) ∧
      (∀ first second ip, mapper.domainToIp.lookup first = some ip →
        mapper.domainToIp.lookup second = some ip → first = second) ∧
      (∀ domain ip, mapper.domainToIp.lookup domain = some ip → initial.InPool ip) ∧
      mapper.domainToIp.keys.length ≤ 2 ^ initial.hostBits - 3 ∧
      mapper.ipToDomain.keys.length ≤ 2 ^ initial.hostBits - 3 ∧
      initial.InPool mapper.nextIp ∧
      ∀ domain old, mapper.domainToIp.lookup (lower domain) = none →
        mapper.lookupDomain mapper.nextIp = some old →
        EvictsExactly mapper (mapper.lookupOrAssign lower domain).2 old (lower domain) := by
  intro mapper
  have wellFormed : mapper.WellFormed :=
    run_invariant calls (fun call wellFormed => wellFormed.step call) (.of_new accepted)
  have same : SameNetwork initial mapper :=
    run_invariant calls (fun call same => same.step call) ⟨rfl, rfl, rfl⟩
  have size_eq : initial.hostBits = mapper.hostBits := by
    simp only [hostBits, same.2.2]
  refine ⟨(WellFormed.of_new accepted).prefixLen_le, wellFormed.mutual_maps, ?_, ?_, ?_, ?_, ?_, ?_⟩
  · intro first second ip
    exact wellFormed.mutual_maps.key_unique
  · intro domain ip assigned
    exact (same.inPool_iff ip).mp (wellFormed.assigned_inPool domain ip assigned)
  · rw [size_eq]
    exact wellFormed.domainToIp_length_le
  · rw [size_eq]
    exact wellFormed.ipToDomain_length_le
  · exact (same.inPool_iff _).mp wellFormed.nextIp_inPool
  · intro domain old fresh occupied
    exact wellFormed.evictsExactly fresh occupied

def smallest : FakeIpMapper where
  network := ipv4 10 0 0 0
  mask := maskOf 29
  prefixLen := 29
  nextIp := ipv4 10 0 0 2
  domainToIp := ∅
  ipToDomain := ∅
  persistPath := none
  dirty := false

/-- Five calls which use up the addresses of the smallest network. -/
def fillingCalls : List MapperCall :=
  ["a.com", "b.com", "c.com", "d.com", "E.com"].map .lookupOrAssign

/-- The sixth domain takes the address of the first one. -/
theorem representation_invariant_smallest :
    FakeIpMapper.new "10.0.0.0/29" = .ok smallest ∧
      (let mapper := run (FakeIpMapper.step toAsciiLowercase) smallest fillingCalls
       mapper.domainToIp.keys.length ≤ 2 ^ smallest.hostBits - 3 ∧
        EvictsExactly mapper (mapper.lookupOrAssign toAsciiLowercase "F.com").2
          "a.com" "f.com") := by
  have accepted : FakeIpMapper.new "10.0.0.0/29" = .ok smallest := by rfl
  rcases representation_invariant toAsciiLowercase accepted fillingCalls with
    ⟨_, _, _, _, length_le, _, _, evicts⟩
  exact ⟨accepted, length_le, evicts "F.com" "a.com" (by decide) (by decide)⟩

end FakeIpMapper

end Mirage.Dns
