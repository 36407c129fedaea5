import Mirage.Dns.FakeIp.Invariant

/-!
# How long an assignment lasts

The cursor goes through the slots of the pool in a circle.  From the slot of a new
assignment it takes as many further assignments as there are slots until it is
there again, and no other operation but `clear` moves it.
-/

namespace Mirage.Dns

open Mirage.Foundations

namespace FakeIpMapper

/-- The number of addresses which are assigned -/
def capacity (mapper : FakeIpMapper) : ℕ :=
  2 ^ mapper.hostBits - 3

/-- The place of an address in the pool -/
def slot (mapper : FakeIpMapper) (ip : Ipv4Addr) : ℕ :=
  ip.toNat - (mapper.network.toNat + 2)

/-- The call gives an address to a domain which has none. -/
def Assigns (lower : String → String) (mapper : FakeIpMapper) : MapperCall → Prop
  | .lookupOrAssign domain => mapper.domainToIp.lookup (lower domain) = none
  | .lookupDomain _ | .clear => False

instance decidableAssigns (lower : String → String) (mapper : FakeIpMapper) :
    ∀ call, Decidable (mapper.Assigns lower call)
  | .lookupOrAssign domain =>
      inferInstanceAs (Decidable (mapper.domainToIp.lookup (lower domain) = none))
  | .lookupDomain _ | .clear => inferInstanceAs (Decidable False)

namespace Configured

variable {mapper : FakeIpMapper} {first second cur : Ipv4Addr}

theorem slot_lt (configured : mapper.Configured) (inPool : mapper.InPool cur) :
    mapper.slot cur < mapper.capacity := by
  have bounds := (configured.inPool_iff cur).mp inPool
  rw [slot, capacity]
  omega

theorem slot_injective (configured : mapper.Configured) (first_inPool : mapper.InPool first)
    (second_inPool : mapper.InPool second) (same : mapper.slot first = mapper.slot second) :
    first = second := by
  have first_bounds := (configured.inPool_iff first).mp first_inPool
  have second_bounds := (configured.inPool_iff second).mp second_inPool
  rw [slot, slot] at same
  apply BitVec.eq_of_toNat_eq
  omega

/-- The cursor goes on to the next slot, and from the last one to the first. -/
theorem slot_advance (configured : mapper.Configured) (inPool : mapper.InPool cur) :
    mapper.slot (mapper.advance cur) = (mapper.slot cur + 1) % mapper.capacity := by
  have size_ge := configured.eight_le_size
  have block_le := configured.network_add_size_le
  have bounds := (configured.inPool_iff cur).mp inPool
  have next_toNat : (cur + 1).toNat = cur.toNat + 1 := by
    apply BitVec.toNat_add_of_lt
    change cur.toNat + 1 < 2 ^ 32
    omega
  have host := configured.host_eq (cur + 1) (cur.toNat + 1 - mapper.network.toNat)
    (by omega) (by omega)
  have broadcast : cur + 1 &&& ~~~mapper.mask = ~~~mapper.mask ↔
      cur.toNat + 1 - mapper.network.toNat = 2 ^ mapper.hostBits - 1 := by
    rw [← BitVec.toNat_inj, configured.mask_eq, and_not_maskOf_toNat, not_maskOf_toNat, ← host]
    rfl
  rw [advance]
  split
  · rename_i last
    rw [broadcast] at last
    have slot_eq : mapper.slot cur + 1 = mapper.capacity := by
      rw [slot, capacity]
      omega
    rw [slot_eq, Nat.mod_self, slot, configured.first_toNat, Nat.sub_self]
  · rename_i inside
    rw [broadcast] at inside
    have slot_small : mapper.slot cur + 1 < mapper.capacity := by
      rw [slot, capacity]
      omega
    rw [Nat.mod_eq_of_lt slot_small, slot, slot, next_toNat]
    omega

end Configured

variable {initial mapper : FakeIpMapper} {lower : String → String} {ip : Ipv4Addr}
  {name : String} {further : ℕ}

/-- `name` has its address since `further` assignments. -/
structure Lasts (initial : FakeIpMapper) (ip : Ipv4Addr) (name : String) (further : ℕ)
    (mapper : FakeIpMapper) : Prop where
  wellFormed : mapper.WellFormed
  same : SameNetwork initial mapper
  kept : mapper.domainToIp.lookup name = some ip
  cursor : mapper.slot mapper.nextIp = (mapper.slot ip + 1 + further) % mapper.capacity

namespace Lasts

theorem inPool (lasts : Lasts initial ip name further mapper) : mapper.InPool ip :=
  lasts.wellFormed.assigned_inPool name ip lasts.kept

theorem cursor_ne (lasts : Lasts initial ip name further mapper)
    (room : further + 1 < mapper.capacity) : mapper.nextIp ≠ ip := by
  intro same
  have cursor := lasts.cursor
  have small := lasts.wellFormed.slot_lt lasts.inPool
  rw [same] at cursor
  rcases Nat.lt_or_ge (mapper.slot ip + 1 + further) mapper.capacity with before | around
  · rw [Nat.mod_eq_of_lt before] at cursor
    omega
  · rw [Nat.mod_eq_sub_mod around, Nat.mod_eq_of_lt (by omega)] at cursor
    omega

/-- After as many assignments as there are slots but one, the cursor is back. -/
theorem cursor_eq (lasts : Lasts initial ip name further mapper)
    (full : further + 1 = mapper.capacity) : mapper.nextIp = ip := by
  apply lasts.wellFormed.slot_injective lasts.wellFormed.nextIp_inPool lasts.inPool
  have small := lasts.wellFormed.slot_lt lasts.inPool
  rw [lasts.cursor, Nat.add_assoc, Nat.add_comm 1, full, Nat.add_mod_right,
    Nat.mod_eq_of_lt small]

/-- An assignment to another domain finds the cursor elsewhere. -/
theorem lookupOrAssign (lasts : Lasts initial ip name further mapper) {domain : String}
    (fresh : mapper.domainToIp.lookup (lower domain) = none)
    (room : further + 1 < mapper.capacity) :
    Lasts initial ip name (further + 1) (mapper.lookupOrAssign lower domain).2 := by
  have other : name ≠ lower domain := by
    rintro rfl
    rw [lasts.kept] at fresh
    cases fresh
  have elsewhere := lasts.cursor_ne room
  have not_owner : mapper.ipToDomain.lookup mapper.nextIp ≠ some name := by
    intro owner
    have owned := (lasts.wellFormed.mutual_maps name mapper.nextIp).mpr owner
    rw [lasts.kept, Option.some.injEq] at owned
    exact elsewhere owned.symm
  refine ⟨lasts.wellFormed.lookupOrAssign domain, ?_, ?_, ?_⟩
  · exact lasts.same.step (.lookupOrAssign domain)
  · simp only [FakeIpMapper.lookupOrAssign, fresh]
    rw [AList.lookup_insert_ne other, lookup_evict_of_ne not_owner]
    exact lasts.kept
  · have moved := lasts.wellFormed.slot_advance lasts.wellFormed.nextIp_inPool
    rw [lasts.cursor, Nat.mod_add_mod] at moved
    simp only [FakeIpMapper.lookupOrAssign, fresh]
    exact moved

theorem step (lasts : Lasts initial ip name further mapper) {call : MapperCall}
    (kept : call ≠ .clear)
    (room : further + (if mapper.Assigns lower call then 1 else 0) < mapper.capacity) :
    Lasts initial ip name (further + if mapper.Assigns lower call then 1 else 0)
      (mapper.step lower call) := by
  cases call with
  | clear => exact absurd rfl kept
  | lookupDomain other => exact lasts
  | lookupOrAssign domain =>
      by_cases fresh : mapper.Assigns lower (.lookupOrAssign domain)
      · rw [if_pos fresh] at room ⊢
        exact lasts.lookupOrAssign fresh room
      · rw [if_neg fresh]
        have there : mapper.step lower (.lookupOrAssign domain) = mapper := by
          rcases Option.ne_none_iff_exists'.mp fresh with ⟨found, lookup⟩
          simp only [FakeIpMapper.step, FakeIpMapper.lookupOrAssign, lookup]
        rw [there]
        exact lasts

theorem run {calls : List MapperCall} (lasts : Lasts initial ip name further mapper)
    (kept : .clear ∉ calls)
    (room : further + countAlong (FakeIpMapper.step lower) (Assigns lower) mapper calls <
      initial.capacity) :
    Lasts initial ip name
      (further + countAlong (FakeIpMapper.step lower) (Assigns lower) mapper calls)
      (Foundations.run (FakeIpMapper.step lower) mapper calls) := by
  induction calls generalizing mapper further with
  | nil => exact lasts
  | cons call calls ih =>
      rw [List.mem_cons, not_or] at kept
      rw [countAlong, ← Nat.add_assoc] at room ⊢
      have capacity_eq : mapper.capacity = initial.capacity := by
        rw [capacity, capacity, hostBits, hostBits, lasts.same.2.2]
      have stepped : Lasts initial ip name (further + if mapper.Assigns lower call then 1 else 0)
          (mapper.step lower call) := lasts.step (Ne.symm kept.1) (by omega)
      exact ih stepped kept.2 room

end Lasts

/-- A new assignment begins to last. -/
theorem WellFormed.lasts {domain : String} (wellFormed : mapper.WellFormed)
    (same : SameNetwork initial mapper) (fresh : mapper.domainToIp.lookup (lower domain) = none) :
    Lasts initial (mapper.lookupOrAssign lower domain).1 (lower domain) 0
      (mapper.lookupOrAssign lower domain).2 := by
  refine ⟨wellFormed.lookupOrAssign domain, ?_, mapper.lookup_lookupOrAssign lower domain, ?_⟩
  · exact same.step (.lookupOrAssign domain)
  · have moved := wellFormed.slot_advance wellFormed.nextIp_inPool
    simp only [FakeIpMapper.lookupOrAssign, fresh]
    exact moved

/--
A new assignment answers for its domain and for its address as long as fewer
further ones have been made than there are addresses; the one which completes
their number evicts its domain, and no other.
-/
theorem assignment_lasts (lower : String → String) {cidr : String} {initial : FakeIpMapper}
    (accepted : FakeIpMapper.new cidr = .ok initial) (earlier : List MapperCall)
    {domain : String}
    (fresh : (run (step lower) initial earlier).domainToIp.lookup (lower domain) = none)
    (later : List MapperCall) (kept : .clear ∉ later) :
    let assigned := (run (step lower) initial earlier).lookupOrAssign lower domain
    let mapper := run (step lower) assigned.2 later
    let further := countAlong (step lower) (Assigns lower) assigned.2 later
    (further < 2 ^ initial.hostBits - 3 →
      mapper.lookupDomain assigned.1 = some (lower domain) ∧
        mapper.lookupOrAssign lower domain = (assigned.1, mapper)) ∧
    (further + 1 = 2 ^ initial.hostBits - 3 →
      ∀ next, mapper.Assigns lower (.lookupOrAssign next) →
        (mapper.lookupOrAssign lower next).1 = assigned.1 ∧
          EvictsExactly mapper (mapper.lookupOrAssign lower next).2 (lower domain)
            (lower next)) := by
  intro assigned mapper further
  have wellFormed : (run (step lower) initial earlier).WellFormed :=
    run_invariant earlier (fun call wellFormed => wellFormed.step call) (.of_new accepted)
  have same : SameNetwork initial (run (step lower) initial earlier) :=
    run_invariant earlier (fun call same => same.step call) ⟨rfl, rfl, rfl⟩
  have begun := wellFormed.lasts same fresh
  have lasts : further < initial.capacity →
      Lasts initial assigned.1 (lower domain) further mapper := by
    intro room
    have ended := begun.run kept (by rwa [Nat.zero_add])
    rwa [Nat.zero_add] at ended
  constructor
  · intro room
    have still := lasts room
    refine ⟨(still.wellFormed.mutual_maps _ _).mp still.kept, ?_⟩
    simp only [lookupOrAssign, still.kept]
  · intro full next another
    have still := lasts (by rw [capacity]; omega)
    have back : mapper.nextIp = assigned.1 := by
      apply still.cursor_eq
      rw [capacity, hostBits, still.same.2.2]
      exact full
    refine ⟨?_, ?_⟩
    · rw [← back]
      rw [Assigns] at another
      simp only [lookupOrAssign, another]
    · apply still.wellFormed.evictsExactly another
      rw [back]
      exact (still.wellFormed.mutual_maps _ _).mp still.kept

/-- Five further domains, with a repeated lookup, for the five addresses -/
theorem assignment_lasts_smallest :
    let assigned := smallest.lookupOrAssign toAsciiLowercase "z.com"
    let later : List MapperCall :=
      [.lookupOrAssign "a.com", .lookupOrAssign "Z.com", .lookupOrAssign "b.com",
        .lookupOrAssign "c.com", .lookupDomain assigned.1, .lookupOrAssign "d.com"]
    let mapper := run (step toAsciiLowercase) assigned.2 later
    mapper.lookupDomain assigned.1 = some "z.com" ∧
      EvictsExactly mapper (mapper.lookupOrAssign toAsciiLowercase "e.com").2 "z.com" "e.com" := by
  have accepted : FakeIpMapper.new "10.0.0.0/29" = .ok smallest := by rfl
  intro assigned later mapper
  have lasts := @assignment_lasts toAsciiLowercase _ _ accepted [] "z.com" (by decide) later
    (by decide)
  exact ⟨(lasts.1 (by decide)).1, (lasts.2 (by decide) "e.com" (by decide)).2⟩

end FakeIpMapper

end Mirage.Dns
