import Mirage.Foundations.Text
import Mirage.Foundations.Prefixes
import Mirage.Routing.CustomRules

/-!
# Blocks of addresses

A rule condition on a block keeps as many bits of an address as its prefix says,
up to the width of the address.  Past the width the mask is computed with a
wrapped difference: such a prefix keeps its rest modulo 32, and what was to be
one address becomes a block.
-/

namespace Mirage.Routing

open Mirage.Foundations

/-! ## Masks -/

/-- How many bits a mask of `width` bits keeps for a `u8` prefix. -/
def keptBits (width prefixLen : ℕ) : ℕ :=
  if prefixLen = 0 then 0 else width - (width + 256 - prefixLen) % 256 % width

/-- `width - prefix` does not wrap, and the mask is shifted by less than its width. -/
def ShiftFits (width prefixLen : ℕ) : Prop :=
  prefixLen = 0 ∨ prefixLen ≤ width ∧ width - prefixLen < width

theorem shiftFits_iff {width prefixLen : ℕ} : ShiftFits width prefixLen ↔ prefixLen ≤ width := by
  simp only [ShiftFits]
  omega

theorem keptBits_le (width prefixLen : ℕ) : keptBits width prefixLen ≤ width := by
  simp only [keptBits]
  split <;> omega

theorem contains_new {ip address : Ipv4Addr} {prefixLen : ℕ} :
    (Ipv4Cidr.new ip prefixLen).contains address = true ↔
      SharePrefix (keptBits 32 prefixLen) ip address := by
  simp only [Ipv4Cidr.contains, Ipv4Cidr.new, wrappedMask, keptBits, beq_iff_eq]
  split
  · simp [SharePrefix]
  · rw [masked_eq_iff]
    exact ⟨.symm, .symm⟩

theorem contains_new6 {ip address : Ipv6Addr} {prefixLen : ℕ} :
    (Ipv6Cidr.new ip prefixLen).contains address = true ↔
      SharePrefix (keptBits 128 prefixLen) ip address := by
  simp only [Ipv6Cidr.contains, Ipv6Cidr.new, wrappedMask6, keptBits, beq_iff_eq]
  split
  · simp [SharePrefix]
  · rw [masked_eq_iff]
    exact ⟨.symm, .symm⟩

theorem keptBits_32 {prefixLen : ℕ} (isU8 : prefixLen < 256) :
    keptBits 32 prefixLen =
      if prefixLen ≤ 32 then prefixLen
      else if prefixLen % 32 = 0 then 32 else prefixLen % 32 := by
  simp only [keptBits]
  split_ifs <;> omega

theorem keptBits_128 {prefixLen : ℕ} (isU8 : prefixLen < 256) :
    keptBits 128 prefixLen = if prefixLen ≤ 128 then prefixLen else prefixLen - 128 := by
  simp only [keptBits]
  split_ifs <;> omega

/-- `contains` keeps the bits of the prefix, and the mask is computed without wrapping. -/
structure Exact4 (ip : Ipv4Addr) (prefixLen : ℕ) : Prop where
  contains : ∀ address, (Ipv4Cidr.new ip prefixLen).contains address = true ↔
    SharePrefix (min prefixLen 32) ip address
  fits : ShiftFits 32 prefixLen

structure Exact6 (ip : Ipv6Addr) (prefixLen : ℕ) : Prop where
  contains : ∀ address, (Ipv6Cidr.new ip prefixLen).contains address = true ↔
    SharePrefix (min prefixLen 128) ip address
  fits : ShiftFits 128 prefixLen

/-- The multiples of 32 wrap, but keep the whole address. -/
theorem contains_exact_iff (ip : Ipv4Addr) {prefixLen : ℕ} (isU8 : prefixLen < 256) :
    (∀ address, (Ipv4Cidr.new ip prefixLen).contains address = true ↔
        SharePrefix (min prefixLen 32) ip address) ↔
      prefixLen ≤ 32 ∨ 32 ∣ prefixLen := by
  simp only [contains_new]
  rw [sharePrefix_congr_iff (keptBits_le 32 prefixLen) (Nat.min_le_right _ _), keptBits_32 isU8]
  split_ifs <;> omega

theorem contains_exact6_iff (ip : Ipv6Addr) {prefixLen : ℕ} (isU8 : prefixLen < 256) :
    (∀ address, (Ipv6Cidr.new ip prefixLen).contains address = true ↔
        SharePrefix (min prefixLen 128) ip address) ↔
      prefixLen ≤ 128 := by
  simp only [contains_new6]
  rw [sharePrefix_congr_iff (keptBits_le 128 prefixLen) (Nat.min_le_right _ _),
    keptBits_128 isU8]
  split_ifs <;> omega

theorem exact4_iff (ip : Ipv4Addr) {prefixLen : ℕ} (isU8 : prefixLen < 256) :
    Exact4 ip prefixLen ↔ prefixLen ≤ 32 := by
  constructor
  · intro exact
    exact shiftFits_iff.mp exact.fits
  · intro bounded
    exact ⟨(contains_exact_iff ip isU8).mpr (.inl bounded), shiftFits_iff.mpr bounded⟩

theorem exact6_iff (ip : Ipv6Addr) {prefixLen : ℕ} (isU8 : prefixLen < 256) :
    Exact6 ip prefixLen ↔ prefixLen ≤ 128 := by
  constructor
  · intro exact
    exact shiftFits_iff.mp exact.fits
  · intro bounded
    exact ⟨(contains_exact6_iff ip isU8).mpr bounded, shiftFits_iff.mpr bounded⟩

/-! ## Rules -/

/-- The address of a CIDR text, and what is written for its prefix. -/
def writtenCidr (pattern : String) : Option (Ipv4Addr × String) :=
  (splitOnce pattern '/').bind fun parts =>
    (parseIpv4 (trim parts.1)).map fun ip => (ip, trim parts.2)

/-- The prefix which is taken for a written number. -/
def takenPrefix (number : Option ℕ) : ℕ :=
  (number.filter (· ≤ u8Max)).getD 32

variable {geo : GeoStore} {pattern text : String} {ip : Ipv4Addr} {number : Option ℕ}

theorem parseCidr_of_written (written : writtenCidr pattern = some (ip, text)) :
    parseCidr pattern = some (.new ip (takenPrefix (writtenNumber text))) := by
  rcases Option.bind_eq_some_iff.mp written with ⟨parts, split_eq, rest⟩
  rcases Option.map_eq_some_iff.mp rest with ⟨address, parsed, same⟩
  cases same
  simp only [parseCidr, split_eq, Option.elim_some, parsed, Option.map_some, takenPrefix,
    parseUnsigned_toOption]
  rfl

/-- The addresses which the condition of a rule matches. -/
theorem matches_iff (written : writtenCidr pattern = some (ip, text)) (request : Request) :
    (ConditionKind.ipCidr pattern (parseCidr pattern)).matches geo request = true ↔
      ∃ address, request.ip = some (.v4 address) ∧ isFakeIp (.v4 address) = false ∧
        SharePrefix (keptBits 32 (takenPrefix (writtenNumber text))) ip address := by
  rw [parseCidr_of_written written]
  rcases request with ⟨domain, _ | address | address, port, protocol⟩
  · simp [ConditionKind.matches]
  · simp [ConditionKind.matches, contains_new]
  · simp [ConditionKind.matches]

/--
A prefix of at most 32 selects the block, and any other text for the prefix at
most the address itself.
-/
structure RuleExact (geo : GeoStore) (pattern : String) (ip : Ipv4Addr) (number : Option ℕ) :
    Prop where
  block : ∀ prefixLen, number = some prefixLen → prefixLen ≤ 32 → ∀ request : Request,
    (ConditionKind.ipCidr pattern (parseCidr pattern)).matches geo request = true ↔
      ∃ address, request.ip = some (.v4 address) ∧ isFakeIp (.v4 address) = false ∧
        SharePrefix prefixLen ip address
  host : (∀ prefixLen, number = some prefixLen → 32 < prefixLen) → ∀ request : Request,
    (ConditionKind.ipCidr pattern (parseCidr pattern)).matches geo request = true →
      request.ip = some (.v4 ip)

/--
A prefix is harmless if it is in the range, wraps to the whole address, does not
fit a `u8`, or leaves only fake addresses to match.
-/
def Harmless (ip : Ipv4Addr) (prefixLen : ℕ) : Prop :=
  prefixLen ≤ 32 ∨ 32 ∣ prefixLen ∨ u8Max < prefixLen ∨
    isFakeIp (.v4 ip) = true ∧ 15 ≤ prefixLen % 32

theorem takenPrefix_of_le {prefixLen : ℕ} (small : prefixLen ≤ u8Max) :
    takenPrefix (some prefixLen) = prefixLen := by
  simp [takenPrefix, Option.filter, small]

theorem takenPrefix_of_large (large : ∀ prefixLen, number = some prefixLen → u8Max < prefixLen) :
    takenPrefix number = 32 := by
  cases number with
  | none => rfl
  | some n =>
      have excluded : ¬n ≤ u8Max := Nat.not_le.mpr (large n rfl)
      simp [takenPrefix, Option.filter, excluded]

theorem isFakeIp_iff {address : Ipv4Addr} :
    isFakeIp (.v4 address) = true ↔ SharePrefix 15 (0xC6120000 : Ipv4Addr) address := by
  have mask : (0xFFFE0000 : BitVec 32) = BitVec.allOnes 32 <<< 17 := by decide
  have start : (0xC6120000 : BitVec 32) = 0xC6120000 &&& BitVec.allOnes 32 <<< 17 := by decide
  rw [isFakeIp, beq_iff_eq, mask]
  nth_rewrite 1 [start]
  rw [masked_eq_iff]
  exact ⟨.symm, .symm⟩

/-- Of a block which is not inside the fake ones, another address than a given one is real. -/
theorem exists_real {count : ℕ} (small : count < 32)
    (open_block : isFakeIp (.v4 ip) = false ∨ count < 15) :
    ∃ address, address ≠ ip ∧ isFakeIp (.v4 address) = false ∧ SharePrefix count ip address := by
  have real_of {index : ℕ} (inside : index < 32) (changed : index ≤ 14)
      (fake : isFakeIp (.v4 ip) = true) : isFakeIp (.v4 (flipBit ip index)) = false := by
    rw [← Bool.not_eq_true, isFakeIp_iff]
    intro share
    exact not_sharePrefix_flipBit inside (Nat.lt_succ_of_le changed) ip
      ((isFakeIp_iff.mp fake).symm.trans share)
  cases fake : isFakeIp (.v4 ip) with
  | true =>
      have below : count < 15 := by simpa [fake] using open_block
      refine ⟨flipBit ip 14, flipBit_ne (by decide) ip, real_of (by decide) le_rfl fake, ?_⟩
      exact (sharePrefix_flipBit (by decide) ip).mono (by omega)
  | false =>
      have share : SharePrefix 31 ip (flipBit ip 31) := sharePrefix_flipBit (by decide) ip
      refine ⟨flipBit ip 31, flipBit_ne (by decide) ip, ?_, share.mono (by omega)⟩
      rw [← Bool.not_eq_true, isFakeIp_iff] at fake ⊢
      intro shares
      exact fake (shares.trans (share.symm.mono (by decide)))

/-- What is not a prefix selects the address alone, or no real address. -/
theorem keptBits_of_harmless (outside : ∀ prefixLen, number = some prefixLen → 32 < prefixLen)
    (harmless : ∀ prefixLen, number = some prefixLen → Harmless ip prefixLen) :
    keptBits 32 (takenPrefix number) = 32 ∨
      isFakeIp (.v4 ip) = true ∧ 15 ≤ keptBits 32 (takenPrefix number) := by
  by_cases large : ∀ prefixLen, number = some prefixLen → u8Max < prefixLen
  · left
    rw [takenPrefix_of_large large]
    rfl
  · push Not at large
    rcases large with ⟨n, rfl, small⟩
    have past := outside n rfl
    rw [takenPrefix_of_le small, keptBits_32 (Nat.lt_succ_of_le small), if_neg (by omega)]
    rcases harmless n rfl with bounded | wraps | tooLarge | ⟨fake, deep⟩
    · omega
    · exact .inl (if_pos (Nat.mod_eq_zero_of_dvd wraps))
    · omega
    · exact .inr ⟨fake, by rwa [if_neg (by omega)]⟩

theorem ruleExact_iff (geo : GeoStore) (written : writtenCidr pattern = some (ip, text)) :
    RuleExact geo pattern ip (writtenNumber text) ↔
      ∀ prefixLen, writtenNumber text = some prefixLen → Harmless ip prefixLen := by
  constructor
  · intro exact prefixLen number_eq
    by_contra harmful
    simp only [Harmless, not_or, not_le, not_lt, not_and] at harmful
    rcases harmful with ⟨large, unwrapped, small, real⟩
    have taken : takenPrefix (writtenNumber text) = prefixLen := by
      rw [number_eq, takenPrefix_of_le small]
    have isU8 : prefixLen < 256 := Nat.lt_succ_of_le small
    have kept : keptBits 32 prefixLen = prefixLen % 32 := by
      rw [keptBits_32 isU8, if_neg (by omega), if_neg (by omega)]
    have open_block : isFakeIp (.v4 ip) = false ∨ prefixLen % 32 < 15 := by
      cases fake : isFakeIp (.v4 ip) with
      | true => exact .inr (real fake)
      | false => exact .inl rfl
    rcases exists_real (Nat.mod_lt prefixLen (by decide)) open_block with
      ⟨address, other, not_fake, share⟩
    have matched := exact.host
      (fun n n_eq => by rw [number_eq, Option.some.injEq] at n_eq; omega)
      ⟨none, some (.v4 address), none, none⟩
      ((matches_iff written _).mpr ⟨address, rfl, not_fake, by rwa [taken, kept]⟩)
    simp only [Option.some.injEq, IpAddr.v4.injEq] at matched
    exact other matched
  · intro harmless
    constructor
    · intro prefixLen number_eq bounded request
      have small : prefixLen ≤ u8Max := le_trans bounded (by decide)
      rw [matches_iff written, number_eq, takenPrefix_of_le small,
        keptBits_32 (Nat.lt_succ_of_le small), if_pos bounded]
    · intro outside request matched
      rcases (matches_iff written request).mp matched with ⟨address, ip_eq, not_fake, share⟩
      rcases keptBits_of_harmless outside harmless with whole | ⟨fake, deep⟩
      · rw [whole] at share
        rw [ip_eq, sharePrefix_width.mp share]
      · have also_fake := isFakeIp_iff.mpr ((isFakeIp_iff.mp fake).trans (share.mono deep))
        rw [also_fake] at not_fake
        cases not_fake

/-- Rule conditions and blocks are exact up to the width of the address. -/
theorem conditions_exact_iff (geo : GeoStore) :
    (∀ pattern ip text, writtenCidr pattern = some (ip, text) →
        (RuleExact geo pattern ip (writtenNumber text) ↔
          ∀ prefixLen, writtenNumber text = some prefixLen → Harmless ip prefixLen)) ∧
      (∀ (ip : Ipv4Addr) (prefixLen : UInt8), Exact4 ip prefixLen.toNat ↔ prefixLen ≤ 32) ∧
      ∀ (ip : Ipv6Addr) (prefixLen : UInt8), Exact6 ip prefixLen.toNat ↔ prefixLen ≤ 128 :=
  ⟨fun _ _ _ written => ruleExact_iff geo written,
    fun ip prefixLen => exact4_iff ip prefixLen.toNat_lt,
    fun ip prefixLen => exact6_iff ip prefixLen.toNat_lt⟩

theorem conditions_exact_iff_block :
    RuleExact .empty "10.0.0.1/24" (ipv4 10 0 0 1) (writtenNumber "24") := by
  have number_eq : writtenNumber "24" = some 24 := by decide +kernel
  apply ((conditions_exact_iff .empty).1 "10.0.0.1/24" (ipv4 10 0 0 1) "24" (by decide +kernel)).mpr
  intro prefixLen same
  rw [number_eq, Option.some.injEq] at same
  exact .inl (by omega)

/--
A host rule with a mistyped prefix matches half of all addresses, and the blocks
of both widths do the same for such a prefix.
-/
theorem not_conditions_exact :
    writtenCidr "10.0.0.1/33" = some (ipv4 10 0 0 1, "33") ∧
      ¬RuleExact .empty "10.0.0.1/33" (ipv4 10 0 0 1) (writtenNumber "33") ∧
      ¬Exact4 (ipv4 10 0 0 1) 33 ∧ ¬Exact6 1 129 := by
  refine ⟨by decide +kernel, ?_, ?_, ?_⟩
  · intro exact
    have number_eq : writtenNumber "33" = some 33 := by decide +kernel
    have matched := exact.host
      (fun n n_eq => by rw [number_eq, Option.some.injEq] at n_eq; omega)
      ⟨none, some (.v4 (ipv4 8 8 8 8)), none, none⟩ (by decide +kernel)
    revert matched
    decide
  · intro exact
    have matched := (exact.contains (ipv4 8 8 8 8)).mp (by decide)
    exact absurd (sharePrefix_width.mp matched) (by decide)
  · intro exact
    have matched := (exact.contains 2).mp (by decide)
    exact absurd (sharePrefix_width.mp matched) (by decide)

end Mirage.Routing
