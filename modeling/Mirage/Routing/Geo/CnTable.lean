import Mirage.Foundations.Ranges
import Mirage.Routing.Geo

/-!
# The table of Chinese blocks

`is_cn_ip` turns the blocks of its table into ranges, sorts and merges them, and
searches the merged ranges.  The sort is not stable, so any order of the ranges
which is sorted by their starts may come of it.
-/

namespace Mirage.Routing

open Mirage.Foundations

/-- The network numbers are equal. -/
def blockContains (block : BitVec 32 × ℕ) (ip : Ipv4Addr) : Bool :=
  ip &&& maskOf block.2 == block.1 &&& maskOf block.2

/-- `s <= last.1.saturating_add(1)`, for the end of the last range. -/
def goesOn (last start : ℕ) : Bool :=
  start ≤ min (last + 1) u32Max

namespace GeoStore

/-- The merged ranges, in order. -/
def mergeRanges (ranges : List (ℕ × ℕ)) : List (ℕ × ℕ) :=
  (ranges.foldl mergeRange []).reverse

/-- The search in the merged ranges. -/
def searchRanges (merged : List (ℕ × ℕ)) (target : ℕ) : Bool :=
  (binarySearchBy (compareRange target) merged).isSome

theorem mergeRange_eq : mergeRange = mergeInto goesOn := by
  funext merged range
  cases merged with
  | nil => rfl
  | cons last rest => simp only [mergeRange, mergeInto, goesOn, decide_eq_true_eq]

theorem goesOn_tight (last start : ℕ) (goes_on : goesOn last start = true) :
    ∀ point, last < point → start ≤ point := by
  intro point past
  simp only [goesOn, decide_eq_true_eq] at goes_on
  omega

theorem cnRange_fst (block : BitVec 32 × ℕ) :
    (cnRange block).1 = 2 ^ (32 - block.2) * (block.1.toNat / 2 ^ (32 - block.2)) :=
  and_maskOf_toNat block.1 block.2

theorem cnRange_snd (block : BitVec 32 × ℕ) :
    (cnRange block).2 = (cnRange block).1 + (2 ^ (32 - block.2) - 1) := by
  have last_lt : 2 ^ (32 - block.2) - 1 < 2 ^ (32 - block.2) :=
    Nat.sub_lt (Nat.two_pow_pos _) Nat.one_pos
  rw [cnRange_fst, Nat.two_pow_add_eq_or_of_lt last_lt, ← not_maskOf_toNat, ← and_maskOf_toNat,
    ← BitVec.toNat_or]
  rfl

theorem cnRange_mergeable (block : BitVec 32 × ℕ) : Mergeable goesOn (cnRange block) := by
  constructor
  · rw [cnRange_snd]
    exact Nat.le_add_right _ _
  · intro start before
    have inside : (cnRange block).2 < 2 ^ 32 := BitVec.isLt _
    rw [goesOn, decide_eq_true_eq, u32Max]
    omega

/-- A block contains the addresses of its range. -/
theorem blockContains_iff (block : BitVec 32 × ℕ) (ip : Ipv4Addr) :
    blockContains block ip = true ↔
      (cnRange block).1 ≤ ip.toNat ∧ ip.toNat ≤ (cnRange block).2 := by
  have size_pos : 0 < 2 ^ (32 - block.2) := Nat.two_pow_pos _
  rw [blockContains, beq_iff_eq, and_maskOf_eq_iff, and_maskOf_toNat, cnRange_snd, cnRange_fst]
  generalize 2 ^ (32 - block.2) = size at size_pos
  constructor
  · intro host
    have rest := Nat.mod_lt ip.toNat size_pos
    omega
  · rintro ⟨after, before⟩
    have same : ip.toNat / size = block.1.toNat / size := by
      rw [Nat.div_eq_iff size_pos]
      constructor
      · rw [Nat.mul_comm]
        exact after
      · rw [Nat.mul_comm]
        omega
    have parts := Nat.div_add_mod ip.toNat size
    rwa [same] at parts

theorem mergeable_of_perm {table : List (BitVec 32 × ℕ)} {ranges : List (ℕ × ℕ)}
    (perm : ranges.Perm (table.map cnRange)) : ∀ range ∈ ranges, Mergeable goesOn range := by
  intro range member
  rcases List.mem_map.mp (perm.mem_iff.mp member) with ⟨block, _, rfl⟩
  exact cnRange_mergeable block

theorem covered_blocks {table : List (BitVec 32 × ℕ)} {ip : Ipv4Addr} :
    Covered (table.map cnRange) ip.toNat ↔ ∃ block ∈ table, blockContains block ip = true := by
  simp only [Covered, List.mem_map, exists_exists_and_eq_and, blockContains_iff]

/-- An address is found exactly when a block of the table contains it. -/
theorem searchRanges_iff (table : List (BitVec 32 × ℕ)) {ranges : List (ℕ × ℕ)}
    (perm : ranges.Perm (table.map cnRange))
    (sorted : ranges.Pairwise fun first second => first.1 ≤ second.1) (ip : Ipv4Addr) :
    searchRanges (mergeRanges ranges) ip.toNat = true ↔
      ∃ block ∈ table, blockContains block ip = true := by
  have mergeable := mergeable_of_perm perm
  rw [searchRanges, mergeRanges, mergeRange_eq, search_merged goesOn_tight mergeable sorted,
    covered_perm perm, covered_blocks]

/-- Three blocks, two of them nested and one at the end of the addresses. -/
def nestedBlocks : List (BitVec 32 × ℕ) :=
  [(ipv4 1 0 4 0, 24), (ipv4 255 255 255 0, 24), (ipv4 1 0 0 0, 16)]

theorem searchRanges_iff_nestedBlocks :
    searchRanges (mergeRanges [cnRange (ipv4 1 0 0 0, 16), cnRange (ipv4 1 0 4 0, 24),
        cnRange (ipv4 255 255 255 0, 24)]) (ipv4 255 255 255 255).toNat = true ↔
      ∃ block ∈ nestedBlocks, blockContains block (ipv4 255 255 255 255) = true := by
  apply searchRanges_iff nestedBlocks
  · decide
  · decide

/-- What `is_cn_ip` answers for an IPv4 address. -/
theorem isCnIp_v4_iff (geo : GeoStore) (ip : Ipv4Addr) :
    geo.isCnIp (.v4 ip) = true ↔
      isFakeIp (.v4 ip) = false ∧
        (geo.matchGeoip "CN" (.v4 ip) = true ∨
          ∃ block ∈ geo.cnIpv4, blockContains block ip = true) := by
  have perm := List.mergeSort_perm (geo.cnIpv4.map cnRange) fun first second =>
    first.1 ≤ second.1
  have sorted := @List.pairwise_mergeSort _ (fun first second : ℕ × ℕ =>
      decide (first.1 ≤ second.1)) (fun first second third => by simpa using Nat.le_trans)
    (fun first second => by simpa using Nat.le_total first.1 second.1) (geo.cnIpv4.map cnRange)
  simp only [decide_eq_true_eq] at sorted
  have covered : Covered geo.cnRanges ip.toNat ↔
      ∃ block ∈ geo.cnIpv4, blockContains block ip = true := by
    rw [cnRanges, mergeRange_eq, covered_merged goesOn_tight (mergeable_of_perm perm) sorted,
      covered_perm perm, covered_blocks]
  rw [← covered, Covered, isCnIp]
  split
  · rename_i fake
    simp [fake]
  · rename_i real
    split
    · rename_i listed
      simp [real, listed]
    · rename_i unlisted
      simp [real, unlisted]

end GeoStore

end Mirage.Routing
