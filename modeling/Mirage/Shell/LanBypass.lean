import Mirage.Routing.Geo.CnTable

/-!
# Routes around the local network

With the local network bypassed, the interface gets a list of prefixes instead of
`0.0.0.0/0`: the address space without the blocks which the list's own
documentation names.  Both lists are merged into ranges, of which there are few
enough to be compared.
-/

namespace Mirage.Shell

open Mirage.Foundations Mirage.Routing Mirage.Routing.GeoStore

namespace LanBypass

def nonLanIpv4Routes : List (String × ℕ) :=
  [("1.0.0.0", 8),
    ("2.0.0.0", 7),
    ("4.0.0.0", 6),
    ("8.0.0.0", 7),
    ("11.0.0.0", 8),
    ("12.0.0.0", 6),
    ("16.0.0.0", 4),
    ("32.0.0.0", 3),
    ("64.0.0.0", 3),
    ("72.0.0.0", 5),
    ("76.0.0.0", 6),
    ("78.0.0.0", 7),
    ("80.0.0.0", 4),
    ("96.0.0.0", 6),
    ("100.0.0.0", 10),
    ("100.128.0.0", 9),
    ("101.0.0.0", 8),
    ("102.0.0.0", 7),
    ("104.0.0.0", 5),
    ("112.0.0.0", 5),
    ("120.0.0.0", 6),
    ("124.0.0.0", 7),
    ("126.0.0.0", 8),
    ("128.0.0.0", 3),
    ("160.0.0.0", 5),
    ("168.0.0.0", 6),
    ("172.0.0.0", 12),
    ("172.32.0.0", 11),
    ("172.64.0.0", 10),
    ("172.128.0.0", 9),
    ("173.0.0.0", 8),
    ("174.0.0.0", 7),
    ("176.0.0.0", 4),
    ("192.0.0.0", 9),
    ("192.128.0.0", 11),
    ("192.160.0.0", 13),
    ("192.169.0.0", 16),
    ("192.170.0.0", 15),
    ("192.172.0.0", 14),
    ("192.176.0.0", 12),
    ("192.188.0.0", 14),
    ("192.192.0.0", 10),
    ("193.0.0.0", 8),
    ("194.0.0.0", 7),
    ("196.0.0.0", 6),
    ("200.0.0.0", 5),
    ("208.0.0.0", 4)]

/-- What the documentation of the list says it leaves out -/
def documentedExclusions : List (String × ℕ) :=
  [("0.0.0.0", 8), ("10.0.0.0", 8), ("100.64.0.0", 10), ("127.0.0.0", 8), ("169.254.0.0", 16),
    ("172.16.0.0", 12), ("192.168.0.0", 16), ("224.0.0.0", 4), ("240.0.0.0", 4)]

/-- The IPv4 routes which the builder of the interface is given -/
def installedRoutes (bypassLan : Bool) : List (String × ℕ) :=
  (if bypassLan then nonLanIpv4Routes else [("0.0.0.0", 0)]) ++ [("198.18.0.0", 15)]

def blocks (routes : List (String × ℕ)) : List (BitVec 32 × ℕ) :=
  routes.filterMap fun (net, prefixLen) => (parseIpv4 net).map fun address => (address, prefixLen)

/-- Some prefix of the list covers the address. -/
def Covers (routes : List (String × ℕ)) (address : Ipv4Addr) : Prop :=
  ∃ block ∈ blocks routes, blockContains block address = true

instance (routes : List (String × ℕ)) (address : Ipv4Addr) : Decidable (Covers routes address) :=
  inferInstanceAs (Decidable (∃ _ ∈ _, _))

/-- The text of the network is an address, and this one has no host bits. -/
def Masked (route : String × ℕ) : Prop :=
  ∃ network, parseIpv4 route.1 = some network ∧ network &&& maskOf route.2 = network

instance (route : String × ℕ) : Decidable (Masked route) :=
  decidable_of_iff ((parseIpv4 route.1).any fun network => network &&& maskOf route.2 = network)
    (by rw [Option.any_eq_true]; simp only [decide_eq_true_eq, Masked])

def linkLocal : List (String × ℕ) :=
  [("169.254.0.0", 16)]

/-- The ranges of a list, in the order in which it has them -/
def ranges (routes : List (String × ℕ)) : List (ℕ × ℕ) :=
  (blocks routes).map cnRange

/-- A list in order, with the ranges which it merges into -/
def Merges (routes : List (String × ℕ)) (merged : List (ℕ × ℕ)) : Prop :=
  ((ranges routes).Pairwise fun first second => first.1 ≤ second.1) ∧
    mergeRanges (ranges routes) = merged

instance (routes : List (String × ℕ)) (merged : List (ℕ × ℕ)) :
    Decidable (Merges routes merged) :=
  inferInstanceAs (Decidable (_ ∧ _))

/-- What the lists are, checked in one go -/
theorem lists_checked :
    (∀ route ∈ nonLanIpv4Routes ++ installedRoutes false, Masked route) ∧
      Merges nonLanIpv4Routes
        [(1 * 2 ^ 24, 10 * 2 ^ 24 - 1),
          (11 * 2 ^ 24, 100 * 2 ^ 24 + 64 * 2 ^ 16 - 1),
          (100 * 2 ^ 24 + 128 * 2 ^ 16, 127 * 2 ^ 24 - 1),
          (128 * 2 ^ 24, 172 * 2 ^ 24 + 16 * 2 ^ 16 - 1),
          (172 * 2 ^ 24 + 32 * 2 ^ 16, 192 * 2 ^ 24 + 168 * 2 ^ 16 - 1),
          (192 * 2 ^ 24 + 169 * 2 ^ 16, 224 * 2 ^ 24 - 1)] ∧
      Merges documentedExclusions
        [(0, 1 * 2 ^ 24 - 1),
          (10 * 2 ^ 24, 11 * 2 ^ 24 - 1),
          (100 * 2 ^ 24 + 64 * 2 ^ 16, 100 * 2 ^ 24 + 128 * 2 ^ 16 - 1),
          (127 * 2 ^ 24, 128 * 2 ^ 24 - 1),
          (169 * 2 ^ 24 + 254 * 2 ^ 16, 169 * 2 ^ 24 + 255 * 2 ^ 16 - 1),
          (172 * 2 ^ 24 + 16 * 2 ^ 16, 172 * 2 ^ 24 + 32 * 2 ^ 16 - 1),
          (192 * 2 ^ 24 + 168 * 2 ^ 16, 192 * 2 ^ 24 + 169 * 2 ^ 16 - 1),
          (224 * 2 ^ 24, 2 ^ 32 - 1)] ∧
      Merges linkLocal [(169 * 2 ^ 24 + 254 * 2 ^ 16, 169 * 2 ^ 24 + 255 * 2 ^ 16 - 1)] ∧
      Merges [("198.18.0.0", 15)]
        [(198 * 2 ^ 24 + 18 * 2 ^ 16, 198 * 2 ^ 24 + 20 * 2 ^ 16 - 1)] ∧
      Merges [("0.0.0.0", 0)] [(0, 2 ^ 32 - 1)] := by
  decide +kernel

theorem masked_nonLanIpv4Routes : ∀ route ∈ nonLanIpv4Routes, Masked route :=
  (List.forall_mem_append.mp lists_checked.1).1

theorem masked_installedRoutes (bypassLan : Bool) :
    ∀ route ∈ installedRoutes bypassLan, Masked route := by
  have unbypassed := (List.forall_mem_append.mp lists_checked.1).2
  cases bypassLan with
  | false => exact unbypassed
  | true =>
      rw [installedRoutes, if_pos rfl, List.forall_mem_append]
      exact ⟨masked_nonLanIpv4Routes, (List.forall_mem_append.mp unbypassed).2⟩

theorem covers_append {first second : List (String × ℕ)} {address : Ipv4Addr} :
    Covers (first ++ second) address ↔ Covers first address ∨ Covers second address := by
  simp only [Covers, blocks, List.filterMap_append, List.mem_append, or_and_right, exists_or]

theorem Merges.covers_iff {routes : List (String × ℕ)} {merged : List (ℕ × ℕ)}
    (merges : Merges routes merged) (address : Ipv4Addr) :
    Covers routes address ↔ Covered merged address.toNat := by
  obtain ⟨sorted, rfl⟩ := merges
  rw [ranges] at sorted ⊢
  rw [mergeRanges, mergeRange_eq,
    covered_merged goesOn_tight (mergeable_of_perm (List.Perm.refl _)) sorted, covered_blocks,
    Covers]

theorem covers_linkLocal (address : Ipv4Addr) : Covers linkLocal address ↔
    169 * 2 ^ 24 + 254 * 2 ^ 16 ≤ address.toNat ∧
      address.toNat ≤ 169 * 2 ^ 24 + 255 * 2 ^ 16 - 1 := by
  obtain ⟨-, -, -, merges, -⟩ := lists_checked
  rw [merges.covers_iff, covered_cons, or_iff_left (covered_nil _)]

theorem covers_fakeIps (address : Ipv4Addr) : Covers [("198.18.0.0", 15)] address ↔
    198 * 2 ^ 24 + 18 * 2 ^ 16 ≤ address.toNat ∧
      address.toNat ≤ 198 * 2 ^ 24 + 20 * 2 ^ 16 - 1 := by
  obtain ⟨-, -, -, -, merges, -⟩ := lists_checked
  rw [merges.covers_iff, covered_cons, or_iff_left (covered_nil _)]

theorem covers_all (address : Ipv4Addr) : Covers [("0.0.0.0", 0)] address := by
  obtain ⟨-, -, -, -, -, merges⟩ := lists_checked
  have bound := address.isLt
  rw [merges.covers_iff, covered_cons]
  omega

/-- The link-local addresses are in `168.0.0.0/6`; no other excluded address is covered. -/
theorem covers_nonLanIpv4Routes (address : Ipv4Addr) :
    Covers nonLanIpv4Routes address ↔
      ¬Covers documentedExclusions address ∨ Covers linkLocal address := by
  obtain ⟨-, routes_merge, exclusions_merge, -⟩ := lists_checked
  have bound := address.isLt
  rw [covers_linkLocal, routes_merge.covers_iff, exclusions_merge.covers_iff]
  simp only [covered_cons, or_iff_left (covered_nil _)]
  omega

theorem covers_documentedExclusions_of_linkLocal {address : Ipv4Addr}
    (here : Covers linkLocal address) : Covers documentedExclusions address := by
  obtain ⟨-, -, exclusions_merge, -⟩ := lists_checked
  rw [covers_linkLocal] at here
  rw [exclusions_merge.covers_iff]
  simp only [covered_cons, or_iff_left (covered_nil _)]
  omega

/-- The routes are the complement of the exclusions, but for the link-local addresses. -/
theorem exact_complement_iff (address : Ipv4Addr) :
    (∀ route ∈ nonLanIpv4Routes, Masked route) ∧
      ((Covers nonLanIpv4Routes address ↔ ¬Covers documentedExclusions address) ↔
        ¬Covers linkLocal address) := by
  refine ⟨masked_nonLanIpv4Routes, ?_⟩
  rw [covers_nonLanIpv4Routes]
  constructor
  · intro complement here
    exact complement.mp (.inr here) (covers_documentedExclusions_of_linkLocal here)
  · exact fun elsewhere => or_iff_left elsewhere

/-- The routes capture the link-local address `169.254.0.1`, which they are to leave out. -/
theorem not_exact_complement :
    Covers nonLanIpv4Routes (ipv4 169 254 0 1) ∧
      Covers documentedExclusions (ipv4 169 254 0 1) ∧
      ¬∀ address, Covers nonLanIpv4Routes address ↔ ¬Covers documentedExclusions address := by
  have captured : Covers nonLanIpv4Routes (ipv4 169 254 0 1) := by decide +kernel
  have excluded : Covers documentedExclusions (ipv4 169 254 0 1) := by decide +kernel
  exact ⟨captured, excluded, fun complement => (complement _).mp captured excluded⟩

/-- What the installed routes take into the interface -/
theorem covers_installedRoutes (bypassLan : Bool) (address : Ipv4Addr) :
    Covers (installedRoutes bypassLan) address ↔
      (bypassLan = true → ¬Covers documentedExclusions address ∨ Covers linkLocal address) := by
  rw [installedRoutes, covers_append]
  cases bypassLan with
  | false => exact iff_of_true (.inl (covers_all address)) nofun
  | true =>
      rw [if_pos rfl, ← covers_nonLanIpv4Routes, imp_iff_right rfl, or_iff_left_iff_imp]
      -- `198.18.0.0/15` is a part of `196.0.0.0/6`
      obtain ⟨-, routes_merge, -⟩ := lists_checked
      rw [covers_fakeIps, routes_merge.covers_iff]
      simp only [covered_cons, or_iff_left (covered_nil _)]
      omega

/-- The fake addresses always come to the interface. -/
theorem covers_of_isFakeIp (bypassLan : Bool) {address : Ipv4Addr}
    (fake : isFakeIp (.v4 address) = true) : Covers (installedRoutes bypassLan) address := by
  rw [installedRoutes, covers_append]
  refine .inr ⟨(0xC6120000, 15), by decide, ?_⟩
  have mask : maskOf 15 = 0xFFFE0000 := by decide
  have start : (0xC6120000 : BitVec 32) &&& 0xFFFE0000 = 0xC6120000 := by decide
  rw [blockContains, mask, start]
  exact fake

end LanBypass

end Mirage.Shell
