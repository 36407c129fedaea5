import Mirage.Routing.Geo

/-!
# The index of a geosite list

`GeoSiteMatcher::new` puts the full names and the suffixes of a list into two
sets.  A host is looked up in the first, and in the second with each of its
parent domains.  Values are put into the sets without their trailing dots, which
the entries themselves keep.
-/

namespace Mirage.Routing

open Mirage.Foundations

namespace SiteDomain

/-- The value of the entry is lower-case. -/
def lowered : SiteDomain → Bool
  | .keyword v | .suffix v | .exact v | .regex v _ => toAsciiLowercase v == v

/-- The entry with the trailing dots of a full name or of a suffix left out -/
def withoutDots : SiteDomain → SiteDomain
  | .exact v => .exact (trimEndMatches v '.')
  | .suffix v => .suffix (trimEndMatches v '.')
  | other => other

/-- The entry is a full name or a suffix which ends with a dot. -/
def hasTrailingDot : SiteDomain → Bool
  | .exact v | .suffix v => endsWith v "."
  | _ => false

/-- The entry as it is put into the index -/
def indexed : SiteDomain → SiteDomain
  | .exact v => .exact (normalize v)
  | .suffix v => .suffix (normalize v)
  | other => other

end SiteDomain

namespace GeoSiteMatcher

/-- One turn of the loop of `new` -/
def add (matcher : GeoSiteMatcher) : SiteDomain → GeoSiteMatcher
  | .exact v => { matcher with exactSet := matcher.exactSet.insert (normalize v) }
  | .suffix v => { matcher with suffixSet := matcher.suffixSet.insert (normalize v) }
  | other => { matcher with otherRules := matcher.otherRules ++ [other] }

def new (domains : List SiteDomain) : GeoSiteMatcher :=
  domains.foldl add ⟨[], [], []⟩

end GeoSiteMatcher

/-- What follows a dot of a domain is one of its parents, and nothing else is. -/
theorem mem_parentDomains_iff {root : String} {chars : List Char} :
    root ∈ parentDomains chars ↔ '.' :: root.toList <:+ chars := by
  induction chars with
  | nil => simp [parentDomains]
  | cons char rest ih =>
      rw [List.suffix_cons_iff, ← ih, parentDomains]
      split
      · rename_i dot
        rw [List.mem_cons, dot, List.cons.injEq, String.ext_iff, String.toList_ofList]
        simp
      · rename_i other
        have apart : '.' :: root.toList ≠ char :: rest := by
          intro same
          exact other (List.cons.inj same).1.symm
        simp [apart]

theorem underRoot_iff {d root : String} :
    underRoot d root = true ↔ d = root ∨ root ∈ parentDomains d.toList := by
  rw [underRoot, Bool.or_eq_true, beq_iff_eq, mem_parentDomains_iff, endsWith,
    List.isSuffixOf_iff_suffix]
  simp

namespace GeoSiteMatcher

/-- The walk over the parent domains tries every suffix of the set. -/
theorem matches_iff {matcher : GeoSiteMatcher} {host : String} :
    matcher.matches host = true ↔
      normalize host ∈ matcher.exactSet ∨
        (∃ root ∈ matcher.suffixSet, underRoot (normalize host) root = true) ∨
          ∃ item ∈ matcher.otherRules, item.matches host = true := by
  have walk : (normalize host ∈ matcher.suffixSet ∨
      ∃ root ∈ parentDomains (normalize host).toList, root ∈ matcher.suffixSet) ↔
        ∃ root ∈ matcher.suffixSet, underRoot (normalize host) root = true := by
    simp only [underRoot_iff]
    constructor
    · rintro (itself | ⟨root, parent, listed⟩)
      · exact ⟨normalize host, itself, .inl rfl⟩
      · exact ⟨root, listed, .inr parent⟩
    · rintro ⟨root, listed, itself | parent⟩
      · exact .inl (itself ▸ listed)
      · exact .inr ⟨root, parent, listed⟩
  simp only [GeoSiteMatcher.matches, Bool.or_eq_true, List.contains_iff_mem, List.any_eq_true]
  rw [← walk]
  simp only [or_assoc]

theorem matches_add {matcher : GeoSiteMatcher} {entry : SiteDomain} {host : String} :
    (matcher.add entry).matches host = true ↔
      matcher.matches host = true ∨ entry.indexed.matches host = true := by
  rw [matches_iff, matches_iff]
  cases entry with
  | exact v =>
      simp only [add, List.mem_insert_iff, SiteDomain.indexed, SiteDomain.matches, beq_iff_eq]
      rw [or_assoc, or_comm]
  | suffix v =>
      simp only [add, List.mem_insert_iff, SiteDomain.indexed, SiteDomain.matches, or_and_right,
        exists_or, exists_eq_left]
      rw [or_assoc, or_left_comm, or_comm]
  | keyword v | regex raw re =>
      simp only [add, List.mem_append, List.mem_singleton, or_and_right, exists_or,
        exists_eq_left, or_assoc]
      rfl

theorem matches_foldl {matcher : GeoSiteMatcher} {domains : List SiteDomain} {host : String} :
    (domains.foldl add matcher).matches host = true ↔
      matcher.matches host = true ∨ ∃ entry ∈ domains, entry.indexed.matches host = true := by
  induction domains generalizing matcher with
  | nil => simp
  | cons entry domains ih =>
      rw [List.foldl_cons, ih, matches_add, List.exists_mem_cons_iff, or_assoc]

theorem matches_new {domains : List SiteDomain} {host : String} :
    (new domains).matches host = true ↔ ∃ entry ∈ domains, entry.indexed.matches host = true := by
  have empty : (⟨[], [], []⟩ : GeoSiteMatcher).matches host = false := by
    rw [← Bool.not_eq_true, matches_iff]
    simp
  rw [new, matches_foldl, empty]
  simp

end GeoSiteMatcher

namespace SiteDomain

theorem normalize_of_lowered {v : String} (lowered : toAsciiLowercase v = v) :
    normalize v = trimEndMatches v '.' := by
  have chars : v.toList.map Char.toLower = v.toList.map id := by
    rw [List.map_id]
    simpa [toAsciiLowercase] using congrArg String.toList lowered
  have kept : (v.toList.rdropWhile (· == '.')).map Char.toLower =
      (v.toList.rdropWhile (· == '.')).map id := by
    rw [List.map_inj_left] at chars ⊢
    intro char member
    exact chars char ((List.rdropWhile_prefix _ _).subset member)
  rw [normalize, toAsciiLowercase, trimEndMatches, String.toList_ofList, kept, List.map_id]

theorem indexed_of_lowered {entry : SiteDomain} (lowered : entry.lowered = true) :
    entry.indexed = entry.withoutDots := by
  cases entry with
  | keyword v => rfl
  | regex raw re => rfl
  | suffix v => exact congrArg SiteDomain.suffix (normalize_of_lowered (beq_iff_eq.mp lowered))
  | exact v => exact congrArg SiteDomain.exact (normalize_of_lowered (beq_iff_eq.mp lowered))

theorem withoutDots_eq {entry : SiteDomain} (undotted : entry.hasTrailingDot = false) :
    entry.withoutDots = entry := by
  cases entry with
  | keyword v => rfl
  | regex raw re => rfl
  | suffix v => exact congrArg SiteDomain.suffix ((trimEndMatches_eq_iff v '.').mpr undotted)
  | exact v => exact congrArg SiteDomain.exact ((trimEndMatches_eq_iff v '.').mpr undotted)

end SiteDomain

/--
The index matches as the entries do, without the trailing dots of full names and
suffixes.
-/
theorem GeoSiteMatcher.indexed_matches_iff {domains : List SiteDomain}
    (lowered : ∀ entry ∈ domains, entry.lowered = true) (host : String) :
    ((new domains).matches host = true ↔
        ∃ entry ∈ domains, entry.withoutDots.matches host = true) ∧
      ((∀ entry ∈ domains, entry.hasTrailingDot = false) →
        ((new domains).matches host = true ↔ ∃ entry ∈ domains, entry.matches host = true)) := by
  have dropped : (new domains).matches host = true ↔
      ∃ entry ∈ domains, entry.withoutDots.matches host = true := by
    rw [matches_new]
    apply exists_congr
    intro entry
    apply and_congr_right
    intro member
    rw [SiteDomain.indexed_of_lowered (lowered entry member)]
  refine ⟨dropped, ?_⟩
  intro undotted
  rw [dropped]
  apply exists_congr
  intro entry
  apply and_congr_right
  intro member
  rw [SiteDomain.withoutDots_eq (undotted entry member)]

/-- A full name, a suffix and a keyword -/
def shopDomains : List SiteDomain :=
  [.exact "shop.example", .suffix "google.com", .keyword "cdn"]

theorem GeoSiteMatcher.indexed_matches_iff_shopDomains :
    (new shopDomains).matches "www.google.com" = true ↔
      ∃ entry ∈ shopDomains, entry.matches "www.google.com" = true :=
  (indexed_matches_iff (by decide) "www.google.com").2 (by decide)

/-- The full name `a.` is looked up as `a`, which the entry itself does not match. -/
theorem GeoSiteMatcher.not_indexed_matches_dotted :
    SiteDomain.lowered (.exact "a.") = true ∧ toAsciiLowercase "a" = "a" ∧
      (new [.exact "a."]).matches "a" = true ∧ (SiteDomain.exact "a.").matches "a" = false := by
  decide

end Mirage.Routing
