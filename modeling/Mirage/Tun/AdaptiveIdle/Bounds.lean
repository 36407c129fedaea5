import Mathlib.Data.Finset.Card
import Mirage.Tun.AdaptiveIdle

/-!
# The bounds of the profiles

The timeout of every profile stays in the range of its category, and one that a
static rule has set does not change.  A store that starts empty holds no more
than its capacity as long as no file is loaded that does not fit in with it.
-/

namespace Mirage.Tun

open Mirage.Foundations

namespace DomainProfile

variable {profile : DomainProfile} {domain : String} {metrics : ConnMetrics} {now : ℕ}

/-- The timeout is in the range of the category. -/
def InRange (profile : DomainProfile) : Prop :=
  match profile.category with
  | .interactive | .mediaCdn | .pushIm =>
      profile.assignedIdleSecs = profile.category.defaultIdleSecs
  | .generalApi => 20 ≤ profile.assignedIdleSecs ∧ profile.assignedIdleSecs ≤ 120

/-- A static rule decides the profile of its domains, and of no others. -/
structure Sound (domain : String) (profile : DomainProfile) : Prop where
  inRange : profile.InRange
  static_iff : profile.isStaticRule = true ↔ initialCategory domain ≠ .generalApi
  locked : profile.isStaticRule = true →
    profile.category = initialCategory domain ∧
      profile.assignedIdleSecs = (initialCategory domain).defaultIdleSecs

namespace Sound

theorem of_initial (category : TrafficCategory) (isStatic : Bool) (now : ℕ)
    (same : category = initialCategory domain)
    (static : isStatic = true ↔ initialCategory domain ≠ .generalApi) :
    (DomainProfile.initial domain category isStatic now).Sound domain where
  inRange := by
    rw [InRange, DomainProfile.initial]
    cases category with
    | interactive | mediaCdn | pushIm => rfl
    | generalApi =>
        change 20 ≤ 30 ∧ 30 ≤ 120
        decide
  static_iff := static
  locked _ := ⟨same, congrArg TrafficCategory.defaultIdleSecs same⟩

theorem initial (now : ℕ) :
    (DomainProfile.initial domain (initialCategory domain)
      (initialCategory domain ≠ .generalApi) now).Sound domain := by
  apply of_initial
  · rfl
  · exact decide_eq_true_iff

/-- Fields which do not bear on the timeout may change. -/
theorem congr {other : DomainProfile} (sound : profile.Sound domain)
    (category : other.category = profile.category)
    (assigned : other.assignedIdleSecs = profile.assignedIdleSecs)
    (static : other.isStaticRule = profile.isStaticRule) : other.Sound domain := by
  rcases sound with ⟨inRange, static_iff, locked⟩
  refine ⟨?_, ?_, ?_⟩
  · rw [InRange] at *
    rw [category, assigned]
    exact inRange
  · rw [static]
    exact static_iff
  · rw [static, category, assigned]
    exact locked

theorem closed (sound : profile.Sound domain) (now : ℕ) (reason : CloseReason) :
    ({ profile with lastClosedSecs := now, lastCloseReason := reason } :
      DomainProfile).Sound domain :=
  sound.congr rfl rfl rfl

theorem mod_of_small {secs : ℕ} (small : secs ≤ 1800) : secs % (u64Max + 1) = secs :=
  Nat.mod_eq_of_lt (by rw [u64Max]; omega)

theorem found (sound : profile.Sound domain) (now : ℕ) : (profile.found now).Sound domain := by
  rw [DomainProfile.found]
  split
  · rename_i churns
    rcases churns with ⟨dynamic, general, _⟩
    rcases sound with ⟨inRange, static_iff, _⟩
    refine ⟨?_, static_iff, ?_⟩
    · have general : profile.category = .generalApi := general
      simp only [InRange, general] at *
      have small : profile.assignedIdleSecs * 15 ≤ 1800 := by omega
      rw [mod_of_small small]
      omega
    · intro static
      rw [show profile.isStaticRule = false from dynamic] at static
      cases static
  · exact sound.congr rfl rfl rfl

theorem sampled (sound : profile.Sound domain) (metrics : ConnMetrics) (now : ℕ) :
    (profile.sampled metrics now).Sound domain :=
  sound.congr rfl rfl rfl

theorem decayed (sound : profile.Sound domain) (metrics : ConnMetrics) :
    (profile.decayed metrics).Sound domain := by
  rw [DomainProfile.decayed]
  split
  · rename_i decays
    rcases decays with ⟨dynamic, general, _⟩
    rcases sound with ⟨inRange, static_iff, _⟩
    refine ⟨?_, static_iff, ?_⟩
    · simp only [InRange, general] at *
      have small : profile.assignedIdleSecs * 8 ≤ 1800 := by omega
      rw [mod_of_small small]
      omega
    · intro static
      rw [show profile.isStaticRule = false from dynamic] at static
      cases static
  · exact sound

theorem moved (sound : profile.Sound domain) (dynamic : profile.isStaticRule = false)
    {category : TrafficCategory} (learned : category ≠ .generalApi) :
    (profile.moved category category.defaultIdleSecs).Sound domain where
  inRange := by
    rw [InRange, DomainProfile.moved]
    cases category with
    | interactive | mediaCdn | pushIm => rfl
    | generalApi => exact absurd rfl learned
  static_iff := sound.static_iff
  locked static := by
    rw [show profile.isStaticRule = true from static] at dynamic
    cases dynamic

theorem evolved (sound : profile.Sound domain) (metrics : ConnMetrics) :
    (profile.evolved metrics).Sound domain := by
  rw [DomainProfile.evolved]
  split
  · rename_i learns
    dsimp only
    split
    · have media : TrafficCategory.mediaCdn ≠ .generalApi := by decide
      exact sound.moved learns.1 media
    · split
      · have push : TrafficCategory.pushIm ≠ .generalApi := by decide
        exact sound.moved learns.1 push
      · exact sound
  · exact sound

end Sound

end DomainProfile

namespace Profiles

variable {lower : String → String} {profiles : Profiles} {oldest : Oldest} {domain : String}

section Cases

theorem domain_of_evicted {victim : String}
    (evicted : profiles.evicted oldest domain = some victim) :
    victim ∈ profiles ∧ domain ∉ profiles := by
  rw [Profiles.evicted] at evicted
  split at evicted
  · rename_i full
    rcases oldest.least profiles victim evicted with ⟨profile, there, _⟩
    refine ⟨AList.lookup_isSome.mp ?_, full.2⟩
    rw [there]
    rfl
  · cases evicted

/-- What is dropped is in the store, and what takes its place is not. -/
theorem evicted_ne (oldest : Oldest) (profiles : Profiles) (domain : String) :
    profiles.evicted oldest domain ≠ some domain := by
  intro evicted
  have parts := domain_of_evicted evicted
  exact parts.2 parts.1

theorem makeRoom_of_mem (there : domain ∈ profiles) :
    profiles.makeRoom oldest domain = profiles := by
  rw [makeRoom, evicted, if_neg fun full => full.2 there]

theorem lookup_of_makeRoom {other : String} {profile : DomainProfile}
    (there : (profiles.makeRoom oldest domain).lookup other = some profile) :
    profiles.lookup other = some profile := by
  rw [makeRoom] at there
  split at there
  · rename_i victim _
    by_cases same : other = victim
    · subst same
      rw [AList.lookup_erase] at there
      cases there
    · rw [AList.lookup_erase_ne same] at there
      exact there
  · exact there

/-- What is inserted: the profile found, a new static one, or one which a sample is added to. -/
inductive Inserted (profiles : Profiles) (domain : String) : DomainProfile → Prop where
  | found {profile : DomainProfile} (there : profiles.lookup domain = some profile) (now : ℕ) :
      Inserted profiles domain (profile.found now)
  | initial (static : initialCategory domain ≠ .generalApi) (now : ℕ) :
      Inserted profiles domain (.initial domain (initialCategory domain)
        (initialCategory domain ≠ .generalApi) now)
  | updated {profile : DomainProfile} (there : profiles.lookup domain = some profile)
      (metrics : ConnMetrics) (now : ℕ) :
      Inserted profiles domain (((profile.sampled metrics now).decayed metrics).evolved metrics)
  | first (metrics : ConnMetrics) (now : ℕ) :
      Inserted profiles domain
        ((({ DomainProfile.initial domain (initialCategory domain)
            (initialCategory domain ≠ .generalApi) now with
          lastClosedSecs := now
          lastCloseReason := metrics.closeReason } : DomainProfile).sampled metrics now
            |>.decayed metrics).evolved metrics)

/-- An observation changes nothing, or it makes room for a profile and inserts it. -/
def Changes (profiles after : Profiles) : Prop :=
  after = profiles ∨ ∃ oldest domain profile, Inserted profiles domain profile ∧
    after = AList.insert domain profile (profiles.makeRoom oldest domain)

theorem changes_classifyConnection (oldest : Oldest) (profiles : Profiles) (flow : Flow)
    (now inserting : ℕ) :
    Changes profiles (profiles.classifyConnection lower oldest flow now inserting).2 := by
  rw [classifyConnection]
  split
  · exact Or.inl rfl
  · split
    · exact Or.inl rfl
    · rename_i name _
      dsimp only
      split
      · rename_i profile there
        have member : lower name ∈ profiles := AList.lookup_isSome.mp (by rw [there]; rfl)
        refine Or.inr ⟨oldest, lower name, _, .found there now, ?_⟩
        rw [makeRoom_of_mem member]
      · rename_i absent
        dsimp only
        split
        · exact Or.inl rfl
        · rename_i static
          refine Or.inr ⟨oldest, lower name, _, .initial static inserting, ?_⟩
          have still_absent : lower name ∉ profiles.makeRoom oldest (lower name) := by
            intro there
            rcases Option.isSome_iff_exists.mp (AList.lookup_isSome.mpr there) with ⟨_, found⟩
            rw [lookup_of_makeRoom found] at absent
            cases absent
          rw [recordInitialProfile, if_neg still_absent, decide_eq_true static]

/-- Computing a timeout leaves what classifying the flow leaves. -/
theorem computeAdaptiveTimeout_snd (oldest : Oldest) (profiles : Profiles) (flow : Flow)
    (isActiveTransfer : Bool) (now inserting : ℕ) :
    (profiles.computeAdaptiveTimeout lower oldest flow isActiveTransfer now inserting).2 =
      (profiles.classifyConnection lower oldest flow now inserting).2 := by
  rw [computeAdaptiveTimeout]
  split
  · rename_i application
    rw [classifyConnection, Flow.fixedCategory, if_pos application]
  · rename_i application
    split
    · rename_i interactive
      rw [classifyConnection, Flow.fixedCategory, if_neg application, if_pos interactive]
    · dsimp only
      split
      · rfl
      · split
        · rfl
        · split <;> rfl

theorem changes_recordConnMetrics (oldest : Oldest) (profiles : Profiles) (metrics : ConnMetrics)
    (now : ℕ) : Changes profiles (profiles.recordConnMetrics lower oldest metrics now) := by
  rw [recordConnMetrics]
  split
  · exact Or.inl rfl
  · split
    · exact Or.inl rfl
    · rename_i name _ _
      refine Or.inr ⟨oldest, lower name, _, ?_, rfl⟩
      cases found : (profiles.makeRoom oldest (lower name)).lookup (lower name) with
      | some profile => exact .updated (lookup_of_makeRoom found) metrics now
      | none => exact .first metrics now

theorem changes_observe (profiles : Profiles) (observation : Observation) :
    Changes profiles (profiles.observe lower observation) := by
  cases observation with
  | classify flow now inserting oldest =>
      exact changes_classifyConnection oldest profiles flow now inserting
  | compute flow isActiveTransfer now inserting oldest =>
      rw [observe, computeAdaptiveTimeout_snd]
      exact changes_classifyConnection oldest profiles flow now inserting
  | record metrics now oldest => exact changes_recordConnMetrics oldest profiles metrics now

end Cases

section Ranges

def AllSound (profiles : Profiles) : Prop :=
  ∀ domain profile, profiles.lookup domain = some profile → profile.Sound domain

theorem AllSound.inserted (all : profiles.AllSound) {profile : DomainProfile}
    (inserted : Inserted profiles domain profile) : profile.Sound domain := by
  cases inserted with
  | found there now => exact (all _ _ there).found now
  | initial static now => exact .initial now
  | updated there metrics now =>
      exact (((all _ _ there).sampled metrics now).decayed metrics).evolved metrics
  | first metrics now =>
      have initial := @DomainProfile.Sound.initial domain now
      have fresh := initial.closed now metrics.closeReason
      exact ((fresh.sampled metrics now).decayed metrics).evolved metrics

theorem AllSound.changes (all : profiles.AllSound) {after : Profiles}
    (changes : Changes profiles after) : after.AllSound := by
  rcases changes with rfl | ⟨oldest, domain, profile, inserted, rfl⟩
  · exact all
  · intro other found there
    by_cases same : other = domain
    · subst same
      rw [AList.lookup_insert] at there
      rw [← Option.some.inj there]
      exact all.inserted inserted
    · rw [AList.lookup_insert_ne same] at there
      exact all other found (lookup_of_makeRoom there)

theorem allSound_run (observations : List Observation) :
    (run (observe lower) ∅ observations).AllSound := by
  have kept : ∀ {profiles : Profiles} (observation : Observation), profiles.AllSound →
      (profiles.observe lower observation).AllSound := fun observation all =>
    all.changes (changes_observe _ observation)
  apply run_invariant observations kept
  intro domain profile there
  simp at there

/--
After every run of observations the timeout of each profile is in the range of its
category; a profile of a static rule has the same timeout whenever the domain has one.
-/
theorem idleSecs_inRange (lower : String → String) (observations : List Observation)
    (domain : String) (profile : DomainProfile)
    (there : (run (observe lower) ∅ observations).lookup domain = some profile) :
    profile.InRange ∧
      (profile.isStaticRule = true → ∀ later now,
        (run (observe lower) ∅ (observations ++ later)).lookup domain = some now →
          now.isStaticRule = true ∧ now.category = profile.category ∧
            now.assignedIdleSecs = profile.assignedIdleSecs) := by
  have sound := allSound_run observations domain profile there
  refine ⟨sound.inRange, fun static later now found => ?_⟩
  have still := allSound_run (observations ++ later) domain now found
  have locked := sound.locked static
  have static_now := still.static_iff.mpr (sound.static_iff.mp static)
  have locked_now := still.locked static_now
  rw [locked.1, locked.2]
  exact ⟨static_now, locked_now⟩

/-- A flow to a domain with a static rule -/
def staticFlow : Flow := ⟨none, 443, some "T.me", none⟩

theorem idleSecs_inRange_static :
    (DomainProfile.initial "t.me" .pushIm true 5).InRange ∧
      ∀ later now, (run (observe toAsciiLowercase) ∅
          (.classify staticFlow 5 5 .first :: later)).lookup "t.me" = some now →
        now.assignedIdleSecs = 900 := by
  have there : (run (observe toAsciiLowercase) ∅
      [.classify staticFlow 5 5 .first]).lookup "t.me" =
        some (.initial "t.me" .pushIm true 5) := rfl
  have sound := idleSecs_inRange toAsciiLowercase _ _ _ there
  exact ⟨sound.1, fun later now found => (sound.2 rfl later now found).2.2⟩

end Ranges

section Capacity

theorem length_insert_of_mem (there : domain ∈ profiles) (profile : DomainProfile) :
    (AList.insert domain profile profiles).keys.length = profiles.keys.length := by
  have positive : 0 < profiles.keys.length := List.length_pos_of_mem (AList.mem_keys.mp there)
  rw [AList.keys_insert, List.length_cons, List.length_erase_of_mem (AList.mem_keys.mp there)]
  omega

theorem length_insert_of_notMem (absent : domain ∉ profiles) (profile : DomainProfile) :
    (AList.insert domain profile profiles).keys.length = profiles.keys.length + 1 := by
  rw [AList.keys_insert, List.length_cons, List.erase_of_not_mem (AList.mem_keys.not.mp absent)]

/-- Room for one profile is made if need be. -/
theorem length_insert_makeRoom (bounded : profiles.keys.length ≤ maxProfilesCapacity)
    (profile : DomainProfile) :
    (AList.insert domain profile (profiles.makeRoom oldest domain)).keys.length ≤
      maxProfilesCapacity := by
  by_cases there : domain ∈ profiles
  · rw [makeRoom_of_mem there, length_insert_of_mem there]
    exact bounded
  · cases evicted : profiles.evicted oldest domain with
    | some victim =>
        have victim_there := (domain_of_evicted evicted).1
        have absent : domain ∉ profiles.erase victim := by
          rw [AList.mem_erase]
          exact fun still => there still.2
        have positive : 0 < profiles.keys.length :=
          List.length_pos_of_mem (AList.mem_keys.mp victim_there)
        rw [makeRoom, evicted]
        simp only
        rw [length_insert_of_notMem absent, AList.keys_erase,
          List.length_erase_of_mem (AList.mem_keys.mp victim_there)]
        omega
    | none =>
        have room : profiles.keys.length < maxProfilesCapacity := by
          by_contra full
          rw [not_lt] at full
          have some_key : ∃ other, other ∈ profiles.keys := by
            apply List.exists_mem_of_length_pos
            exact Nat.lt_of_lt_of_le (by decide) full
          rcases some_key with ⟨other, member⟩
          have found := oldest.isSome_of_entry profiles other (AList.mem_keys.mpr member)
          rw [Profiles.evicted, if_pos ⟨full, there⟩] at evicted
          rw [evicted] at found
          cases found
        rw [makeRoom, evicted]
        simp only
        rw [length_insert_of_notMem there]
        omega

theorem length_observe (bounded : profiles.keys.length ≤ maxProfilesCapacity)
    (observation : Observation) :
    (profiles.observe lower observation).keys.length ≤ maxProfilesCapacity := by
  rcases changes_observe profiles observation with same | ⟨oldest, domain, profile, _, same⟩
  · rw [same]
    exact bounded
  · rw [same]
    exact length_insert_makeRoom bounded profile

/-- The domains of a store and of a file together -/
def unionSize (profiles : Profiles) (loaded : List DomainProfile) : ℕ :=
  (profiles.keys.toFinset ∪ (loaded.map DomainProfile.domain).toFinset).card

theorem length_loadProfiles (profiles : Profiles) (loaded : List DomainProfile) :
    (profiles.loadProfiles (some loaded)).keys.length = profiles.unionSize loaded := by
  rw [unionSize, ← List.toFinset_card_of_nodup (AList.keys_nodup _)]
  congr 1
  rw [loadProfiles, FiniteMap.collect]
  induction loaded generalizing profiles with
  | nil => simp
  | cons profile loaded ih =>
      rw [List.foldl_cons, ih, FiniteMap.insertSome, AList.keys_insert, List.map_cons]
      ext domain
      by_cases same : domain = profile.domain
      · simp [same]
      · simp [same, List.mem_erase_of_ne same]

/-- A file which is loaded has, with what is there, no more domains than the store may hold. -/
def LoadFits (profiles : Profiles) : ProfileEvent → Prop
  | .observe _ => True
  | .load (some loaded) => profiles.unionSize loaded ≤ maxProfilesCapacity
  | .load none => True

def Bounded (profiles : Profiles) : Prop := profiles.keys.length ≤ maxProfilesCapacity

/--
No profile is dropped to make room for itself; and the store is bounded throughout
a run exactly if every file that is loaded fits.
-/
theorem bounded_iff (lower : String → String) (events : List ProfileEvent) :
    (∀ (oldest : Oldest) (profiles : Profiles) domain,
        profiles.evicted oldest domain ≠ some domain) ∧
      (Throughout (step lower) Bounded ∅ events ↔ Along (step lower) LoadFits ∅ events) := by
  refine ⟨evicted_ne, ?_⟩
  have permitted : Along (step lower) (fun _ _ => True) ∅ events := .of_forall fun _ _ => trivial
  refine throughout_iff_along Bounded ?_ ?_ ?_ permitted ?_
  · exact id
  · intro profiles event _ bounded fits
    cases event with
    | observe observation => exact length_observe bounded observation
    | load file =>
        cases file with
        | none => exact bounded
        | some loaded =>
            rw [Bounded, step, length_loadProfiles]
            exact fits
  · intro profiles event _ _ bounded
    cases event with
    | observe observation => trivial
    | load file =>
        cases file with
        | none => trivial
        | some loaded =>
            rw [Bounded, step, length_loadProfiles] at bounded
            exact bounded
  · exact Nat.zero_le _

/-- One profile more than the store may hold -/
def tooMany : List DomainProfile :=
  (List.range (maxProfilesCapacity + 1)).map fun count =>
    .initial (String.ofList (List.replicate count 'a')) .generalApi false 0

theorem not_bounded_tooMany :
    ¬Throughout (step toAsciiLowercase) Bounded ∅ [.load (some tooMany)] := by
  intro throughout
  have bounded : Bounded (Profiles.step toAsciiLowercase ∅ (.load (some tooMany))) := throughout.2
  rw [Bounded, step, length_loadProfiles, unionSize] at bounded
  have distinct : (tooMany.map DomainProfile.domain).Nodup := by
    rw [tooMany, List.map_map]
    apply List.Nodup.map _ List.nodup_range
    intro first second same
    have lengths := congrArg String.length same
    simpa [DomainProfile.initial] using lengths
  have size : (tooMany.map DomainProfile.domain).length = maxProfilesCapacity + 1 := by
    simp [tooMany]
  have all : (tooMany.map DomainProfile.domain).toFinset.card ≤ maxProfilesCapacity :=
    (Finset.card_le_card Finset.subset_union_right).trans bounded
  rw [List.toFinset_card_of_nodup distinct, size] at all
  omega

end Capacity

end Profiles

/-!
## Reconnects

A connection computes its timeouts several times: each half when it starts and
when it has passed on its first bytes.  Every computation in the four seconds after
an idle close takes itself for a reconnect and lengthens the timeout of the
domain, for nothing notes that the reconnect has been counted.
-/

/-- What happens while a connection is there: its own computations, and all the rest -/
inductive ConnectionEvent where
  | compute (isActiveTransfer : Bool) (now inserting : ℕ) (oldest : Oldest)
  | other (event : ProfileEvent)

namespace Flow

variable (lower : String → String) (flow : Flow)

def profile (profiles : Profiles) : Option DomainProfile :=
  flow.domain.bind fun domain => profiles.lookup (lower domain)

def step (profiles : Profiles) : ConnectionEvent → Profiles
  | .compute isActiveTransfer now inserting oldest =>
      (profiles.computeAdaptiveTimeout lower oldest flow isActiveTransfer now inserting).2
  | .other event => profiles.step lower event

/-- A computation of the connection itself raises the churn penalties of the stored profile. -/
def Penalizes (profiles : Profiles) : ConnectionEvent → Prop
  | .compute isActiveTransfer now inserting oldest =>
      ∃ before ∈ flow.profile lower profiles,
        ∃ after ∈ flow.profile lower
            (flow.step lower profiles (.compute isActiveTransfer now inserting oldest)),
          after.churnPenalties ≠ before.churnPenalties
  | .other _ => False

/-- The flow is judged by its domain, whose last close was an idle one shortly before. -/
def FindsReconnect (profiles : Profiles) : ConnectionEvent → Prop
  | .compute _ now _ _ =>
      flow.fixedCategory lower = none ∧ ∃ stored ∈ flow.profile lower profiles, stored.Churns now
  | .other _ => False

instance decidablePenalizes (profiles : Profiles) :
    ∀ event, Decidable (flow.Penalizes lower profiles event)
  | .compute _ _ _ _ => inferInstanceAs (Decidable (∃ before ∈ flow.profile lower profiles, _))
  | .other _ => inferInstanceAs (Decidable False)

instance decidableFindsReconnect (profiles : Profiles) :
    ∀ event, Decidable (flow.FindsReconnect lower profiles event)
  | .compute _ _ _ _ =>
      inferInstanceAs (Decidable (_ ∧ ∃ stored ∈ flow.profile lower profiles, _))
  | .other _ => inferInstanceAs (Decidable False)

variable {lower flow} {profiles : Profiles} {isActiveTransfer : Bool} {now inserting : ℕ}
  {oldest : Oldest} {stored : DomainProfile}

/-- A computation finds the stored profile, unless something else than the domain decides. -/
theorem profile_compute (there : flow.profile lower profiles = some stored) :
    flow.profile lower
        (flow.step lower profiles (.compute isActiveTransfer now inserting oldest)) =
      some (if flow.fixedCategory lower = none then stored.found now else stored) := by
  rcases Option.bind_eq_some_iff.mp there with ⟨name, domain, lookup⟩
  rw [step, Profiles.computeAdaptiveTimeout_snd, Profiles.classifyConnection]
  cases fixed : flow.fixedCategory lower with
  | some category => simpa using there
  | none =>
      rw [domain]
      simp only [lookup, profile, domain, Option.bind_some, AList.lookup_insert, if_true]

theorem churnPenalties_found :
    (stored.found now).churnPenalties ≠ stored.churnPenalties ↔ stored.Churns now := by
  rw [DomainProfile.found]
  split
  · rename_i churns
    refine iff_of_true ?_ churns
    simp
  · rename_i churns
    exact iff_of_false (fun different => different rfl) churns

/-- A computation penalizes the domain exactly if it finds a reconnect. -/
theorem penalizes_iff (profiles : Profiles) (event : ConnectionEvent) :
    flow.Penalizes lower profiles event ↔ flow.FindsReconnect lower profiles event := by
  cases event with
  | other event => exact Iff.rfl
  | compute isActiveTransfer now inserting oldest =>
      rw [Penalizes, FindsReconnect]
      cases there : flow.profile lower profiles with
      | none => simp
      | some stored =>
          rw [profile_compute there]
          by_cases free : flow.fixedCategory lower = none
          · simp [free, churnPenalties_found]
          · simp [free]

/-- Nothing notes that a reconnect has been counted. -/
theorem churns_found {later : ℕ} : (stored.found now).Churns later ↔ stored.Churns later := by
  rw [DomainProfile.found]
  split <;> exact Iff.rfl

/-- The next computation finds the reconnect again. -/
theorem findsReconnect_again {againActive : Bool} {later again : ℕ} {other : Oldest}
    (first : flow.FindsReconnect lower profiles (.compute isActiveTransfer now inserting oldest))
    (soon : ∀ stored ∈ flow.profile lower profiles, later - stored.lastClosedSecs ≤ 4) :
    flow.FindsReconnect lower
      (flow.step lower profiles (.compute isActiveTransfer now inserting oldest))
      (.compute againActive later again other) := by
  rcases first with ⟨free, stored, there, churns⟩
  refine ⟨free, stored.found now, ?_, ?_⟩
  · rw [profile_compute there, if_pos free]
    rfl
  · rcases churns with ⟨dynamic, general, closed, _, idle⟩
    exact churns_found.mpr ⟨dynamic, general, closed, soon stored there, idle⟩

/--
A connection has the timeout of its domain lengthened at most once, exactly if at
most one of its computations finds a reconnect.
-/
theorem penalizedOnce_iff (lower : String → String) (flow : Flow) (profiles : Profiles)
    (events : List ConnectionEvent) :
    countAlong (flow.step lower) (flow.Penalizes lower) profiles events ≤ 1 ↔
      countAlong (flow.step lower) (flow.FindsReconnect lower) profiles events ≤ 1 := by
  rw [countAlong_congr penalizes_iff]

/-- An idle close, and two seconds later a connection whose halves compute their timeouts -/
def reopened : List ConnectionEvent :=
  [.other (.observe (.record ⟨some "x.org", 4096, 6144, 2000, .idleTimeout, true⟩ 1000 .first)),
    .compute false 1002 1002 .first, .compute false 1002 1002 .first]

def reopenedFlow : Flow := ⟨none, 443, some "x.org", none⟩

theorem not_penalizedOnce_reopened :
    ¬countAlong (reopenedFlow.step toAsciiLowercase) (reopenedFlow.Penalizes toAsciiLowercase) ∅
        reopened ≤ 1 ∧
      (reopenedFlow.profile toAsciiLowercase
        (run (reopenedFlow.step toAsciiLowercase) ∅ reopened)).map
          DomainProfile.assignedIdleSecs = some 67 := by
  decide +kernel

end Flow

end Mirage.Tun
