import Mirage.Shell.GeoManager.Install

/-!
# Only checked files are installed

What an update installs is what its mirrors offer.  A built-in mirror offers a
file only with a digest that confirms it, and without consent only such files
are installed.  An update which fails is reported as verified: this is wrong if
its installation stops half way and leaves an unverified file in place.
-/

namespace Mirage.Shell.GeoManager

open Mirage.Foundations

section Mirrors

variable (env : Environment) (dataset : Dataset)

def Published (url : String) : Prop :=
  ∃ hex, digestOf env.platform env.network dataset url = .found hex

/-- A digest was fetched for the URL, and it or the one past the cache is that of the file. -/
def Confirmed (url : String) (file : GeoFile) : Prop :=
  Published env dataset url ∧
    ((digestOf env.platform env.network dataset url).confirms env.platform file = true ∨
      (freshDigestOf env.platform env.network env.now dataset url).confirms env.platform file =
        true)

/-- The file is confirmed, or it is from a custom source which has no digest for it. -/
def Verdict (url : String) (file : GeoFile) : Bool → Prop
  | true => Confirmed env dataset url file
  | false => isBuiltinUrl url = false ∧ ¬ Published env dataset url

/-- A mirror serves a file which is large enough and has a verdict. -/
def Offers (url : String) (verified : Bool) (file : GeoFile) : Prop :=
  download env.platform env.network dataset url none = (true, some file) ∧
    minimumSize < file.bytes.length ∧ Verdict env dataset url file verified

/-- Whether a download succeeds does not depend on what was at its destination. -/
theorem download_ok_iff (url : String) (dest found : Option GeoFile) :
    download env.platform env.network dataset url dest = (true, found) ↔
      download env.platform env.network dataset url none = (true, found) := by
  unfold download downloadFile
  split
  · simp
  · split
    · simp
    · split
      · simp
      · simp
      · rfl

theorem download_origin {url : String} {file : GeoFile}
    (ok : download env.platform env.network dataset url none = (true, some file)) :
    file.origin = some url := by
  unfold download downloadFile at ok
  split at ok
  · cases ok
  · split at ok
    · cases ok
    · split at ok
      · cases ok
      · cases ok
      · split at ok
        · cases ok
        · simp only [Prod.mk.injEq, Option.some.injEq] at ok
          rw [← ok.2]

theorem Offers.origin {url : String} {verified : Bool} {file : GeoFile}
    (offers : Offers env dataset url verified file) : file.origin = some url :=
  download_origin env dataset offers.1

theorem judge_accepted_iff {url : String} {file : GeoFile} {verified : Bool} {result : GeoFile} :
    judge env.platform env.network env.now dataset url file = .accepted verified result ↔
      file = result ∧ Verdict env dataset url result verified := by
  unfold judge
  cases digest : digestOf env.platform env.network dataset url with
  | found hex =>
      have published : Published env dataset url := ⟨hex, digest⟩
      have confirmed : Confirmed env dataset url file ↔
          ((DigestResult.found hex).confirms env.platform file ||
            (freshDigestOf env.platform env.network env.now dataset url).confirms env.platform
              file) = true := by
        rw [Confirmed, digest, Bool.or_eq_true]
        exact and_iff_right published
      dsimp only
      split
      · rename_i confirms
        cases verified with
        | true =>
            simp only [MirrorResult.accepted.injEq, true_and, Verdict]
            exact ⟨fun same => ⟨same, same ▸ confirmed.mpr confirms⟩, And.left⟩
        | false => simp [Verdict, published]
      · rename_i differs
        cases verified with
        | true =>
            refine iff_of_false (by simp) ?_
            rintro ⟨rfl, verdict⟩
            exact differs (confirmed.mp verdict)
        | false => simp [Verdict, published]
  | absent | unavailable =>
      have unpublished : ¬ Published env dataset url := by
        rintro ⟨hex, published⟩
        rw [digest] at published
        cases published
      dsimp only
      cases verified with
      | true =>
          refine iff_of_false (by split <;> simp) ?_
          rintro ⟨-, published, -⟩
          exact unpublished published
      | false =>
          split
          · rename_i builtin
            simp [Verdict, builtin]
          · rename_i custom
            simp [Verdict, unpublished, custom]

/-- A mirror is accepted for what it offers. -/
theorem tryMirror_accepted_iff {url : String} {dest : Option GeoFile} {verified : Bool}
    {file : GeoFile} :
    tryMirror env.platform env.network env.now dataset url dest = .accepted verified file ↔
      Offers env dataset url verified file := by
  unfold tryMirror Offers
  rw [← download_ok_iff env dataset url dest]
  split
  case h_1 served got =>
    rw [got]
    simp only [Prod.mk.injEq, true_and, Option.some.injEq]
    split
    · rename_i large
      rw [judge_accepted_iff]
      refine and_congr_right ?_
      rintro rfl
      exact (and_iff_right large).symm
    · rename_i small
      refine iff_of_false (by simp) ?_
      rintro ⟨rfl, large, -⟩
      exact small large
  case h_2 ok left _ got =>
    rename_i failed
    refine iff_of_false (by simp) ?_
    rintro ⟨served, -⟩
    rw [got] at served
    cases served
    exact failed _ rfl rfl

/-- What the mirrors give is what one of them offers, or nothing if none does. -/
def Settles (urls : List String) (result : DownloadOutcome × Option GeoFile) : Prop :=
  (∃ url ∈ urls, isHttps url = true ∧ ∃ verified file, Offers env dataset url verified file ∧
    result = ({ ok := true, verified }, some file)) ∨
  (∀ url ∈ urls, isHttps url = true → ∀ verified file, ¬ Offers env dataset url verified file) ∧
    result.1.ok = false

theorem Settles.cons {url : String} {rest : List String}
    {result : DownloadOutcome × Option GeoFile} (settles : Settles env dataset rest result)
    (nothing : isHttps url = true → ∀ verified file, ¬ Offers env dataset url verified file) :
    Settles env dataset (url :: rest) result := by
  rcases settles with ⟨other, there, found⟩ | ⟨none, failed⟩
  · exact Or.inl ⟨other, List.mem_cons_of_mem _ there, found⟩
  · exact Or.inr ⟨List.forall_mem_cons.mpr ⟨nothing, none⟩, failed⟩

theorem settles_downloadWithMirrors (urls : List String) (dest : Option GeoFile)
    (lastFailure : FailureReason) :
    Settles env dataset urls (downloadWithMirrors env.platform env.network env.now dataset urls
      dest lastFailure) := by
  induction urls generalizing dest lastFailure with
  | nil => exact Or.inr ⟨by simp, rfl⟩
  | cons url rest ih =>
      rw [downloadWithMirrors]
      cases https : isHttps url with
      | false =>
          apply (ih dest lastFailure).cons
          rw [https]
          rintro ⟨⟩
      | true =>
          cases tried : tryMirror env.platform env.network env.now dataset url dest with
          | accepted verified file =>
              exact Or.inl ⟨url, List.mem_cons_self, https, verified, file,
                (tryMirror_accepted_iff env dataset).mp tried, rfl⟩
          | rejected left failure =>
              apply (ih left failure).cons
              intro _ verified file offers
              rw [(tryMirror_accepted_iff env dataset).mpr offers] at tried
              cases tried

theorem mem_mirrors {source : GeoSource} {dataset : Dataset} {url : String} :
    url ∈ mirrors source dataset ↔
      (url = source.url dataset ∨ url ∈ fallbackMirrors dataset) ∧ isHttps url = true := by
  rw [mirrors, List.mem_eraseDups, List.mem_filter, List.mem_cons]

theorem fallbackMirrors_builtin {dataset : Dataset} {url : String}
    (fallback : url ∈ fallbackMirrors dataset) : isBuiltinUrl url = true := by
  have all : ∀ dataset, (fallbackMirrors dataset).all isBuiltinUrl = true := by
    intro dataset
    cases dataset <;> decide +kernel
  exact List.all_eq_true.mp (all dataset) url fallback

/-- A staged file is offered by a mirror. -/
theorem offers_of_stage {source : GeoSource} {dataset : Dataset}
    (ok : (stage env source dataset).1.ok = true) :
    ∃ url ∈ mirrors source dataset, ∃ verified file, Offers env dataset url verified file ∧
      stage env source dataset = ({ ok := true, verified }, some file) := by
  rcases settles_downloadWithMirrors env dataset (mirrors source dataset) (some emptyFile)
    .download with ⟨url, there, -, verified, file, offers, result⟩ | ⟨-, failed⟩
  · exact ⟨url, there, verified, file, offers, result⟩
  · rw [stage, failed] at ok
    cases ok

theorem stage_ok_of_offers {source : GeoSource} {dataset : Dataset} {url : String}
    (there : url ∈ mirrors source dataset) {verified : Bool} {file : GeoFile}
    (offers : Offers env dataset url verified file) :
    (stage env source dataset).1.ok = true := by
  rcases settles_downloadWithMirrors env dataset (mirrors source dataset) (some emptyFile)
    .download with ⟨_, -, -, _, _, -, result⟩ | ⟨none, -⟩
  · rw [stage, result]
  · exact absurd offers (none url there (mem_mirrors.mp there).2 verified file)

/-- The active source is tried first. -/
theorem stage_of_offers {source : GeoSource} {dataset : Dataset}
    (https : isHttps (source.url dataset) = true) {verified : Bool} {file : GeoFile}
    (offers : Offers env dataset (source.url dataset) verified file) :
    stage env source dataset = ({ ok := true, verified }, some file) := by
  rw [stage, mirrors, List.filter_cons_of_pos https, List.eraseDups_cons, downloadWithMirrors,
    https, (tryMirror_accepted_iff env dataset).mpr offers]
  rfl

/-- Only the active source can give a file which is not verified. -/
theorem source_of_unverified {source : GeoSource} {dataset : Dataset} {url : String}
    (there : url ∈ mirrors source dataset) {file : GeoFile}
    (offers : Offers env dataset url false file) :
    url = source.url dataset ∧ isHttps url = true := by
  rcases mem_mirrors.mp there with ⟨rfl | fallback, https⟩
  · exact ⟨rfl, https⟩
  · have builtin := fallbackMirrors_builtin fallback
    rw [offers.2.2.1] at builtin
    cases builtin

end Mirrors

/-- A data file which the update has put in place and left there. -/
def Installed (after : GeoFiles GeoFile) (dataset : Dataset) (file : GeoFile) : Prop :=
  after.current dataset = some file ∧ file.origin.isSome = true

/-- The digest of a file is one which was fetched for the URL that it comes from. -/
def Matches (env : Environment) (dataset : Dataset) (file : GeoFile) : Prop :=
  ∃ url, file.origin = some url ∧ Confirmed env dataset url file

theorem matches_iff {env : Environment} {dataset : Dataset} {url : String} {verified : Bool}
    {file : GeoFile} (offers : Offers env dataset url verified file) :
    Matches env dataset file ↔ verified = true := by
  have origin := Offers.origin env dataset offers
  cases verified with
  | true => exact iff_of_true ⟨url, origin, offers.2.2⟩ rfl
  | false =>
      refine iff_of_false ?_ Bool.false_ne_true
      rintro ⟨other, here, published, -⟩
      rw [origin, Option.some.injEq] at here
      subst here
      exact offers.2.2.2 published

section Updates

variable (env : Environment) (source : GeoSource) (allowUnverified : Bool)
  (before : GeoFiles (List UInt8))

/-- The integrity policy, of one update. -/
structure Integrity : Prop where
  withoutConsent : allowUnverified = false → ∀ dataset file,
    Installed (updateGeoFilesStaged env source allowUnverified before).2 dataset file →
      Matches env dataset file
  builtin : ∀ dataset file url,
    Installed (updateGeoFilesStaged env source allowUnverified before).2 dataset file →
      file.origin = some url → isBuiltinUrl url = true → Matches env dataset file
  flag : (updateGeoFilesStaged env source allowUnverified before).1.verified = true →
    ∀ dataset file,
      Installed (updateGeoFilesStaged env source allowUnverified before).2 dataset file →
        Matches env dataset file

/--
With consent, a custom source serves `geosite.dat` without a digest, a mirror
serves `geoip.dat`, and this file alone cannot be put in place; the other stays,
as there is nothing to put back or it cannot be put back.
-/
structure LeavesUnverified : Prop where
  consent : allowUnverified = true
  https : isHttps source.geositeUrl = true
  site : ∃ file, Offers env .site source.geositeUrl false file
  ip : ∃ url ∈ mirrors source .ip, ∃ verified file, Offers env .ip url verified file
  stuck : firstFailure env.fails before = some (.replaced, .aside)
  stays : env.fails .restoreSite = true ∨ before.site = ⟨none, none⟩

theorem firstFailure_ofBytes : firstFailure env.fails before.ofBytes = firstFailure env.fails before
    := by
  simp [firstFailure, GeoFiles.ofBytes, Slot.map]

/-- The second file is never in place when a move fails. -/
theorem firstFailure_ip {Content : Type*} {fails : Move → Bool} {files : GeoFiles Content}
    {progress : Progress × Progress} (failed : firstFailure fails files = some progress) :
    progress.2 ≠ .replaced ∧ (progress.1 = .replaced → progress = (.replaced, .aside)) := by
  unfold firstFailure at failed
  split at failed
  · cases failed
    simp
  · split at failed
    · cases failed
      simp
    · split at failed
      · cases failed
        simp
      · split at failed
        · cases failed
          simp
        · cases failed

/-- What a roll-back leaves was there before, or it is the new file with nothing put back. -/
theorem rolledBack_cases {Content : Type*} {restoreFails : Bool} {new found : Content}
    {file : Slot Content} {progress : Progress}
    (left : (if restoreFails then progress.reached new file
      else (progress.reached new file).restore).current = some found) :
    file.current = some found ∨ file.backup = some found ∨
      progress = .replaced ∧ found = new ∧ (restoreFails = true ∨ file = ⟨none, none⟩) := by
  rw [restoreUnless_current, Slot.restore_current] at left
  rcases file with ⟨current, backup⟩
  cases restoreFails <;> cases progress <;> cases current <;> cases backup <;>
    simp_all [Progress.reached, Slot.setAside, Slot.put, eq_comm]

/-- An update fails with nothing touched, or it installs what two mirrors offer. -/
theorem update_cases :
    ((updateGeoFilesStaged env source allowUnverified before).2 = before.ofBytes ∧
      ((stage env source .site).1.ok = false ∨ (stage env source .ip).1.ok = false)) ∨
    ∃ siteUrl ∈ mirrors source .site, ∃ ipUrl ∈ mirrors source .ip,
      ∃ siteVerified ipVerified site ip, Offers env .site siteUrl siteVerified site ∧
        Offers env .ip ipUrl ipVerified ip ∧
        stage env source .site = ({ ok := true, verified := siteVerified }, some site) ∧
        updateGeoFilesStaged env source allowUnverified before =
          installStaged env before.ofBytes site ip (siteVerified && ipVerified)
            allowUnverified := by
  unfold updateGeoFilesStaged
  by_cases siteOk : (stage env source .site).1.ok = true
  · rcases offers_of_stage env siteOk with
      ⟨siteUrl, siteThere, siteVerified, site, siteOffers, siteStaged⟩
    have siteLarge : ¬ tmpLength (some site) < minimumSize := Nat.not_lt_of_gt siteOffers.2.1
    by_cases ipOk : (stage env source .ip).1.ok = true
    · rcases offers_of_stage env ipOk with ⟨ipUrl, ipThere, ipVerified, ip, ipOffers, ipStaged⟩
      have ipLarge : ¬ tmpLength (some ip) < minimumSize := Nat.not_lt_of_gt ipOffers.2.1
      refine Or.inr ⟨siteUrl, siteThere, ipUrl, ipThere, siteVerified, ipVerified, site, ip,
        siteOffers, ipOffers, siteStaged, ?_⟩
      simp [siteStaged, siteLarge, ipStaged, ipLarge]
    · refine Or.inl ⟨?_, Or.inr (Bool.eq_false_iff.mpr ipOk)⟩
      simp [siteStaged, siteLarge, ipOk]
  · refine Or.inl ⟨?_, Or.inl (Bool.eq_false_iff.mpr siteOk)⟩
    simp [siteOk]

/-- What was there before the update does not come from it. -/
theorem not_installed_ofBytes {dataset : Dataset} {file : GeoFile} :
    ¬ Installed before.ofBytes dataset file := by
  rintro ⟨here, origin⟩
  cases dataset with
  | site =>
      rcases Option.map_eq_some_iff.mp here with ⟨bytes, -, rfl⟩
      cases origin
  | ip =>
      rcases Option.map_eq_some_iff.mp here with ⟨bytes, -, rfl⟩
      cases origin

theorem origin_of_mem_map {slot : Slot (List UInt8)} {file : GeoFile}
    (there : (slot.map fun bytes => (⟨bytes, none⟩ : GeoFile)).current = some file ∨
      (slot.map fun bytes => (⟨bytes, none⟩ : GeoFile)).backup = some file) :
    file.origin.isSome = false := by
  rcases there with here | here
  · rcases Option.map_eq_some_iff.mp here with ⟨bytes, -, rfl⟩
    rfl
  · rcases Option.map_eq_some_iff.mp here with ⟨bytes, -, rfl⟩
    rfl

/-- A failed installation leaves at most the new `geosite.dat`. -/
theorem installed_of_failure {progress : Progress × Progress} {site ip file : GeoFile}
    {dataset : Dataset} (failed : firstFailure env.fails before = some progress)
    (installed : Installed (install env.fails before.ofBytes site ip).2 dataset file) :
    dataset = .site ∧ file = site ∧ firstFailure env.fails before = some (.replaced, .aside) ∧
      (env.fails .restoreSite = true ∨ before.site = ⟨none, none⟩) := by
  rw [← firstFailure_ofBytes] at failed
  rw [install_of_firstFailure env.fails failed] at installed
  rcases installed with ⟨here, origin⟩
  cases dataset with
  | site =>
      rcases rolledBack_cases here with old | old | ⟨replaced, rfl, stays⟩
      · rw [origin_of_mem_map (Or.inl old)] at origin
        cases origin
      · rw [origin_of_mem_map (Or.inr old)] at origin
        cases origin
      · rw [firstFailure_ofBytes] at failed
        refine ⟨rfl, rfl, failed.trans (congrArg some ((firstFailure_ip failed).2 replaced)), ?_⟩
        rcases before with ⟨⟨current, backup⟩, ip⟩
        cases current <;> cases backup <;> simp_all [GeoFiles.ofBytes, Slot.map]
  | ip =>
      rcases rolledBack_cases here with old | old | ⟨replaced, -⟩
      · rw [origin_of_mem_map (Or.inl old)] at origin
        cases origin
      · rw [origin_of_mem_map (Or.inr old)] at origin
        cases origin
      · exact absurd replaced (firstFailure_ip failed).1

/-- What an update installs is what a mirror offers, with consent or verified. -/
theorem offers_of_installed {dataset : Dataset} {file : GeoFile}
    (installed : Installed (updateGeoFilesStaged env source allowUnverified before).2 dataset
      file) :
    ∃ url verified, Offers env dataset url verified file ∧
      (allowUnverified = false → verified = true) ∧
      ((updateGeoFilesStaged env source allowUnverified before).1.verified = true →
        verified = true ∨ LeavesUnverified env source allowUnverified before) := by
  rcases update_cases env source allowUnverified before with ⟨unchanged, -⟩ |
    ⟨siteUrl, siteThere, ipUrl, ipThere, siteVerified, ipVerified, site, ip, siteOffers, ipOffers,
      -, update⟩
  · rw [unchanged] at installed
    exact absurd installed (not_installed_ofBytes before)
  · rw [update] at installed ⊢
    unfold installStaged at installed ⊢
    split at installed
    · exact absurd installed (not_installed_ofBytes before)
    · rename_i permitted
      rw [if_neg permitted]
      have consent : allowUnverified = false → (siteVerified && ipVerified) = true := by
        cases allowUnverified <;> cases siteVerified <;> cases ipVerified <;> simp_all
      cases failed : firstFailure env.fails before with
      | none =>
          rw [← firstFailure_ofBytes] at failed
          have done := install_of_no_failure env.fails failed site ip
          rcases result : install env.fails before.ofBytes site ip with ⟨success, after⟩
          rw [result] at done installed
          rcases done with ⟨rfl, newSite, newIp⟩
          cases dataset with
          | site =>
              have same := Option.some.inj (newSite.symm.trans installed.1)
              subst same
              refine ⟨siteUrl, siteVerified, siteOffers, ?_, ?_⟩
              · exact fun refused => (Bool.and_eq_true_iff.mp (consent refused)).1
              · exact fun reported => Or.inl (Bool.and_eq_true_iff.mp reported).1
          | ip =>
              have same := Option.some.inj (newIp.symm.trans installed.1)
              subst same
              refine ⟨ipUrl, ipVerified, ipOffers, ?_, ?_⟩
              · exact fun refused => (Bool.and_eq_true_iff.mp (consent refused)).2
              · exact fun reported => Or.inl (Bool.and_eq_true_iff.mp reported).2
      | some progress =>
          have rolledBack := failed
          rw [← firstFailure_ofBytes] at rolledBack
          have left : Installed (install env.fails before.ofBytes site ip).2 dataset file := by
            rw [install_of_firstFailure env.fails rolledBack] at installed ⊢
            exact installed
          rcases installed_of_failure env before failed left with ⟨rfl, rfl, stuck, stays⟩
          refine ⟨siteUrl, siteVerified, siteOffers, ?_, ?_⟩
          · exact fun refused => (Bool.and_eq_true_iff.mp (consent refused)).1
          · intro _
            cases siteVerified with
            | true => exact Or.inl rfl
            | false =>
                rcases source_of_unverified env siteThere siteOffers with ⟨rfl, https⟩
                refine Or.inr ⟨?_, https, ⟨file, siteOffers⟩, ⟨ipUrl, ipThere, ipVerified, ip,
                  ipOffers⟩, stuck, stays⟩
                cases allowUnverified with
                | true => rfl
                | false => exact consent rfl

/-- A half installation is reported as verified, with an unverified file in place. -/
theorem not_integrity_of_leavesUnverified
    (leaves : LeavesUnverified env source allowUnverified before) :
    ¬ Integrity env source allowUnverified before := by
  intro integrity
  rcases leaves.site with ⟨served, servedOffers⟩
  rcases leaves.ip with ⟨otherUrl, otherThere, otherVerified, other, otherOffers⟩
  have https : isHttps (source.url .site) = true := leaves.https
  have staged := stage_of_offers env https servedOffers
  have ipOk := stage_ok_of_offers env otherThere otherOffers
  rcases update_cases env source allowUnverified before with ⟨-, failed⟩ |
    ⟨siteUrl, siteThere, ipUrl, ipThere, siteVerified, ipVerified, site, ip, siteOffers, ipOffers,
      siteStaged, update⟩
  · rcases failed with failed | failed
    · rw [staged] at failed
      cases failed
    · rw [ipOk] at failed
      cases failed
  · rw [staged] at siteStaged
    cases siteStaged
    have stuck := leaves.stuck
    rw [← firstFailure_ofBytes] at stuck
    have result : updateGeoFilesStaged env source allowUnverified before =
        ({ success := false, message := "安装 Geo 数据文件失败: " ++ env.error },
          (install env.fails before.ofBytes served ip).2) := by
      rw [update, installStaged, leaves.consent, Bool.not_true, Bool.and_false, if_neg
        Bool.false_ne_true, install_of_firstFailure env.fails stuck]
    have installed : Installed (updateGeoFilesStaged env source allowUnverified before).2 .site
        served := by
      rw [result, install_of_firstFailure env.fails stuck]
      refine ⟨?_, ?_⟩
      · refine (restoreUnless_current ..).trans ?_
        rw [Slot.restore_current]
        rcases leaves.stays with fails | empty
        · rw [fails]
          rfl
        · rw [GeoFiles.ofBytes, empty]
          cases env.fails .restoreSite <;> rfl
      · rw [Offers.origin env .site servedOffers]
        rfl
    have reported : (updateGeoFilesStaged env source allowUnverified before).1.verified = true := by
      rw [result]
    have confirmed := (matches_iff servedOffers).mp (integrity.flag reported .site served installed)
    cases confirmed

/--
The integrity policy holds of an update exactly if it does not leave an
unverified file behind with an installation which fails half way.
-/
theorem integrity_iff :
    Integrity env source allowUnverified before ↔
      ¬ LeavesUnverified env source allowUnverified before := by
  constructor
  · intro integrity leaves
    exact not_integrity_of_leavesUnverified env source allowUnverified before leaves integrity
  · intro clean
    constructor
    · intro refused dataset file installed
      rcases offers_of_installed env source allowUnverified before installed with
        ⟨url, verified, offers, consent, -⟩
      exact (matches_iff offers).mpr (consent refused)
    · intro dataset file url installed origin builtin
      rcases offers_of_installed env source allowUnverified before installed with
        ⟨other, verified, offers, -, -⟩
      have same := (Offers.origin env dataset offers).symm.trans origin
      rw [Option.some.injEq] at same
      subst same
      apply (matches_iff offers).mpr
      cases verified with
      | true => rfl
      | false =>
          rw [offers.2.2.1] at builtin
          cases builtin
    · intro reported dataset file installed
      rcases offers_of_installed env source allowUnverified before installed with
        ⟨url, verified, offers, -, flag⟩
      apply (matches_iff offers).mpr
      exact (flag reported).resolve_right clean

end Updates

def zeros : List UInt8 := List.replicate 51201 0

theorem zeros_length : zeros.length = 51201 :=
  List.length_replicate

/-- A custom source which serves two files of zeros and no digest; the last move fails. -/
def halfInstallation : Environment where
  platform :=
    { protocol := fun url => if isHttps url then some "https" else none
      resolve := fun _ _ => none
      sha256 := fun _ => "" }
  network := fun request =>
    match request.purpose with
    | .artifact => .answers ⟨200, none, zeros, false, ""⟩
    | _ => .answers ⟨404, none, [], false, ""⟩
  now := 0
  fails := fun move => move == .installIp
  error := "geoip.dat"
  loaded := (0, 0)

def customSource : GeoSource where
  id := "custom"
  name := "custom"
  geositeUrl := "https://example.org/geosite.dat"
  geoipUrl := "https://example.org/geoip.dat"
  isBuiltin := false

theorem halfInstallation_offers (dataset : Dataset) :
    Offers halfInstallation dataset (customSource.url dataset) false
      ⟨zeros, some (customSource.url dataset)⟩ := by
  have https : isHttps (customSource.url dataset) = true := by
    cases dataset <;> decide +kernel
  have absent : digestOf halfInstallation.platform halfInstallation.network dataset
      (customSource.url dataset) = .absent := by
    cases dataset <;> decide +kernel
  have custom : isBuiltinUrl (customSource.url dataset) = false := by
    cases dataset <;> decide +kernel
  have secure : speaksHttps halfInstallation.platform (customSource.url dataset) = true := by
    cases dataset <;> decide +kernel
  have named : (halfInstallation.platform.protocol (customSource.url dataset)).isNone = false := by
    cases dataset <;> decide +kernel
  have opened : openArtifact halfInstallation.platform
      (fun hop => halfInstallation.network ⟨dataset, customSource.url dataset, .artifact, 1, hop⟩)
        5 0 (customSource.url dataset) = .opened ⟨200, none, zeros, false, ""⟩ := by
    rw [openArtifact, secure]
    rfl
  refine ⟨?_, ?_, custom, ?_⟩
  · simp [download, downloadFile, https, named, opened, zeros_length]
  · simp [minimumSize, zeros_length]
  · rintro ⟨hex, published⟩
    rw [absent] at published
    cases published

/-- The flag is wrong after a first installation which fails at its last move. -/
theorem not_integrity_halfInstallation :
    ¬ Integrity halfInstallation customSource true
      { site := ⟨none, none⟩, ip := ⟨none, none⟩ } := by
  apply not_integrity_of_leavesUnverified
  refine ⟨rfl, by decide +kernel, ⟨_, halfInstallation_offers .site⟩, ?_, rfl, Or.inr rfl⟩
  refine ⟨customSource.geoipUrl, ?_, false, _, halfInstallation_offers .ip⟩
  exact mem_mirrors.mpr ⟨Or.inl rfl, by decide +kernel⟩

end Mirage.Shell.GeoManager
