import Mirage.Shell.GeoManager

/-!
# Installing both files or none

After a failed move the backups are moved back.  Whether that restores what was
there depends on how far the installation got with each file: a file which had
been moved aside comes back, but a backup from an earlier run is taken for one of
this run, and where there was no file before, a new one stays.
-/

namespace Mirage.Shell.GeoManager

open Mirage.Foundations

variable {Content : Type*} (fails : Move → Bool)

/-- What an installation has done with a file when it fails. -/
inductive Progress where
  | untouched
  | aside
  | replaced
  deriving DecidableEq, Repr

def Progress.reached (new : Content) (file : Slot Content) : Progress → Slot Content
  | .untouched => file
  | .aside => file.setAside
  | .replaced => file.setAside.put new

/-- What had been done with the two files at the first failing move, if one fails. -/
def firstFailure (files : GeoFiles Content) : Option (Progress × Progress) :=
  if files.site.current.isSome && fails .backupSite then some (.untouched, .untouched)
  else if files.ip.current.isSome && fails .backupIp then some (.aside, .untouched)
  else if fails .installSite then some (.aside, .aside)
  else if fails .installIp then some (.replaced, .aside)
  else none

/-- After a failure both files are as before, after a success both are new. -/
def AllOrNothing (files : GeoFiles Content) (newSite newIp : Content) : Prop :=
  let after := (install fails files newSite newIp).2
  if (install fails files newSite newIp).1 then
    after.site.current = some newSite ∧ after.ip.current = some newIp
  else after.site.current = files.site.current ∧ after.ip.current = files.ip.current

instance [DecidableEq Content] (files : GeoFiles Content) (newSite newIp : Content) :
    Decidable (AllOrNothing fails files newSite newIp) := by
  unfold AllOrNothing
  infer_instance

/-- The roll-back finds a file again, with the new one being `new`. -/
def Recovers (restoreFails : Bool) (new : Content) (file : Slot Content) : Progress → Prop
  | .untouched => restoreFails = true ∨ ∀ old, file.backup = some old → file.current = some old
  | .aside =>
      if file.current.isSome then restoreFails = false
      else restoreFails = true ∨ file.backup = none
  | .replaced => ∃ old, file.current = some old ∧ (restoreFails = false ∨ old = new)

theorem restoreUnless_current (restoreFails : Bool) (file : Slot Content) :
    (if restoreFails then file else file.restore).current =
      if restoreFails then file.current else file.restore.current := by
  cases restoreFails <;> rfl

theorem recovers_iff (restoreFails : Bool) (new : Content) (file : Slot Content)
    (progress : Progress) :
    (if restoreFails then progress.reached new file
      else (progress.reached new file).restore).current = file.current ↔
      Recovers restoreFails new file progress := by
  rw [restoreUnless_current]
  cases progress with
  | untouched =>
      cases restoreFails with
      | true => exact iff_of_true rfl (Or.inl rfl)
      | false => simpa [Recovers, Progress.reached] using file.restore_current_eq_iff
  | aside =>
      cases restoreFails with
      | true =>
          rcases file with ⟨_ | old, backup⟩
          · exact iff_of_true rfl (Or.inl rfl)
          · simp [Recovers, Progress.reached]
      | false =>
          refine file.restore_setAside_current_eq_iff.trans ?_
          rcases file with ⟨_ | old, backup⟩
          · simp [Recovers]
          · simp [Recovers]
  | replaced =>
      cases restoreFails with
      | true =>
          rcases file with ⟨_ | old, backup⟩
          · simp [Recovers, Progress.reached]
          · simp [Recovers, Progress.reached, eq_comm]
      | false =>
          refine (file.restore_put_setAside_current_eq_iff new).trans ?_
          rw [Option.isSome_iff_exists]
          simp [Recovers]

/-- An installation rolls back what it has reached at its first failure. -/
theorem install_eq (files : GeoFiles Content) (newSite newIp : Content) :
    install fails files newSite newIp =
      (firstFailure fails files).elim
        (true,
          { site := if fails .deleteSiteBackup then files.site.setAside.put newSite
              else (files.site.setAside.put newSite).discard
            ip := if fails .deleteIpBackup then files.ip.setAside.put newIp
              else (files.ip.setAside.put newIp).discard })
        fun progress =>
          (false, rollBack fails
            { site := progress.1.reached newSite files.site
              ip := progress.2.reached newIp files.ip }) := by
  unfold install firstFailure
  split
  · rfl
  · split
    · rfl
    · split
      · rfl
      · split
        · rfl
        · rfl

/-- A failing installation rolls back what it has reached. -/
theorem install_of_firstFailure {files : GeoFiles Content} {progress : Progress × Progress}
    (failed : firstFailure fails files = some progress) (newSite newIp : Content) :
    install fails files newSite newIp =
      (false, rollBack fails
        { site := progress.1.reached newSite files.site
          ip := progress.2.reached newIp files.ip }) := by
  rw [install_eq, failed, Option.elim_some]

/-- Where no move fails, both files are new. -/
theorem install_of_no_failure {files : GeoFiles Content}
    (works : firstFailure fails files = none) (newSite newIp : Content) :
    (install fails files newSite newIp).1 = true ∧
      (install fails files newSite newIp).2.site.current = some newSite ∧
      (install fails files newSite newIp).2.ip.current = some newIp := by
  rw [install_eq, works, Option.elim_none]
  refine ⟨rfl, ?_, ?_⟩
  · cases fails .deleteSiteBackup <;> rfl
  · cases fails .deleteIpBackup <;> rfl

-- The backup of an earlier run takes the place of a file which could not be moved aside.
example :
    ¬ AllOrNothing (fun move => move == .backupSite)
      { site := ⟨some "geosite", some "older geosite"⟩, ip := ⟨some "geoip", none⟩ }
      "new geosite" "new geoip" := by
  decide

end Mirage.Shell.GeoManager
