import SealedConfig.Proofs.Bulk.Success

/-!
# The name of a copy

A run that has work copies the document to the first name that is free, and fails for want of a name only when it has work and all
names of the second are taken.
-/

namespace SealedConfig

/-- A failure to make the copy of a document. -/
def Failure.IsBackup (failure : Failure) : Prop := ∃ path fault, failure = .bulk (.backupFailed path fault)

namespace Bulk

open FileTree Run

/-- The name of an attempt is the first of the names at a time that is free. -/
structure IsFirstFree (path : String) (moment : Moment) (attempt : Nat) (w : World) : Prop where
  lt : attempt < backupLimit
  free : w.files.IsFree w.here (backupPath path moment.stamp attempt)
  taken : ∀ k < attempt, ¬w.files.IsFree w.here (backupPath path moment.stamp k)

/-- No name at a time is free. -/
def AllTaken (path : String) (moment : Moment) (w : World) : Prop :=
  ∀ attempt < backupLimit, ¬w.files.IsFree w.here (backupPath path moment.stamp attempt)

/-- No name at a time is too long, so each leads somewhere. -/
def NamesFit (path : String) (moment : Moment) (w : World) : Prop :=
  ∀ attempt < backupLimit, ∃ place, w.files.resolve w.here (backupPath path moment.stamp attempt) = .ok place

variable {p : Protector} {operation : Operation} {confirmed : Bool} {cancelAfter : Option Nat} {doc : Document} {path stamp : String}
  {targets : List SecretField} {w start after : World} {result : Except Failure Report} {moment : Moment} {mode : Nat}
  {locked : FileTree}

/-! ## Trying names -/

/-- Names are tried one after the other as long as they are taken. The next one decides: a copy is made under it or it cannot be; or
there is none any more. -/
theorem backupFrom_stops {content : Bytes} (hfile : w.files.stat w.here path = .ok (.file content mode)) (stamp : String)
    (room attempt : Nat) {result : Except Failure String}
    (h : outcome (backupFrom path stamp content mode room attempt) w = (result, after)) :
    ∃ n, attempt ≤ n ∧ (∀ k, attempt ≤ k → k < n → w.copyNew path (backupPath path stamp k) = .error .alreadyExists) ∧
      (n = attempt + room ∧ result = .error (.bulk (.backupFailed path .noFreeBackup)) ∨
        n < attempt + room ∧ (∃ copied, w.copyNew path (backupPath path stamp n) = .ok copied) ∧
          result = .ok (backupPath path stamp n) ∨
        n < attempt + room ∧ ∃ fault, fault ≠ .alreadyExists ∧ w.copyNew path (backupPath path stamp n) = .error fault) := by
  induction room generalizing attempt with
  | zero =>
    obtain ⟨rfl, rfl⟩ := Prod.mk.inj h
    exact ⟨attempt, Nat.le_refl _, fun k hle hlt => absurd hlt (Nat.not_lt.mpr hle), Or.inl ⟨rfl, rfl⟩⟩
  | succ room ih =>
    rw [outcome_backupFrom, ← copyNew_eq hfile] at h
    have hhere : ∀ k, attempt ≤ k → k < attempt → w.copyNew path (backupPath path stamp k) = .error .alreadyExists :=
      fun k hle hlt => absurd hlt (Nat.not_lt.mpr hle)
    split at h
    · rename_i copied hcopied
      obtain ⟨rfl, rfl⟩ := Prod.mk.inj h
      exact ⟨attempt, Nat.le_refl _, hhere, Or.inr (Or.inl ⟨by omega, ⟨copied, hcopied⟩, rfl⟩)⟩
    · rename_i htaken
      obtain ⟨n, hle, hbefore, hcases⟩ := ih (attempt + 1) h
      have hsum : attempt + 1 + room = attempt + (room + 1) := by omega
      rw [hsum] at hcases
      refine ⟨n, by omega, ?_, hcases⟩
      intro k hk hlt
      by_cases heq : k = attempt
      · rw [heq]
        exact htaken
      · exact hbefore k (by omega) hlt
    · rename_i fault hne hfault
      exact ⟨attempt, Nat.le_refl _, hhere, Or.inr (Or.inr ⟨by omega, fault, hne, hfault⟩)⟩

/-- A name of a copy leads to a place for a file. -/
theorem not_mustBeDirectory_of_resolve {tree : FileTree} {here : Location} {attempt : Nat} (hlt : attempt < backupLimit)
    {place : Place} (h : tree.resolve here (backupPath path moment.stamp attempt) = .ok place) : place.mustBeDirectory = false := by
  obtain ⟨place', hplace', hdir⟩ := resolve_backupPath (Nat.le_refl attempt) hlt h
  obtain rfl : place = place' := Except.ok.inj (h.symm.trans hplace')
  exact hdir

/-- A copy of a file can be made under a name exactly when the name is free. -/
theorem isFree_iff_copyNew {content : Bytes} (hfile : w.files.stat w.here path = .ok (.file content mode)) {attempt : Nat}
    (hlt : attempt < backupLimit) :
    w.files.IsFree w.here (backupPath path moment.stamp attempt) ↔
      ∃ copied, w.copyNew path (backupPath path moment.stamp attempt) = .ok copied := by
  constructor
  · rintro ⟨place, hplace, hnone⟩
    exact exists_copyNew hfile hplace hnone (not_mustBeDirectory_of_resolve hlt hplace)
  · rintro ⟨copied, hcopied⟩
    obtain ⟨_, _, -, hcreate⟩ := copyNew_eq_ok_iff.mp hcopied
    exact (gains_of_createNew hcreate).2.1

/-- A name of a copy is free under the lock exactly when it was before. -/
theorem isFree_locked_iff (hlock : w.files.touch w.here (lockPath path) = .ok locked) (hstart : w.Changes locked start)
    (attempt : Nat) :
    start.files.IsFree start.here (backupPath path moment.stamp attempt) ↔
      w.files.IsFree w.here (backupPath path moment.stamp attempt) := by
  rw [hstart.files, hstart.here]
  have hgains := gains_of_touch hlock
  constructor
  · exact hgains.isFree
  · intro hfree
    refine hgains.isFree_of_not_leads hfree fun location hcopy hlocked => ?_
    rw [backupPath_eq] at hcopy
    exact backupEnding_ne_lock moment.stamp attempt (ending_unique (isEnding_backupEnding moment attempt) isEnding_lock hcopy hlocked)

/-- Under the lock of a document a copy of it is made under the first free name, or all names are taken. -/
theorem backup_named (hlock : w.files.touch w.here (lockPath path) = .ok locked) (hstart : w.Changes locked start)
    (hdoc : doc.StandsAt w.files w.here path mode) (hfits : NamesFit path moment w) {result : Except Failure String}
    (h : outcome (backup path moment.stamp) start = (result, after)) :
    (∃ n, IsFirstFree path moment n w ∧ result = .ok (backupPath path moment.stamp n)) ∨
      AllTaken path moment w ∧ ∃ failure, result = .error failure ∧ failure.IsBackup := by
  have hfile := ((standsAt_locked_iff hlock hstart).mpr hdoc).file
  have hplace : ∀ n < backupLimit, ∃ place, start.files.resolve start.here (backupPath path moment.stamp n) = .ok place := by
    intro n hn
    obtain ⟨place, hplace⟩ := hfits n hn
    rw [hstart.files, hstart.here]
    exact ⟨place, (gains_of_touch hlock).resolve_iff.mpr hplace⟩
  -- a name under which no copy can be made because something is there was not free before the lock either
  have hnot : ∀ n < backupLimit, start.copyNew path (backupPath path moment.stamp n) = .error .alreadyExists →
      ¬w.files.IsFree w.here (backupPath path moment.stamp n) := by
    intro n hn htaken hfree
    obtain ⟨copied, hcopied⟩ := (isFree_iff_copyNew hfile hn).mp ((isFree_locked_iff hlock hstart n).mpr hfree)
    rw [htaken] at hcopied
    cases hcopied
  rw [outcome_backup hfile] at h
  obtain ⟨n, -, hbefore, ⟨hn, rfl⟩ | ⟨hn, hcopied, rfl⟩ | ⟨hn, fault, hne, hfault⟩⟩ := backupFrom_stops hfile _ backupLimit 0 h
  · refine Or.inr ⟨?_, _, rfl, path, _, rfl⟩
    intro k hk
    exact hnot k hk (hbefore k (Nat.zero_le _) (by omega))
  · have hlt : n < backupLimit := by omega
    refine Or.inl ⟨n, ⟨hlt, ?_, ?_⟩, rfl⟩
    · exact (isFree_locked_iff hlock hstart n).mp ((isFree_iff_copyNew hfile hlt).mpr hcopied)
    · intro k hk
      exact hnot k (by omega) (hbefore k (Nat.zero_le _) hk)
  · have hlt : n < backupLimit := by omega
    obtain ⟨place, hplace⟩ := hplace n hlt
    rcases copyNew_cases hfile hplace (not_mustBeDirectory_of_resolve hlt hplace) with htaken | ⟨copied, hcopied⟩
    · rw [htaken] at hfault
      exact absurd (Except.error.inj hfault).symm hne
    · rw [hcopied] at hfault
      cases hfault

/-! ## Other failures -/

theorem avoids_load {bad : Failure → Prop} (h : ∀ fault, ¬bad (.document fault)) (path : String) : Avoids bad (Document.load path) := by
  refine (tells_debug _ _).avoids.bind fun _ => (avoids_step _).bind fun found => ?_
  split
  · exact (avoids_attempt (fun fault => h _) _).bind fun raw => avoids_settle (fun fault => h _) _
  · exact avoids_fail (h _)

theorem avoids_checkCancelled (path : String) (done total : Nat) : Avoids Failure.IsBackup (checkCancelled cancelAfter path done total) := by
  rw [checkCancelled]
  split
  · refine (tells_warn _ _).avoids.bind fun _ => avoids_fail ?_
    rintro ⟨path, fault, heq⟩
    cases heq
  · exact avoids_pure ()

theorem avoids_transform (p : Protector) (operation : Operation) (field : SecretField) :
    Avoids Failure.IsBackup (transform p operation field) := by
  cases operation with
  | encrypt =>
    rw [transform, Run.enclose]
    split
    · exact avoids_pure ""
    · exact (avoids_step _).bind fun nonce => avoids_pure _
  | decrypt =>
    refine avoids_settle (fun fault => ?_) _
    rintro ⟨path, fault, heq⟩
    cases heq

theorem avoids_editsFrom (p : Protector) (operation : Operation) (path : String) (total done : Nat) (fields : List SecretField) :
    Avoids Failure.IsBackup (editsFrom p operation cancelAfter path total done fields) := by
  induction fields generalizing done with
  | nil =>
    rw [editsFrom]
    exact (avoids_checkCancelled path done total).bind fun _ => avoids_pure []
  | cons field fields ih =>
    rw [editsFrom]
    refine (avoids_checkCancelled path done total).bind fun _ => ?_
    refine (avoids_transform p operation field).bind fun value => ?_
    exact (tells_debug _ _).avoids.bind fun _ => (ih (done + 1)).bind fun edits => avoids_pure _

/-- Rewriting the secrets of a document does not fail for want of a copy. -/
theorem avoids_rewriteTargets (p : Protector) (operation : Operation) (doc : Document) (path : String) (targets : List SecretField)
    (copy : String) : Avoids Failure.IsBackup (rewriteTargets p operation cancelAfter doc path targets copy) := by
  rw [rewriteTargets]
  refine (avoids_editsFrom p operation path _ 0 targets).bind fun edits => ?_
  refine Avoids.bind (avoids_settle (fun fault => ?_) _) fun edited => ?_
  · rintro ⟨path, fault, heq⟩
    cases heq
  refine (tells_debug _ _).avoids.bind fun _ => Avoids.bind ?_ fun _ => ?_
  · rw [write]
    refine Avoids.bind (avoids_attempt (fun fault => ?_) _) fun _ => (tells_debug _ _).avoids
    rintro ⟨path, fault, heq⟩
    cases heq
  · exact (tells_announce operation path targets.length).avoids.bind fun _ => avoids_pure _

/-- Only a run that goes over the secrets of a document fails for want of a copy. -/
theorem updateTargets_of_isBackup {failure : Failure} (hbackup : failure.IsBackup)
    (h : outcome (updateLocked p operation confirmed cancelAfter path) w = (.error failure, after)) :
    ∃ (doc : Document) (mode : Nat), doc.StandsAt w.files w.here path mode ∧
      operation.targets (Scan.ofDocument doc) ≠ [] ∧ (operation = .decrypt → confirmed = true) := by
  rw [updateLocked] at h
  rcases cases_of_bind h with ⟨failure', hload, heq⟩ | ⟨doc, loaded, hload, hrest⟩
  · obtain rfl := Except.error.inj heq
    refine absurd hbackup (avoids_load (fun fault => ?_) path w failure (by rw [hload]))
    rintro ⟨path, fault, heq⟩
    cases heq
  · obtain ⟨mode, hdoc⟩ := load_eq_ok_iff.mp (congrArg Prod.fst hload)
    dsimp only at hrest
    split at hrest
    · obtain ⟨told, -, hend⟩ := (tells_debug _ _).of_bind hrest
      cases hend
    · rename_i hsome
      refine ⟨doc, mode, hdoc, fun hnil => hsome (List.isEmpty_iff.mpr hnil), ?_⟩
      split at hrest
      · obtain ⟨path, fault, rfl⟩ := hbackup
        cases hrest
      · rename_i hallowed
        intro hop
        cases confirmed with
        | false => exact absurd (by simp [hop]) hallowed
        | true => rfl

/-! ## The run -/

/-- A run over the secrets of a document makes its copy under the first free name, or fails because all names are taken. -/
theorem updateTargets_named (hlock : w.files.touch w.here (lockPath path) = .ok locked) (hstart : w.Changes locked start)
    (hdoc : doc.StandsAt w.files w.here path mode) (hne : operation.targets (Scan.ofDocument doc) ≠ [])
    (hnow : w.now = some moment) (hfits : NamesFit path moment w)
    (h : outcome (updateTargets p operation cancelAfter doc path (operation.targets (Scan.ofDocument doc))) start = (result, after)) :
    (∃ n content bits, IsFirstFree path moment n w ∧ CopyMade path (backupPath path moment.stamp n) content bits w after.files ∧
        (∀ report, result = .ok report → report.backup = some (backupPath path moment.stamp n)) ∧
        ∀ failure, result = .error failure → ¬failure.IsBackup) ∨
      AllTaken path moment w ∧ ∃ failure, result = .error failure ∧ failure.IsBackup := by
  have hclock : start.now = some moment := hstart.now.trans hnow
  rw [updateTargets] at h
  rw [outcome_bind_ok (now_of_eq_some hclock)] at h
  rcases cases_of_bind h with ⟨failure, hbackup, rfl⟩ | ⟨copy, made, hbackup, hmade⟩
  · rcases backup_named hlock hstart hdoc hfits hbackup with ⟨n, -, hok⟩ | ⟨htaken, failure', heq, hfailure⟩
    · cases hok
    · obtain rfl := Except.error.inj heq
      exact Or.inr ⟨htaken, failure, rfl, hfailure⟩
  rcases backup_named hlock hstart hdoc hfits hbackup with ⟨n, hfirst, hok⟩ | ⟨-, failure, hfail, -⟩
  · obtain rfl := Except.ok.inj hok
    rcases backup_cases hclock hbackup with ⟨⟨failure, hfail⟩, -⟩ | ⟨copy, copied, hok, hcopies, hcopied⟩
    · cases hfail
    obtain rfl := Except.ok.inj hok
    obtain ⟨told, htold, hrewrite⟩ := (tells_inform _ _).of_bind hmade
    have havoids : ∀ failure, result = .error failure → ¬failure.IsBackup := by
      intro failure hfailure
      exact avoids_rewriteTargets p operation doc path _ _ told failure (by rw [hrewrite, hfailure])
    rcases rewriteTargets_cases hcopies (hcopied.trans htold) hrewrite with
      ⟨⟨failure, rfl⟩, -, hafter⟩ | ⟨edits, edited, replaced, hwrites, rfl, hafter⟩
    · obtain ⟨-, -, content, bits, hname, hfree, hstat, hheld⟩ := copies_locked hlock hstart hcopies
      rw [hafter.files]
      refine Or.inl ⟨n, content, bits, hfirst, ⟨hname, hfree, hstat, hheld⟩, ?_, havoids⟩
      intro report hreport
      cases hreport
    · obtain ⟨_, old, _, bits, hcopy, -⟩ := replaced_of_writes hlock hstart hdoc hne hwrites
      rw [hafter.files]
      refine Or.inl ⟨n, old, bits, hfirst, hcopy, ?_, ?_⟩
      · intro report hreport
        rw [← Except.ok.inj hreport]
      · intro failure hfailure
        cases hfailure
  · cases hfail

/-- A run that gets its lock and has work makes its copy under the first free name, or fails because all names are taken. -/
theorem update_named (hlock : ∃ locked, w.files.touch w.here (lockPath path) = .ok locked) (hnow : w.now = some moment)
    (hfits : NamesFit path moment w) (hwork : HasWork operation confirmed path w)
    (h : outcome (update p operation confirmed cancelAfter path) w = (result, after)) :
    (∃ n content bits, IsFirstFree path moment n w ∧ CopyMade path (backupPath path moment.stamp n) content bits w after.files ∧
        (∀ report, result = .ok report → report.backup = some (backupPath path moment.stamp n)) ∧
        ∀ failure, result = .error failure → ¬failure.IsBackup) ∨
      AllTaken path moment w ∧ ∃ failure, result = .error failure ∧ failure.IsBackup := by
  obtain ⟨locked, hlock⟩ := hlock
  obtain ⟨doc, mode, hdoc, hne, hallowed⟩ := hwork
  obtain ⟨start, finish, hstart, hbody, hafter⟩ := underLock_of_touch hlock h
  rw [hafter.files]
  have hstands := (standsAt_locked_iff hlock hstart).mpr hdoc
  rcases updateLocked_cases hbody with ⟨-, -, hnone⟩ | ⟨doc', mode', hdoc', hrest⟩
  · exact absurd hstands (hnone doc mode)
  obtain rfl : doc = doc' := hstands.unique hdoc'
  rcases hrest with ⟨hempty, -⟩ | ⟨-, hop, hrefused, -⟩ | ⟨-, -, loaded, hloaded, htargets⟩
  · exact absurd hempty hne
  · rw [hallowed hop] at hrefused
    cases hrefused
  · exact updateTargets_named hlock (hstart.trans hloaded) hdoc hne hnow hfits htargets

/-- A run that gets its lock fails for want of a copy only when it has work. -/
theorem hasWork_of_isBackup {failure : Failure} (hlock : ∃ locked, w.files.touch w.here (lockPath path) = .ok locked)
    (hbackup : failure.IsBackup) (h : outcome (update p operation confirmed cancelAfter path) w = (.error failure, after)) :
    HasWork operation confirmed path w := by
  obtain ⟨locked, hlock⟩ := hlock
  obtain ⟨start, finish, hstart, hbody, -⟩ := underLock_of_touch hlock h
  obtain ⟨doc, mode, hdoc, hne, hallowed⟩ := updateTargets_of_isBackup hbackup hbody
  exact ⟨doc, mode, (standsAt_locked_iff hlock hstart).mp hdoc, hne, hallowed⟩

/-- A run that gets its lock fails for want of a copy exactly when it has work and all names are taken. -/
theorem isBackup_iff (hlock : ∃ locked, w.files.touch w.here (lockPath path) = .ok locked) (hnow : w.now = some moment)
    (hfits : NamesFit path moment w) (h : outcome (update p operation confirmed cancelAfter path) w = (result, after)) :
    (∃ failure, result = .error failure ∧ failure.IsBackup) ↔ HasWork operation confirmed path w ∧ AllTaken path moment w := by
  constructor
  · rintro ⟨failure, rfl, hbackup⟩
    have hwork := hasWork_of_isBackup hlock hbackup h
    rcases update_named hlock hnow hfits hwork h with ⟨n, content, bits, -, -, -, hother⟩ | ⟨htaken, -⟩
    · exact absurd hbackup (hother failure rfl)
    · exact ⟨hwork, htaken⟩
  · rintro ⟨hwork, htaken⟩
    rcases update_named hlock hnow hfits hwork h with ⟨n, content, bits, hfirst, -⟩ | ⟨-, hfailure⟩
    · exact absurd hfirst.free (htaken n hfirst.lt)
    · exact hfailure

end Bulk

end SealedConfig
