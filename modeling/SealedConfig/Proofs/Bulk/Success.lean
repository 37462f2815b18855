import SealedConfig.Proofs.Bulk.Frame

/-!
# Updates that succeed

An update that gets its lock, has a free name for its copy and is not cancelled succeeds, if all it has to open opens; it leaves the
edited document in the file.
-/

namespace SealedConfig.Bulk

open FileTree Run

/-! ## Free names -/

/-- Numbers below the limit of copies have one digit or two. -/
theorem utf8ByteSize_attempt : ∀ n < backupLimit, (toString n).utf8ByteSize = if n < 10 then 1 else 2 := by decide

/-- A name that is tried earlier is not longer. -/
theorem utf8ByteSize_backupEnding_le (stamp : String) {k n : Nat} (hk : k ≤ n) (hn : n < backupLimit) :
    (backupEnding stamp k).utf8ByteSize ≤ (backupEnding stamp n).utf8ByteSize := by
  simp only [backupEnding, String.utf8ByteSize_append, Nat.add_le_add_iff_left]
  by_cases hzero : k = 0
  · rw [if_pos hzero]
    exact Nat.zero_le _
  · rw [if_neg hzero, if_neg (by omega)]
    simp only [String.utf8ByteSize_append, utf8ByteSize_attempt k (by omega), utf8ByteSize_attempt n hn, Nat.add_le_add_iff_left]
    split <;> split <;> omega

/-- When a name that is tried leads somewhere, those tried earlier do too. -/
theorem resolve_backupPath {tree : FileTree} {here : Location} {path : String} {moment : Moment} {k n : Nat} (hk : k ≤ n)
    (hn : n < backupLimit) {place : Place} (h : tree.resolve here (backupPath path moment.stamp n) = .ok place) :
    ∃ place, tree.resolve here (backupPath path moment.stamp k) = .ok place ∧ place.mustBeDirectory = false := by
  rw [backupPath_eq] at h ⊢
  have hle := utf8ByteSize_backupEnding_le moment.stamp hk hn
  obtain ⟨hzero, hlong, hsize, directory, hbase, -⟩ := (resolve_append_eq_ok_iff (isEnding_backupEnding moment n)).mp h
  rw [String.utf8ByteSize_append] at hlong hsize
  refine ⟨_, (resolve_append_eq_ok_iff (isEnding_backupEnding moment k)).mpr ⟨hzero, ?_, ?_, directory, hbase, rfl⟩, rfl⟩
  all_goals
    rw [String.utf8ByteSize_append]
    omega

/-- The clock shows a time, and one of the names that are tried for a copy then is free. -/
def HasFreeName (path : String) (w : World) : Prop :=
  ∃ moment attempt, w.now = some moment ∧ attempt < backupLimit ∧
    w.files.IsFree w.here (backupPath path moment.stamp attempt)

variable {p : Protector} {operation : Operation} {confirmed : Bool} {cancelAfter : Option Nat} {path copy : String}
  {w start : World} {locked copied : FileTree} {doc : Document} {mode : Nat}

/-- At a place where nothing is a copy is made. -/
theorem exists_copyNew {content : Bytes} (hfile : w.files.stat w.here path = .ok (.file content mode)) {place : Place}
    (hplace : w.files.resolve w.here copy = .ok place) (hnone : w.files.get? place.location = none)
    (hdir : place.mustBeDirectory = false) : ∃ copied, w.copyNew path copy = .ok copied :=
  ⟨_, copyNew_eq_ok_iff.mpr ⟨content, mode, hfile, createNew_eq_ok_iff.mpr ⟨place, hplace, hnone, hdir, rfl⟩⟩⟩

/-- At a place of its own a copy is made unless something is there. -/
theorem copyNew_cases {content : Bytes} (hfile : w.files.stat w.here path = .ok (.file content mode)) {place : Place}
    (hplace : w.files.resolve w.here copy = .ok place) (hdir : place.mustBeDirectory = false) :
    w.copyNew path copy = .error .alreadyExists ∨ ∃ copied, w.copyNew path copy = .ok copied := by
  cases hnode : w.files.get? place.location with
  | none => exact Or.inr (exists_copyNew hfile hplace hnode hdir)
  | some node =>
    refine Or.inl ?_
    rw [World.copyNew, hfile]
    dsimp only
    rw [createNew, hplace]
    dsimp only
    rw [hnode]

/-- A copy of a document can be made when a name for it is free. -/
theorem hasFreeBackup {content : Bytes} (hfile : w.files.stat w.here path = .ok (.file content mode)) (h : HasFreeName path w) :
    HasFreeBackup w path := by
  obtain ⟨moment, n, hnow, hn, place, hplace, hnone⟩ := h
  refine ⟨moment, hnow, n, hn, ?_, fun k hk => ?_⟩
  · obtain ⟨place', hplace', hdir⟩ := resolve_backupPath (Nat.le_refl n) hn hplace
    obtain rfl : place = place' := Except.ok.inj (hplace.symm.trans hplace')
    exact exists_copyNew hfile hplace hnone hdir
  · obtain ⟨place', hplace', hdir⟩ := resolve_backupPath (Nat.le_of_lt hk) hn hplace
    exact copyNew_cases hfile hplace' hdir

/-- A free name stays free when the lock is taken. -/
theorem hasFreeName_locked (hlock : w.files.touch w.here (lockPath path) = .ok locked)
    (hstart : w.Changes locked start) (h : HasFreeName path w) : HasFreeName path start := by
  obtain ⟨moment, n, hnow, hn, hfree⟩ := h
  refine ⟨moment, n, hstart.now.trans hnow, hn, ?_⟩
  rw [hstart.files, hstart.here]
  refine (gains_of_touch hlock).isFree_of_not_leads hfree fun location hcopy hlocked => ?_
  rw [backupPath_eq] at hcopy
  exact backupEnding_ne_lock moment.stamp n (ending_unique (isEnding_backupEnding moment n) isEnding_lock hcopy hlocked)

/-- A name that is free for a copy at another time is still free after an update. -/
theorem hasFreeName_again {result : Except Failure Report} {after again : World} {moment : Moment} {attempt : Nat}
    (h : outcome (update p operation confirmed cancelAfter path) w = (result, after)) (hattempt : attempt < backupLimit)
    (hfree : w.files.IsFree w.here (backupPath path moment.stamp attempt))
    (hother : ∀ earlier, w.now = some earlier → earlier.stamp ≠ moment.stamp) (hfiles : again.files = after.files)
    (hhere : again.here = after.here) (hnow : again.now = some moment) : HasFreeName path again := by
  refine ⟨moment, attempt, hnow, hattempt, ?_⟩
  rw [hfiles, hhere, (update_cases h).1]
  refine isFree_of_update h hfree fun location hl => ?_
  rw [backupPath_eq] at hl
  refine ⟨fun hlock => ?_, ?_⟩
  · exact backupEnding_ne_lock moment.stamp attempt (ending_unique (isEnding_backupEnding moment attempt) isEnding_lock hl hlock)
  · rintro copy ⟨earlier, number, hearlier, -, rfl⟩ hcopy
    rw [backupPath_eq] at hcopy
    have heq := ending_unique (isEnding_backupEnding earlier number) (isEnding_backupEnding moment attempt) hcopy hl
    exact hother earlier hearlier (stamp_eq_of_backupEnding_eq heq)

/-! ## The update -/

/-- A run over the secrets of a document that has a free name and is not cancelled is ready when all it has to open opens. -/
theorem ready_of_free (hlock : w.files.touch w.here (lockPath path) = .ok locked)
    (hstart : w.Changes locked start) (hdoc : doc.StandsAt w.files w.here path mode)
    (hname : HasFreeName path w) (hcancel : isCancelled cancelAfter (operation.targets (Scan.ofDocument doc)).length = false)
    (hopens : operation = .decrypt → ∀ field ∈ operation.targets (Scan.ofDocument doc),
      ∃ text, Envelope.disclose p field.value = .ok text) :
    Ready p operation cancelAfter doc path (operation.targets (Scan.ofDocument doc)) start where
  free := hasFreeBackup ((standsAt_locked_iff hlock hstart).mpr hdoc).file (hasFreeName_locked hlock hstart hname)
  notCancelled := hcancel
  opens := hopens
  editable edits h := by
    obtain ⟨sp, hr, ht⟩ := doc.exists_spelling
    obtain ⟨edited, hok, -⟩ := Document.replaceStrings_eq_ok hr ht (h.nodup doc.hasDistinctKeys) (h.isSome doc.hasDistinctKeys)
    exact ⟨edited, hok⟩
  writable copy copied content h := by
    obtain ⟨-, htarget, -⟩ := copies_locked hlock hstart h
    rw [hdoc.file] at htarget
    rw [hstart.here]
    exact exists_replace htarget content

/-- Nothing hinders an update of so many secrets: its lock can be had, a name for its copy is free, and it is not cancelled. -/
structure Unhindered (cancelAfter : Option Nat) (path : String) (count : Nat) (w : World) : Prop where
  lock : ∃ locked, w.files.touch w.here (lockPath path) = .ok locked
  name : HasFreeName path w
  notCancelled : isCancelled cancelAfter count = false

/-- An update has edited a document: what it made of the secrets, the document that came of it and stands in the file now, and the
report of it. The lock is there. -/
structure Edited (p : Protector) (operation : Operation) (doc : Document) (path : String) (mode : Nat) (w : World)
    (report : Report) (after : World) (edits : List Edit) (edited : Document) : Prop where
  rewrites : Rewrites p operation (operation.targets (Scan.ofDocument doc)) edits
  replaced : doc.replaceStrings edits = .ok edited
  fields : report.fields = edits.map fun edit => edit.1.display
  stands : edited.StandsAt after.files w.here path mode
  here : after.here = w.here
  lock : after.files.touch w.here (lockPath path) = .ok after.files

/-- The lock is still there when the document is written. -/
theorem touch_replaced (hlock : w.files.touch w.here (lockPath path) = .ok locked)
    (hstart : w.Changes locked start) (hdoc : doc.StandsAt w.files w.here path mode)
    (h : Copies start path copy copied) {bytes : Bytes} {replaced : FileTree}
    (hreplace : copied.replace w.here path bytes = .ok replaced) :
    replaced.touch w.here (lockPath path) = .ok replaced ∧ replaced.stat w.here path = .ok (.file bytes mode) := by
  obtain ⟨hgains, htarget, -⟩ := copies_locked hlock hstart h
  rw [hdoc.file] at htarget
  obtain ⟨location, hleads, hfile, rfl, hnew⟩ := of_replace htarget hreplace
  refine ⟨?_, hnew⟩
  obtain ⟨content, bits, hheld⟩ := stat_of_touch hlock
  have hcopied : copied.stat w.here (lockPath path) = .ok (.file content bits) := by
    obtain ⟨_, _, hstat, hcreate⟩ := copyNew_eq_ok_iff.mp h.made
    rw [hstart.files] at hcreate
    exact (gains_of_createNew hcreate).1.stat_eq_file hheld
  refine touch_of_stat (stat_set_other hfile hcopied fun hl => ?_)
  exact (isBeside_lock (hgains.leads_iff.mp hl)).not_leads (hgains.leads_iff.mp hleads)

/-- A run over the secrets of a document under its lock that is ready succeeds. -/
theorem updateLocked_succeeds (hlock : w.files.touch w.here (lockPath path) = .ok locked)
    (hstart : w.Changes locked start) (hdoc : doc.StandsAt w.files w.here path mode)
    (hready : ∀ loaded, w.Changes locked loaded →
      Ready p operation cancelAfter doc path (operation.targets (Scan.ofDocument doc)) loaded)
    (hconfirmed : operation = .decrypt → confirmed = true) {result : Except Failure Report} {after : World}
    (h : outcome (updateLocked p operation confirmed cancelAfter path) start = (result, after)) :
    ∃ report, result = .ok report := by
  have hstands : doc.StandsAt start.files start.here path mode := (standsAt_locked_iff hlock hstart).mpr hdoc
  rcases updateLocked_cases h with ⟨-, -, hnone⟩ | ⟨doc', mode', hdoc', hrest⟩
  · exact absurd hstands (hnone doc mode)
  obtain rfl : doc = doc' := hstands.unique hdoc'
  rcases hrest with ⟨-, hidle, -⟩ | ⟨-, hop, hrefused, -⟩ | ⟨-, -, loaded, hloaded, hrest⟩
  · exact ⟨_, hidle⟩
  · rw [hconfirmed hop] at hrefused
    cases hrefused
  · rcases updateTargets_cases hrest with ⟨-, hnot, -⟩ | ⟨_, _, _, _, -, hok, -⟩
    · exact absurd (hready loaded (hstart.trans hloaded)) hnot
    · exact ⟨_, hok⟩

/-- A run over a document under its lock that succeeds has edited it. -/
theorem edited_of_updateLocked (hlock : w.files.touch w.here (lockPath path) = .ok locked) (hstart : w.Changes locked start)
    {report : Report} {after : World}
    (h : outcome (updateLocked p operation confirmed cancelAfter path) start = (.ok report, after)) :
    ∃ (doc : Document) (mode : Nat) (edits : List Edit) (edited : Document), doc.StandsAt w.files w.here path mode ∧
      Edited p operation doc path mode w report after edits edited := by
  rcases updateLocked_cases h with ⟨⟨_, hfail⟩, -⟩ | ⟨doc, mode, hstands, hrest⟩
  · cases hfail
  have hdoc : doc.StandsAt w.files w.here path mode := (standsAt_locked_iff hlock hstart).mp hstands
  rcases hrest with ⟨hempty, hidle, hquiet⟩ | ⟨-, -, -, ⟨_, hfail⟩, -⟩ | ⟨-, -, loaded, hloaded, hrest⟩
  · obtain rfl := Except.ok.inj hidle
    obtain ⟨content, bits, hheld⟩ := stat_of_touch hlock
    refine ⟨doc, mode, [], doc, hdoc, ?_, rfl, rfl, ?_, hquiet.here.trans hstart.here, ?_⟩
    · rw [hempty]
      exact .nil
    · rw [hquiet.files, ← hstart.here]
      exact hstands
    · rw [hquiet.files, hstart.files]
      exact touch_of_stat hheld
  · cases hfail
  · rcases updateTargets_cases hrest with ⟨⟨_, hfail⟩, -⟩ | ⟨copy, edits, edited, replaced, hwrites, hok, hafter⟩
    · cases hfail
    obtain rfl := Except.ok.inj hok
    obtain ⟨copied, hcopies, hreplace⟩ := hwrites.copies
    rw [hloaded.here, hstart.here] at hreplace
    obtain ⟨hlocked, hnew⟩ := touch_replaced hlock (hstart.trans hloaded) hdoc hcopies hreplace
    have hhere : after.here = w.here := hafter.here.trans (hloaded.here.trans hstart.here)
    refine ⟨doc, mode, edits, edited, hdoc, hwrites.rewrites, hwrites.edited, rfl, ?_, hhere, ?_⟩
    · rw [hafter.files]
      exact ⟨hnew, (Document.path_of_replaceStrings hwrites.edited).trans hdoc.source⟩
    · rw [hafter.files]
      exact hlocked

/-- An update that succeeds has edited the document that stood in the file. -/
theorem edited_of_update {report : Report} {after : World}
    (h : outcome (update p operation confirmed cancelAfter path) w = (.ok report, after)) :
    ∃ (doc : Document) (mode : Nat) (edits : List Edit) (edited : Document), doc.StandsAt w.files w.here path mode ∧
      Edited p operation doc path mode w report after edits edited := by
  rcases underLock_cases h with ⟨⟨_, hfail⟩, -⟩ | ⟨locked, start, finish, hlock, hstart, hbody, hafter⟩
  · cases hfail
  obtain ⟨doc, mode, edits, edited, hdoc, hedited⟩ := edited_of_updateLocked hlock hstart hbody
  have hhere : after.here = w.here := hafter.here.trans hedited.here
  refine ⟨doc, mode, edits, edited, hdoc, hedited.rewrites, hedited.replaced, hedited.fields, ?_, hhere, ?_⟩
  · rw [hafter.files]
    exact hedited.stands
  · rw [hafter.files]
    exact hedited.lock

/-- An update that nothing hinders edits the document, if all it has to open opens. -/
theorem update_edits (p : Protector) (operation : Operation) (confirmed : Bool)
    (h : Unhindered cancelAfter path (operation.targets (Scan.ofDocument doc)).length w)
    (hdoc : doc.StandsAt w.files w.here path mode) (hconfirmed : operation = .decrypt → confirmed = true)
    (hopens : operation = .decrypt → ∀ field ∈ operation.targets (Scan.ofDocument doc),
      ∃ text, Envelope.disclose p field.value = .ok text) :
    ∃ report after edits edited, outcome (update p operation confirmed cancelAfter path) w = (.ok report, after) ∧
      Edited p operation doc path mode w report after edits edited := by
  obtain ⟨⟨locked, hlock⟩, hname, hcancel⟩ := h
  rcases hrun : outcome (update p operation confirmed cancelAfter path) w with ⟨result, after⟩
  obtain ⟨start, finish, hstart, hbody, -⟩ := underLock_of_touch hlock hrun
  obtain ⟨report, rfl⟩ := updateLocked_succeeds hlock hstart hdoc
    (fun loaded hloaded => ready_of_free hlock hloaded hdoc hname hcancel hopens) hconfirmed hbody
  obtain ⟨doc', mode', edits, edited, hdoc', hedited⟩ := edited_of_update hrun
  obtain rfl : doc = doc' := hdoc.unique hdoc'
  obtain rfl : mode = mode' := hdoc.unique_mode hdoc'
  exact ⟨report, after, edits, edited, rfl, hedited⟩

/-! ## Updates that find nothing to do -/

/-- An update whose lock is there and that finds nothing to do changes no file. -/
theorem update_idle (p : Protector) (operation : Operation) (confirmed : Bool) (cancelAfter : Option Nat)
    (hlock : w.files.touch w.here (lockPath path) = .ok w.files) (hdoc : doc.StandsAt w.files w.here path mode)
    (hnone : operation.targets (Scan.ofDocument doc) = []) :
    ∃ after, outcome (update p operation confirmed cancelAfter path) w = (.ok (Report.idle operation), after) ∧
      after.files = w.files := by
  rcases hrun : outcome (update p operation confirmed cancelAfter path) w with ⟨result, after⟩
  obtain ⟨start, finish, hstart, hbody, hafter⟩ := underLock_of_touch hlock hrun
  have hstands : doc.StandsAt start.files start.here path mode := (standsAt_locked_iff hlock hstart).mpr hdoc
  rcases updateLocked_cases hbody with ⟨-, -, hmissing⟩ | ⟨doc', mode', hdoc', hrest⟩
  · exact absurd hstands (hmissing doc mode)
  obtain rfl : doc = doc' := hstands.unique hdoc'
  rcases hrest with ⟨-, rfl, hquiet⟩ | ⟨hsome, -⟩ | ⟨hsome, -⟩
  · exact ⟨after, rfl, hafter.files.trans (hquiet.files.trans hstart.files)⟩
  · exact absurd hnone hsome
  · exact absurd hnone hsome

/-- An update that reports that nothing was done found nothing to do. -/
theorem targets_eq_nil_of_idle (hdoc : doc.StandsAt w.files w.here path mode) {after : World}
    (h : outcome (update p operation confirmed cancelAfter path) w = (.ok (Report.idle operation), after)) :
    operation.targets (Scan.ofDocument doc) = [] := by
  obtain ⟨doc', mode', edits, edited, hdoc', hedited⟩ := edited_of_update h
  obtain rfl : doc = doc' := hdoc.unique hdoc'
  have hedits : edits = [] := List.map_eq_nil_iff.mp hedited.fields.symm
  have hpaths := hedited.rewrites.paths
  rw [hedits, List.map_nil] at hpaths
  exact List.map_eq_nil_iff.mp hpaths.symm

/-- Whoever updates the document in a file again finds nothing to do, makes no copy and changes no file. -/
def UpdatesIdly (operation : Operation) (path : String) (w : World) : Prop :=
  ∀ (p : Protector) (confirmed : Bool) (cancelAfter : Option Nat) (again : World), again.files = w.files → again.here = w.here →
    ∃ last, outcome (update p operation confirmed cancelAfter path) again = (.ok (Report.idle operation), last) ∧
      last.files = w.files

/-- A document whose lock is there is updated idly just when it has nothing that the operation is for. -/
theorem updatesIdly_iff (hlock : w.files.touch w.here (lockPath path) = .ok w.files)
    (hdoc : doc.StandsAt w.files w.here path mode) :
    UpdatesIdly operation path w ↔ operation.targets (Scan.ofDocument doc) = [] := by
  constructor
  · intro h
    obtain ⟨last, hrun, -⟩ := h ⟨Protector.configSecrets, []⟩ true none w rfl rfl
    exact targets_eq_nil_of_idle hdoc hrun
  · intro hnone p confirmed cancelAfter again hfiles hhere
    rw [← hfiles, ← hhere] at hdoc hlock
    obtain ⟨last, hrun, hlast⟩ := update_idle p operation confirmed cancelAfter hlock hdoc hnone
    exact ⟨last, hrun, hlast.trans hfiles⟩

end SealedConfig.Bulk
