import SealedConfig.Proofs.Bulk.Steps

/-!
# How far an update gets

An update stops before its copy is made, behind it or not at all, and only a run that is not ready for what comes stops.
-/

namespace SealedConfig.Bulk

open Run

/-- A name that a run in a world tries for its copy of a document. -/
def IsBackupName (w : World) (path copy : String) : Prop :=
  ∃ moment attempt, w.now = some moment ∧ attempt < backupLimit ∧ copy = backupPath path moment.stamp attempt

/-- The copy of a document that a run makes. -/
structure Copies (w : World) (path copy : String) (copied : FileTree) : Prop where
  named : IsBackupName w path copy
  made : w.copyNew path copy = .ok copied

/-- The clock shows a time for which a copy can be made: one of the names that are tried can be made, and those tried before it are
taken, if they cannot be made too. -/
def HasFreeBackup (w : World) (path : String) : Prop :=
  ∃ moment, w.now = some moment ∧ ∃ n < backupLimit,
    (∃ copied, w.copyNew path (backupPath path moment.stamp n) = .ok copied) ∧
      ∀ k < n, w.copyNew path (backupPath path moment.stamp k) = .error .alreadyExists ∨
        ∃ copied, w.copyNew path (backupPath path moment.stamp k) = .ok copied

/-- A run over the secrets of a document meets nothing that stops it. -/
structure Ready (p : Protector) (operation : Operation) (cancelAfter : Option Nat) (doc : Document) (path : String)
    (targets : List SecretField) (w : World) : Prop where
  free : HasFreeBackup w path
  notCancelled : isCancelled cancelAfter targets.length = false
  opens : operation = .decrypt → ∀ field ∈ targets, ∃ text, Envelope.disclose p field.value = .ok text
  editable : ∀ edits, Rewrites p operation targets edits → ∃ edited, doc.replaceStrings edits = .ok edited
  writable : ∀ copy copied content, Copies w path copy copied → ∃ replaced, copied.replace w.here path content = .ok replaced

/-- A run over the secrets of a document that has written it: the copy made before, the edits, and the files after. -/
structure Writes (p : Protector) (operation : Operation) (doc : Document) (path : String) (targets : List SecretField) (w : World)
    (copy : String) (edits : List Edit) (edited : Document) (replaced : FileTree) : Prop where
  copies : ∃ copied, Copies w path copy copied ∧ copied.replace w.here path (Bytes.ofText edited.raw) = .ok replaced
  rewrites : Rewrites p operation targets edits
  edited : doc.replaceStrings edits = .ok edited

variable {p : Protector} {operation : Operation} {confirmed : Bool} {cancelAfter : Option Nat} {doc : Document} {path : String}
  {targets : List SecretField} {w after : World} {result : Except Failure Report}

/-- A copy is made under a name that is tried, or none is made, which happens only when none can be. -/
theorem backup_cases {moment : Moment} (hnow : w.now = some moment) {result : Except Failure String}
    (h : outcome (backup path moment.stamp) w = (result, after)) :
    (∃ failure, result = .error failure) ∧ after = w ∧ ¬HasFreeBackup w path ∨
      ∃ copy copied, result = .ok copy ∧ Copies w path copy copied ∧ w.Changes copied after := by
  by_cases hfile : ∃ content mode, w.files.stat w.here path = .ok (.file content mode)
  · obtain ⟨content, mode, hfile⟩ := hfile
    rw [outcome_backup hfile] at h
    rcases backupFrom_cases hfile moment.stamp backupLimit 0 h with ⟨⟨failure, rfl⟩, rfl⟩ | ⟨n, copied, hn, rfl, hmade, rfl⟩
    · refine Or.inl ⟨⟨failure, rfl⟩, rfl, ?_⟩
      rintro ⟨moment', hnow', n, hn, hfree, hbefore⟩
      obtain rfl : moment = moment' := Option.some.inj (hnow.symm.trans hnow')
      obtain ⟨copy, after', hok⟩ := backupFrom_ok hfile moment.stamp backupLimit 0 (Nat.zero_le n) (by omega) hfree hbefore
      rw [hok] at h
      cases h
    · exact Or.inr ⟨_, copied, rfl, ⟨⟨moment, n, hnow, by omega, rfl⟩, hmade⟩, .set w copied⟩
  · obtain ⟨fault, hfail, hcopy⟩ := outcome_backup_error (fun content mode hnode => hfile ⟨content, mode, hnode⟩) moment.stamp
    obtain ⟨rfl, rfl⟩ := Prod.mk.inj (h.symm.trans hfail)
    refine Or.inl ⟨⟨_, rfl⟩, rfl, ?_⟩
    rintro ⟨moment', -, n, -, ⟨copied, hcopied⟩, -⟩
    rw [hcopy] at hcopied
    cases hcopied

/-- The time of day is had when the clock shows it. -/
theorem now_of_eq_some {moment : Moment} (h : w.now = some moment) : outcome Run.now w = (.ok moment, w) := by
  rw [outcome_now, h]
  rfl

/-- A time of day that was had is the one that the clock shows. -/
theorem now_ok {moment : Moment} (h : outcome Run.now w = (.ok moment, after)) : after = w ∧ w.now = some moment := by
  rw [outcome_now] at h
  obtain ⟨hok, rfl⟩ := Prod.mk.inj h
  cases hnow : w.now with
  | none =>
    rw [hnow] at hok
    cases hok
  | some shown =>
    rw [hnow] at hok
    exact ⟨rfl, congrArg some (Except.ok.inj hok)⟩

/-- Where no time of day was had the clock shows none. -/
theorem now_error {failure : Failure} (h : outcome Run.now w = (.error failure, after)) : after = w ∧ w.now = none := by
  rw [outcome_now] at h
  obtain ⟨herror, rfl⟩ := Prod.mk.inj h
  cases hnow : w.now with
  | none => exact ⟨rfl, rfl⟩
  | some shown =>
    rw [hnow] at herror
    cases herror

/-- That a document was updated is only told. -/
theorem tells_announce (operation : Operation) (path : String) (total : Nat) : Tells (announce operation path total) := by
  cases operation
  · exact tells_inform _ _
  · exact tells_warn _ _

/-- In a run that is ready every secret is rewritten. -/
theorem Ready.exists_edits (h : Ready p operation cancelAfter doc path targets w) {start : World}
    {edits : Except Failure (List Edit)}
    (hedits : outcome (editsFrom p operation cancelAfter path targets.length 0 targets) start = (edits, after)) :
    ∃ done, edits = .ok done := by
  obtain ⟨-, ⟨done, hok, -⟩ | ⟨-, hc | ⟨hop, field, hf, fault, hfault⟩⟩⟩ :=
    editsFrom_cases p operation cancelAfter path _ 0 targets hedits
  · exact ⟨done, hok⟩
  · rw [Nat.zero_add, h.notCancelled] at hc
    cases hc
  · obtain ⟨text, htext⟩ := h.opens hop field hf
    rw [htext] at hfault
    cases hfault

/-- A document of which a copy was made is edited and written, or the run stops because it is not ready. -/
theorem rewriteTargets_cases {copy : String} {copied : FileTree} (hcopies : Copies w path copy copied) {start : World}
    (hstart : w.Changes copied start)
    (h : outcome (rewriteTargets p operation cancelAfter doc path targets copy) start = (result, after)) :
    (∃ failure, result = .error failure) ∧ ¬Ready p operation cancelAfter doc path targets w ∧
        w.Changes copied after ∨
      ∃ edits edited replaced, Writes p operation doc path targets w copy edits edited replaced ∧
        result = .ok ⟨operation, edits.map fun edit => edit.1.display, some copy⟩ ∧
        w.Changes replaced after := by
  rw [rewriteTargets] at h
  rcases cases_of_bind h with ⟨failure, hedits, rfl⟩ | ⟨edits, middle, hedits, hedit⟩
  · obtain ⟨hagree, -⟩ := editsFrom_cases p operation cancelAfter path _ 0 targets hedits
    refine Or.inl ⟨⟨failure, rfl⟩, fun hready => ?_, hstart.trans hagree⟩
    obtain ⟨edits, hok⟩ := hready.exists_edits hedits
    cases hok
  obtain ⟨hagree, ⟨edits', hok, hrewrites⟩ | ⟨⟨_, hfail⟩, -⟩⟩ := editsFrom_cases p operation cancelAfter path _ 0 targets hedits
  · obtain rfl := Except.ok.inj hok
    have hmiddle : w.Changes copied middle := hstart.trans hagree
    rw [outcome_bind, outcome_settle] at hedit
    cases hedited : doc.replaceStrings edits with
    | error fault =>
      rw [hedited] at hedit
      obtain ⟨rfl, rfl⟩ := Prod.mk.inj hedit
      refine Or.inl ⟨⟨_, rfl⟩, fun hready => ?_, hmiddle⟩
      obtain ⟨edited, hok⟩ := hready.editable edits hrewrites
      rw [hok] at hedited
      cases hedited
    | ok edited =>
      rw [hedited] at hedit
      obtain ⟨told, htold, hwrite⟩ := (tells_debug _ _).of_bind hedit
      have htold : w.Changes copied told := hmiddle.trans htold
      rcases cases_of_bind hwrite with ⟨failure, hfail, rfl⟩ | ⟨_, written, hok, hannounce⟩
      · rcases write_cases path edited.raw hfail with ⟨-, hagree, fault, hfault⟩ | ⟨hok, -⟩
        · refine Or.inl ⟨⟨failure, rfl⟩, fun hready => ?_, htold.trans hagree⟩
          obtain ⟨replaced, hok⟩ := hready.writable copy copied (Bytes.ofText edited.raw) hcopies
          rw [htold.files, htold.here, hok] at hfault
          cases hfault
        · cases hok
      · rcases write_cases path edited.raw hok with ⟨⟨_, hfail⟩, -⟩ | ⟨-, replaced, hreplaced, hagree⟩
        · cases hfail
        · rw [htold.files, htold.here] at hreplaced
          obtain ⟨announced, hagree', hend⟩ := (tells_announce operation path targets.length).of_bind hannounce
          obtain ⟨rfl, rfl⟩ := Prod.mk.inj hend
          have hwritten : w.Changes replaced written := htold.change hagree
          exact Or.inr
            ⟨edits, edited, replaced, ⟨⟨copied, hcopies, hreplaced⟩, hrewrites, hedited⟩, rfl, hwritten.trans hagree'⟩
  · cases hfail

/-- A run over the secrets of a document stops before its copy is made, behind it or not at all. -/
theorem updateTargets_cases
    (h : outcome (updateTargets p operation cancelAfter doc path targets) w = (result, after)) :
    (∃ failure, result = .error failure) ∧ ¬Ready p operation cancelAfter doc path targets w ∧
        (w.Agrees after ∨ ∃ copy copied, Copies w path copy copied ∧ w.Changes copied after) ∨
      ∃ copy edits edited replaced, Writes p operation doc path targets w copy edits edited replaced ∧
        result = .ok ⟨operation, edits.map fun edit => edit.1.display, some copy⟩ ∧
        w.Changes replaced after := by
  rw [updateTargets] at h
  rcases cases_of_bind h with ⟨failure, hnow, rfl⟩ | ⟨moment, clocked, hnow, hrest⟩
  · obtain ⟨rfl, hnone⟩ := now_error hnow
    refine Or.inl ⟨⟨failure, rfl⟩, fun hready => ?_, Or.inl (.refl _)⟩
    obtain ⟨moment, hsome, -⟩ := hready.free
    rw [hnone] at hsome
    cases hsome
  obtain ⟨rfl, hclock⟩ := now_ok hnow
  rcases cases_of_bind hrest with ⟨failure, hbackup, rfl⟩ | ⟨copy, made, hbackup, hmade⟩
  · rcases backup_cases hclock hbackup with ⟨-, rfl, hfree⟩ | ⟨copy, copied, hok, -⟩
    · exact Or.inl ⟨⟨failure, rfl⟩, fun hready => hfree hready.free, Or.inl (.refl _)⟩
    · cases hok
  rcases backup_cases hclock hbackup with ⟨⟨_, hfail⟩, -⟩ | ⟨copy', copied, hok, hcopies, hcopied⟩
  · cases hfail
  obtain rfl := Except.ok.inj hok
  obtain ⟨told, htold, hrewrite⟩ := (tells_inform _ _).of_bind hmade
  rcases rewriteTargets_cases hcopies (hcopied.trans htold) hrewrite with
    ⟨hfail, hready, hagree⟩ | ⟨edits, edited, replaced, hrest⟩
  · exact Or.inl ⟨hfail, hready, Or.inr ⟨copy, copied, hcopies, hagree⟩⟩
  · exact Or.inr ⟨copy, edits, edited, replaced, hrest⟩

/-- An update whose lock is held stops when there is no document or decrypting is not confirmed, is done when there are no secrets
for it, and else goes over them. -/
theorem updateLocked_cases (h : outcome (updateLocked p operation confirmed cancelAfter path) w = (result, after)) :
    (∃ failure, result = .error failure) ∧ w.Agrees after ∧
        (∀ (doc : Document) (mode : Nat), ¬doc.StandsAt w.files w.here path mode) ∨
      ∃ (doc : Document) (mode : Nat), doc.StandsAt w.files w.here path mode ∧
        (operation.targets (Scan.ofDocument doc) = [] ∧ result = .ok (Report.idle operation) ∧ w.Agrees after ∨
          operation.targets (Scan.ofDocument doc) ≠ [] ∧ operation = .decrypt ∧ confirmed = false ∧
            (∃ failure, result = .error failure) ∧ w.Agrees after ∨
          operation.targets (Scan.ofDocument doc) ≠ [] ∧ (operation = .decrypt → confirmed = true) ∧
            ∃ start, w.Agrees start ∧
              outcome (updateTargets p operation cancelAfter doc path (operation.targets (Scan.ofDocument doc))) start =
                (result, after)) := by
  rw [updateLocked] at h
  have hquiet := quiet_load path w
  rcases cases_of_bind h with ⟨failure, hload, rfl⟩ | ⟨doc, start, hload, hrest⟩
  · rw [hload] at hquiet
    refine Or.inl ⟨⟨failure, rfl⟩, hquiet, fun doc mode hstands => ?_⟩
    have hok := load_eq_ok_iff.mpr ⟨mode, hstands⟩
    rw [hload] at hok
    cases hok
  · rw [hload] at hquiet
    obtain ⟨mode, hstands⟩ := load_eq_ok_iff.mp (congrArg Prod.fst hload)
    refine Or.inr ⟨doc, mode, hstands, ?_⟩
    dsimp only at hrest
    split at hrest
    · rename_i hempty
      obtain ⟨told, htold, hend⟩ := (tells_debug _ _).of_bind hrest
      obtain ⟨rfl, rfl⟩ := Prod.mk.inj hend
      exact Or.inl ⟨List.isEmpty_iff.mp hempty, rfl, hquiet.trans htold⟩
    · rename_i hsome
      have htargets : operation.targets (Scan.ofDocument doc) ≠ [] := fun h => hsome (List.isEmpty_iff.mpr h)
      split at hrest
      · rename_i hrefused
        obtain ⟨rfl, rfl⟩ := Prod.mk.inj hrest
        simp only [Bool.and_eq_true, decide_eq_true_eq, Bool.not_eq_true'] at hrefused
        exact Or.inr (Or.inl ⟨htargets, hrefused.1, hrefused.2, ⟨_, rfl⟩, hquiet⟩)
      · rename_i hallowed
        refine Or.inr (Or.inr ⟨htargets, fun hop => ?_, start, hquiet, hrest⟩)
        cases confirmed
        · exact absurd (by simp [hop]) hallowed
        · rfl

/-- What is told when the lock of a document is taken or left. -/
def lockEvent (path message : String) : Log.Event := ⟨.debugging, message, [Log.plain "path" (lockPath path)]⟩

/-- What runs while a lock is held. -/
def held {m : Type → Type} [Host m] {α : Type} (path : String) (body : Run m α) : m (Except Failure α) := do
  Host.log (lockEvent path "lock acquired")
  let result ← body.run
  Host.log (lockEvent path "lock released")
  return result

/-- A lock is had by touching its file. -/
theorem withLock_held {α : Type} (path : String) (body : Run (StateM World) α) (w : World) :
    Host.withLock (lockPath path) (held path body) w =
      match w.files.touch w.here (lockPath path) with
      | .error fault => (.error fault, w)
      | .ok locked => (.ok (held path body { w with files := locked }).1, (held path body { w with files := locked }).2) := rfl

/-- What runs under a lock come to: two events are told around them, whatever runs. -/
theorem outcome_underLock {α : Type} (path : String) (body : Run (StateM World) α) (w : World) :
    outcome (underLock path body) w =
      match w.files.touch w.here (lockPath path) with
      | .error fault => (.error (.bulk (.locked (lockPath path) fault)), w)
      | .ok locked =>
        ((outcome body (World.tell { w with files := locked } (lockEvent path "lock acquired"))).1,
          (outcome body (World.tell { w with files := locked } (lockEvent path "lock acquired"))).2.tell
            (lockEvent path "lock released")) := by
  have hunder : underLock path body =
      attempt (fun fault => .bulk (.locked (lockPath path) fault)) (Host.withLock (lockPath path) (held path body)) >>=
        settle id := rfl
  have hheld (w : World) : held path body w = ((outcome body (w.tell (lockEvent path "lock acquired"))).1,
      (outcome body (w.tell (lockEvent path "lock acquired"))).2.tell (lockEvent path "lock released")) := rfl
  rw [hunder, outcome_bind, outcome_attempt, withLock_held]
  cases w.files.touch w.here (lockPath path) with
  | error fault => rfl
  | ok locked =>
    dsimp only
    rw [hheld]
    cases (outcome body (World.tell { w with files := locked } (lockEvent path "lock acquired"))).1 with
    | error failure => rfl
    | ok value => rfl

/-- Runs that come to the same behind the lock come to the same under it. -/
theorem underLock_congr {α : Type} {x y : Run (StateM World) α}
    (h : ∀ {locked start}, w.files.touch w.here (lockPath path) = .ok locked → w.Changes locked start →
      outcome x start = outcome y start) : outcome (underLock path x) w = outcome (underLock path y) w := by
  rw [outcome_underLock, outcome_underLock]
  cases htouch : w.files.touch w.here (lockPath path) with
  | error fault => rfl
  | ok locked =>
    have hstart : w.Changes locked (World.tell { w with files := locked } (lockEvent path "lock acquired")) :=
      (World.Changes.set w locked).trans (World.agrees_tell _ _)
    dsimp only
    rw [h htouch hstart]

/-- What runs under a lock finds the lock's file touched; it does not run when that file cannot be had. -/
theorem underLock_cases {α : Type} {body : Run (StateM World) α} {result : Except Failure α}
    (h : outcome (underLock path body) w = (result, after)) :
    (∃ failure, result = .error failure) ∧ after = w ∧ (∃ fault, w.files.touch w.here (lockPath path) = .error fault) ∨
      ∃ locked start finish, w.files.touch w.here (lockPath path) = .ok locked ∧ w.Changes locked start ∧
        outcome body start = (result, finish) ∧ finish.Agrees after := by
  rw [outcome_underLock] at h
  cases htouch : w.files.touch w.here (lockPath path) with
  | error fault =>
    rw [htouch] at h
    obtain ⟨rfl, rfl⟩ := Prod.mk.inj h
    exact Or.inl ⟨⟨_, rfl⟩, rfl, fault, rfl⟩
  | ok locked =>
    rw [htouch] at h
    obtain ⟨rfl, rfl⟩ := Prod.mk.inj h
    exact Or.inr ⟨locked, _, _, rfl, (World.Changes.set w locked).trans (World.agrees_tell _ _), rfl, World.agrees_tell _ _⟩

/-- What runs under a lock runs when the lock's file can be had. -/
theorem underLock_of_touch {α : Type} {body : Run (StateM World) α} {result : Except Failure α} {locked : FileTree}
    (hlock : w.files.touch w.here (lockPath path) = .ok locked) (h : outcome (underLock path body) w = (result, after)) :
    ∃ start finish, w.Changes locked start ∧ outcome body start = (result, finish) ∧ finish.Agrees after := by
  rcases underLock_cases h with ⟨-, -, fault, hfault⟩ | ⟨locked', start, finish, hlock', hrest⟩
  · rw [hlock] at hfault
    cases hfault
  · obtain rfl : locked = locked' := Except.ok.inj (hlock.symm.trans hlock')
    exact ⟨start, finish, hrest⟩

end SealedConfig.Bulk
