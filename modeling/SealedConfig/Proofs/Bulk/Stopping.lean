import SealedConfig.Proofs.Bulk.Decrypting

/-!
# How far an update gets past the secrets

An update goes over the secrets in their order. Those that it gets past are rewritten one after the other, and at the first that does
not open it fails with that secret's fault. A document of which all opens is decrypted as a whole.
-/

namespace SealedConfig.Bulk

open Run

/-- A run gets past secrets when some are done: it is not cancelled before any of them, and all that it has to open opens. -/
structure GetsPast (p : Protector) (operation : Operation) (cancelAfter : Option Nat) (done : Nat) (fields : List SecretField) :
    Prop where
  notCancelled : ∀ k < fields.length, isCancelled cancelAfter (done + k) = false
  opens : operation = .decrypt → ∀ field ∈ fields, ∃ text, Envelope.disclose p field.value = .ok text

variable {p : Protector} {operation : Operation} {confirmed : Bool} {cancelAfter : Option Nat} {path : String} {total done : Nat}
  {doc : Document} {mode : Nat} {field : SecretField} {fields before rest : List SecretField} {w after : World}

/-! ## Going over the secrets -/

/-- Behind the first secret a run gets past the others. -/
theorem GetsPast.tail (h : GetsPast p operation cancelAfter done (field :: fields)) :
    GetsPast p operation cancelAfter (done + 1) fields where
  notCancelled k hk := by
    have hlater := h.notCancelled (k + 1) (by simpa using hk)
    rwa [← Nat.add_assoc, Nat.add_right_comm] at hlater
  opens hop other hmem := h.opens hop other (List.mem_cons_of_mem _ hmem)

/-- What a run gets past is rewritten, and the run goes on with the secrets that are left. -/
theorem editsFrom_append (h : GetsPast p operation cancelAfter done before) {result : Except Failure (List Edit)}
    (hrun : outcome (editsFrom p operation cancelAfter path total done (before ++ rest)) w = (result, after)) :
    ∃ edits begun later, Rewrites p operation before edits ∧ w.Agrees begun ∧
      outcome (editsFrom p operation cancelAfter path total (done + before.length) rest) begun = (later, after) ∧
      result = later.map (edits ++ ·) := by
  induction before generalizing done w result with
  | nil =>
    refine ⟨[], w, result, .nil, .refl w, hrun, ?_⟩
    cases result <;> rfl
  | cons field before ih =>
    rcases editsFrom_cons_cases p operation cancelAfter path total done field (before ++ rest) hrun with
      ⟨-, -, hc | ⟨hop, fault, hfault⟩⟩ | ⟨value, middle, tail, hbecomes, hmiddle, htail, rfl⟩
    · have hnot := h.notCancelled 0 (Nat.succ_pos _)
      rw [Nat.add_zero, hc] at hnot
      cases hnot
    · obtain ⟨text, htext⟩ := h.opens hop field List.mem_cons_self
      rw [htext] at hfault
      cases hfault
    · obtain ⟨edits, begun, later, hrewrites, hbegun, hlater, rfl⟩ := ih h.tail htail
      refine ⟨(field.path, value) :: edits, begun, later, .cons hbecomes hrewrites, hmiddle.trans hbegun, ?_, ?_⟩
      · rwa [List.length_cons, Nat.add_comm before.length, ← Nat.add_assoc]
      · cases later <;> rfl

/-- A run that is not cancelled fails at a secret that does not open. -/
theorem editsFrom_fault (hgoes : isCancelled cancelAfter done = false) {fault : Envelope.Fault}
    (hfault : Envelope.disclose p field.value = .error fault) (w : World) :
    outcome (editsFrom p .decrypt cancelAfter path total done (field :: rest)) w =
      (.error (.bulk (.field .decrypt field.path fault)), w) := by
  have hcheck : outcome (checkCancelled cancelAfter path done total) w = (.ok (), w) := by
    rw [checkCancelled, hgoes]
    rfl
  rw [editsFrom, outcome_bind_ok hcheck, outcome_bind, transform, outcome_settle, hfault]
  rfl

/-- A run that gets past the first secrets fails as it does on the others. -/
theorem editsFrom_append_error (h : GetsPast p operation cancelAfter done before) {failure : Failure}
    (hrest : ∀ begun, ∃ after, outcome (editsFrom p operation cancelAfter path total (done + before.length) rest) begun =
      (.error failure, after)) (w : World) :
    ∃ after, outcome (editsFrom p operation cancelAfter path total done (before ++ rest)) w = (.error failure, after) := by
  rcases hrun : outcome (editsFrom p operation cancelAfter path total done (before ++ rest)) w with ⟨result, after⟩
  obtain ⟨_, begun, later, -, -, hlater, rfl⟩ := editsFrom_append h hrun
  obtain ⟨stopped, hstops⟩ := hrest begun
  rw [hstops] at hlater
  obtain ⟨rfl, rfl⟩ := Prod.mk.inj hlater
  exact ⟨stopped, rfl⟩

/-- A run that gets past the first secrets and is not cancelled behind them fails at the next one, if it does not open. -/
theorem editsFrom_stops (h : GetsPast p .decrypt cancelAfter done before)
    (hgoes : isCancelled cancelAfter (done + before.length) = false) {fault : Envelope.Fault}
    (hfault : Envelope.disclose p field.value = .error fault) (w : World) :
    ∃ after, outcome (editsFrom p .decrypt cancelAfter path total done (before ++ field :: rest)) w =
      (.error (.bulk (.field .decrypt field.path fault)), after) :=
  editsFrom_append_error h (fun begun => ⟨begun, editsFrom_fault hgoes hfault begun⟩) w

/-! ## The way there -/

/-- A run for which a copy can be made makes one and goes over the secrets. -/
theorem updateTargets_of_hasFreeBackup {targets : List SecretField} (hfree : HasFreeBackup w path)
    {result : Except Failure Report} (h : outcome (updateTargets p operation cancelAfter doc path targets) w = (result, after)) :
    ∃ copy begun, outcome (rewriteTargets p operation cancelAfter doc path targets copy) begun = (result, after) := by
  obtain ⟨moment, hnow, -⟩ := id hfree
  rw [updateTargets, outcome_bind_ok (now_of_eq_some hnow)] at h
  rcases cases_of_bind h with ⟨failure, hbackup, -⟩ | ⟨copy, made, -, hmade⟩
  · rcases backup_cases hnow hbackup with ⟨-, -, hnot⟩ | ⟨_, _, hok, -⟩
    · exact absurd hfree hnot
    · cases hok
  · obtain ⟨told, -, hrewrite⟩ := (tells_inform _ _).of_bind hmade
    exact ⟨copy, told, hrewrite⟩

/-- An update that has its lock and a name for its copy goes over the secrets that it finds, if it is allowed to. -/
theorem update_reaches_targets {locked : FileTree} (hlock : w.files.touch w.here (lockPath path) = .ok locked)
    (hname : HasFreeName path w) (hdoc : doc.StandsAt w.files w.here path mode)
    (htargets : operation.targets (Scan.ofDocument doc) ≠ []) (hallowed : operation = .decrypt → confirmed = true)
    {result : Except Failure Report} (hrun : outcome (update p operation confirmed cancelAfter path) w = (result, after)) :
    ∃ copy begun finish, outcome
      (rewriteTargets p operation cancelAfter doc path (operation.targets (Scan.ofDocument doc)) copy) begun = (result, finish) := by
  obtain ⟨start, finish, hstart, hbody, -⟩ := underLock_of_touch hlock hrun
  have hstands : doc.StandsAt start.files start.here path mode := (standsAt_locked_iff hlock hstart).mpr hdoc
  rcases updateLocked_cases hbody with ⟨-, -, hnone⟩ | ⟨doc', mode', hdoc', hrest⟩
  · exact absurd hstands (hnone doc mode)
  obtain rfl : doc = doc' := hstands.unique hdoc'
  rcases hrest with ⟨hnil, -⟩ | ⟨-, hop, hrefused, -⟩ | ⟨-, -, loaded, hloaded, hrest⟩
  · exact absurd hnil htargets
  · rw [hallowed hop] at hrefused
    cases hrefused
  · have hbegin : w.Changes locked loaded := hstart.trans hloaded
    have hfile := ((standsAt_locked_iff hlock hbegin).mpr hdoc).file
    obtain ⟨copy, begun, hrewrite⟩ := updateTargets_of_hasFreeBackup
      (hasFreeBackup hfile (hasFreeName_locked hlock hbegin hname)) hrest
    exact ⟨copy, begun, finish, hrewrite⟩

/-- An update that cannot but fail when it goes over the secrets fails so: nothing is written before all the edits are made. -/
theorem update_of_edits_error {locked : FileTree} (hlock : w.files.touch w.here (lockPath path) = .ok locked)
    (hname : HasFreeName path w) (hdoc : doc.StandsAt w.files w.here path mode)
    (htargets : operation.targets (Scan.ofDocument doc) = fields) (hsome : fields ≠ [])
    (hallowed : operation = .decrypt → confirmed = true) {failure : Failure}
    (hedits : ∀ begun, ∃ stopped, outcome (editsFrom p operation cancelAfter path fields.length 0 fields) begun =
      (.error failure, stopped)) :
    ∃ after, outcome (update p operation confirmed cancelAfter path) w = (.error failure, after) := by
  rcases hrun : outcome (update p operation confirmed cancelAfter path) w with ⟨result, after⟩
  obtain ⟨copy, begun, finish, hrewrite⟩ := update_reaches_targets hlock hname hdoc (htargets ▸ hsome) hallowed hrun
  obtain ⟨stopped, hstops⟩ := hedits begun
  rw [htargets, rewriteTargets, outcome_bind, hstops] at hrewrite
  obtain ⟨rfl, -⟩ := Prod.mk.inj hrewrite
  exact ⟨after, rfl⟩

/-! ## The failure -/

/-- An update that fails leaves the document as it was. -/
theorem stat_of_update_error {failure : Failure}
    (h : outcome (update p operation confirmed cancelAfter path) w = (.error failure, after)) :
    after.files.stat w.here path = w.files.stat w.here path := by
  rcases (update_cases h).2 with ⟨-, halone⟩ | ⟨report, copy, hok, -⟩
  · exact halone.target
  · cases hok

/-- Decrypting that nothing hinders fails at the first marked text that does not open, and leaves the document as it was. -/
theorem update_fails_first (hdoc : doc.StandsAt w.files w.here path mode)
    (h : Unhindered cancelAfter path (Scan.ofDocument doc).encrypted.length w)
    (hsplit : (Scan.ofDocument doc).encrypted = before ++ field :: rest)
    (hopens : ∀ earlier ∈ before, ∃ text, Envelope.disclose p earlier.value = .ok text) {fault : Envelope.Fault}
    (hfault : Envelope.disclose p field.value = .error fault) :
    ∃ after, outcome (update p .decrypt true cancelAfter path) w = (.error (.bulk (.field .decrypt field.path fault)), after) ∧
      after.files.stat w.here path = w.files.stat w.here path := by
  have hgoes : ∀ k ≤ before.length, isCancelled cancelAfter (0 + k) = false := by
    intro k hk
    have hle : 0 + k ≤ (Scan.ofDocument doc).encrypted.length := by
      rw [hsplit, List.length_append]
      omega
    refine Bool.eq_false_iff.mpr fun hc => ?_
    have hlater := isCancelled_mono hle hc
    rw [h.notCancelled] at hlater
    cases hlater
  obtain ⟨locked, hlock⟩ := h.lock
  have hpast : GetsPast p .decrypt cancelAfter 0 before := ⟨fun k hk => hgoes k (Nat.le_of_lt hk), fun _ => hopens⟩
  have htargets : Operation.decrypt.targets (Scan.ofDocument doc) = before ++ field :: rest := hsplit
  obtain ⟨after, hrun⟩ := update_of_edits_error hlock h.name hdoc htargets (by simp) (fun _ => rfl)
    (editsFrom_stops hpast (hgoes _ (Nat.le_refl _)) hfault)
  exact ⟨after, hrun, stat_of_update_error hrun⟩

/-! ## Getting past all of them -/

/-- A document is decrypted as a whole: all its marked texts are reported in their order, and in its tree and its text each of them
gives way to what it held, and nothing else does. When there are none, only the lock is new. -/
structure DecryptsAll (p : Protector) (doc : Document) (path : String) (mode : Nat) (w : World) (report : Report) (after : World) :
    Prop where
  fields : report.fields = (Scan.ofDocument doc).encrypted.map fun field => field.path.display
  idle : (Scan.ofDocument doc).encrypted = [] →
    report = Report.idle .decrypt ∧ w.files.Gains (w.files.Leads w.here (lockPath path)) after.files
  edited : ∃ edited opened found template, edited.StandsAt after.files after.here path mode ∧ Opens p doc opened ∧
    doc.Reworded opened found template edited

/-- An update that reports no field found nothing to do, and has added the lock at most. -/
theorem idle_of_fields_eq_nil {report : Report} (hdoc : doc.StandsAt w.files w.here path mode)
    (hnone : operation.targets (Scan.ofDocument doc) = []) (hfields : report.fields = [])
    (h : outcome (update p operation confirmed cancelAfter path) w = (.ok report, after)) :
    report = Report.idle operation ∧ w.files.Gains (w.files.Leads w.here (lockPath path)) after.files := by
  rcases (update_cases h).2 with ⟨⟨_, hfail⟩ | hidle, -, hgains | ⟨⟨doc', mode', hdoc', hsome, -⟩, -⟩⟩ | ⟨_, _, hok, hsome, -⟩
  · cases hfail
  · cases hfail
  · exact ⟨Except.ok.inj hidle, hgains⟩
  · obtain rfl : doc = doc' := hdoc.unique hdoc'
    exact absurd hnone hsome
  · obtain rfl := Except.ok.inj hok
    exact absurd hfields hsome

/-- Decrypting that nothing hinders decrypts a document as a whole, if all its marked texts open. -/
theorem update_decryptsAll (hdoc : doc.StandsAt w.files w.here path mode)
    (h : Unhindered cancelAfter path (Scan.ofDocument doc).encrypted.length w)
    (hopens : ∀ field ∈ (Scan.ofDocument doc).encrypted, ∃ text, Envelope.disclose p field.value = .ok text) :
    ∃ report after, outcome (update p .decrypt true cancelAfter path) w = (.ok report, after) ∧
      DecryptsAll p doc path mode w report after := by
  obtain ⟨report, after, edits, edited, hrun, hedited⟩ := update_edits p .decrypt true h hdoc (fun _ => rfl) fun _ => hopens
  have hrewrites : Rewrites p .decrypt (Scan.ofDocument doc).encrypted edits := hedited.rewrites
  have hfields : report.fields = (Scan.ofDocument doc).encrypted.map fun field => field.path.display := by
    rw [hedited.fields]
    have hpaths := congrArg (List.map KeyPath.display) hrewrites.paths
    rw [List.map_map, List.map_map] at hpaths
    exact hpaths
  obtain ⟨found, template, hreworded⟩ := Document.reworded_of_replaceStrings
    (hedited.rewrites.nodup doc.hasDistinctKeys) (hedited.rewrites.isSome doc.hasDistinctKeys) hedited.replaced
  refine ⟨report, after, hrun, hfields, fun hnone => ?_, edited, _, found, template, ?_, opens_of_rewrites hrewrites, hreworded⟩
  · rw [hnone, List.map_nil] at hfields
    exact idle_of_fields_eq_nil hdoc hnone hfields hrun
  · rw [hedited.here]
    exact hedited.stands

end SealedConfig.Bulk
