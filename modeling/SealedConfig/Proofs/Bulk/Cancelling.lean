import SealedConfig.Proofs.Bulk.Stopping

/-!
# Cancelling an update

An update that is to be cancelled after a number of secrets stops behind exactly so many of them, unless one of those does not open.
One that is to be cancelled after more secrets than there are goes as if it were never cancelled. Whatever is done before the first
secret, a cancelled run does too.
-/

namespace SealedConfig.Bulk

open Run

variable {p : Protector} {operation : Operation} {confirmed : Bool} {cancelAfter other : Option Nat} {path copy : String}
  {total done : Nat} {doc : Document} {mode : Nat} {field : SecretField} {fields before rest : List SecretField}
  {w loaded : World} {locked : FileTree}

@[simp] theorem isCancelled_none (done : Nat) : isCancelled none done = false := rfl

@[simp] theorem isCancelled_some (n done : Nat) : isCancelled (some n) done = decide (n ≤ done) := rfl

/-! ## The check -/

/-- A check in a run that is cancelled fails with what is done. -/
theorem checkCancelled_of_cancelled (h : isCancelled cancelAfter done = true) (path : String) (total : Nat) (w : World) :
    ∃ after, outcome (checkCancelled cancelAfter path done total) w = (.error (.bulk (.cancelled path done total)), after) := by
  obtain ⟨event, htells⟩ := tells_warn "rewrite cancelled" [Log.plain "path" path, Log.count "done" done, Log.count "total" total]
  rw [checkCancelled, if_pos h, outcome_bind_ok (htells w)]
  exact ⟨_, rfl⟩

/-- A run that is cancelled when some secrets are done does nothing to those that are left. -/
theorem editsFrom_cancelled (h : isCancelled cancelAfter done = true) (fields : List SecretField) (w : World) :
    ∃ after, outcome (editsFrom p operation cancelAfter path total done fields) w =
      (.error (.bulk (.cancelled path done total)), after) := by
  obtain ⟨after, hcheck⟩ := checkCancelled_of_cancelled h path total w
  cases fields <;>
  · rw [editsFrom, outcome_bind, hcheck]
    exact ⟨after, rfl⟩

/-- A run gets past the secrets in front of the one behind which it is cancelled, if they open. -/
theorem getsPast_of_le {n : Nat} (hle : before.length ≤ n)
    (hopens : operation = .decrypt → ∀ field ∈ before, ∃ text, Envelope.disclose p field.value = .ok text) :
    GetsPast p operation (some n) 0 before where
  notCancelled k hk := by
    rw [isCancelled_some, decide_eq_false_iff_not]
    omega
  opens := hopens

/-- A run that is to be cancelled behind some of its secrets is cancelled there, if they open. -/
theorem editsFrom_stops_cancelled {n : Nat} (hle : n ≤ fields.length)
    (hopens : operation = .decrypt → ∀ field ∈ fields.take n, ∃ text, Envelope.disclose p field.value = .ok text) (w : World) :
    ∃ after, outcome (editsFrom p operation (some n) path total 0 fields) w = (.error (.bulk (.cancelled path n total)), after) := by
  have hlength : (fields.take n).length = n := List.length_take_of_le hle
  have hpast : GetsPast p operation (some n) 0 (fields.take n) := getsPast_of_le (Nat.le_of_eq hlength) hopens
  have hcancelled : isCancelled (some n) n = true := by simp
  have hrest : ∀ begun, ∃ after, outcome (editsFrom p operation (some n) path total (0 + (fields.take n).length) (fields.drop n)) begun =
      (.error (.bulk (.cancelled path n total)), after) := by
    intro begun
    rw [hlength, Nat.zero_add]
    exact editsFrom_cancelled hcancelled (fields.drop n) begun
  have hstops := editsFrom_append_error hpast hrest w
  rwa [List.take_append_drop] at hstops

/-! ## Runs that are cancelled alike -/

/-- Two runs over secrets are cancelled alike: at each of the checks that are left, one of them is cancelled if the other one is. -/
def CancelledAlike (cancelAfter other : Option Nat) (done left : Nat) : Prop :=
  ∀ k ≤ left, isCancelled cancelAfter (done + k) = isCancelled other (done + k)

theorem checkCancelled_congr (h : isCancelled cancelAfter done = isCancelled other done) :
    (checkCancelled cancelAfter path done total : Run (StateM World) Unit) = checkCancelled other path done total := by
  rw [checkCancelled, checkCancelled, h]

/-- Runs that are cancelled alike rewrite secrets alike. -/
theorem editsFrom_congr (h : CancelledAlike cancelAfter other done fields.length) :
    (editsFrom p operation cancelAfter path total done fields : Run (StateM World) (List Edit)) =
      editsFrom p operation other path total done fields := by
  have hhere : isCancelled cancelAfter done = isCancelled other done := h 0 (Nat.zero_le _)
  induction fields generalizing done with
  | nil => rw [editsFrom, editsFrom, checkCancelled_congr hhere]
  | cons field fields ih =>
    have hrest : CancelledAlike cancelAfter other (done + 1) fields.length := by
      intro k hk
      have hlater := h (k + 1) (Nat.succ_le_succ hk)
      rwa [← Nat.add_assoc, Nat.add_right_comm] at hlater
    rw [editsFrom, editsFrom, checkCancelled_congr hhere, ih hrest (hrest 0 (Nat.zero_le _))]

theorem updateTargets_congr (h : CancelledAlike cancelAfter other 0 fields.length) :
    (updateTargets p operation cancelAfter doc path fields : Run (StateM World) Report) =
      updateTargets p operation other doc path fields := by
  simp only [updateTargets, rewriteTargets, editsFrom_congr h]

/-! ## What comes before the secrets -/

/-- A document that stands in a file is loaded from there. -/
theorem exists_load (hdoc : doc.StandsAt w.files w.here path mode) :
    ∃ loaded, w.Agrees loaded ∧ outcome (Document.load path) w = (.ok doc, loaded) := by
  have hquiet := quiet_load path w
  have hok := load_eq_ok_iff.mpr ⟨mode, hdoc⟩
  exact ⟨_, hquiet, Prod.ext hok rfl⟩

/-- Updating a document that has nothing to rewrite is done at once. -/
theorem updateLocked_idle (hdoc : doc.StandsAt w.files w.here path mode) (hnone : operation.targets (Scan.ofDocument doc) = []) :
    (outcome (updateLocked p operation confirmed cancelAfter path) w).1 = .ok (Report.idle operation) := by
  obtain ⟨loaded, -, hload⟩ := exists_load hdoc
  rw [updateLocked, outcome_bind_ok hload, hnone]
  rfl

/-- Decrypting a document that has secrets is refused as long as it is not confirmed. -/
theorem updateLocked_refused (hdoc : doc.StandsAt w.files w.here path mode) (hsome : (Scan.ofDocument doc).encrypted ≠ []) :
    (outcome (updateLocked p .decrypt false cancelAfter path) w).1 =
      .error (.bulk (.notConfirmed (Scan.ofDocument doc).encrypted.length)) := by
  obtain ⟨loaded, -, hload⟩ := exists_load hdoc
  have hnot : (Operation.decrypt.targets (Scan.ofDocument doc)).isEmpty = false := by simpa [Operation.targets] using hsome
  rw [updateLocked, outcome_bind_ok hload]
  dsimp only
  rw [hnot]
  rfl

/-- Updates that are cancelled alike come to the same behind the lock. -/
theorem updateLocked_congr (hdoc : doc.StandsAt w.files w.here path mode)
    (h : CancelledAlike cancelAfter other 0 (operation.targets (Scan.ofDocument doc)).length) :
    outcome (updateLocked p operation confirmed cancelAfter path) w = outcome (updateLocked p operation confirmed other path) w := by
  obtain ⟨loaded, -, hload⟩ := exists_load hdoc
  rw [updateLocked, updateLocked, outcome_bind_ok hload, outcome_bind_ok hload]
  dsimp only
  rw [updateTargets_congr h]

/-- Updates of a document that are cancelled alike come to the same. -/
theorem update_congr (hdoc : doc.StandsAt w.files w.here path mode)
    (h : CancelledAlike cancelAfter other 0 (operation.targets (Scan.ofDocument doc)).length) :
    outcome (update p operation confirmed cancelAfter path) w = outcome (update p operation confirmed other path) w :=
  underLock_congr fun hlock hstart => updateLocked_congr ((standsAt_locked_iff hlock hstart).mpr hdoc) h

/-- An update that has its lock comes to what it comes to behind the lock. -/
theorem result_update {result : Except Failure Report} (hlock : w.files.touch w.here (lockPath path) = .ok locked)
    (h : ∀ start, w.Changes locked start → (outcome (updateLocked p operation confirmed cancelAfter path) start).1 = result) :
    (outcome (update p operation confirmed cancelAfter path) w).1 = result := by
  rcases hrun : outcome (update p operation confirmed cancelAfter path) w with ⟨result', after⟩
  obtain ⟨start, finish, hstart, hbody, -⟩ := underLock_of_touch hlock hrun
  rw [← h start hstart, hbody]

/-! ## The calls of the protector -/

/-- What an operation does to a secret is one call of the protector, and what it comes to is what this call comes to. -/
def CallsOnce (p : Protector) : Operation → SecretField → Prop
  | .encrypt, field => ∀ nonce, Envelope.enclose p nonce field.value = Envelope.mark (p.protect nonce field.value)
  | .decrypt, field => ∃ ciphertext, Envelope.unmark? field.value = some ciphertext ∧
      Envelope.disclose p field.value = (p.unprotect ciphertext).mapError .undecipherable

/-- For each secret that it finds an operation calls the protector once. -/
theorem callsOnce_of_mem_targets (p : Protector) {tree : Json} (hd : tree.HasDistinctKeys)
    (hf : field ∈ operation.targets (Scan.ofTree tree)) : CallsOnce p operation field := by
  obtain ⟨-, hne, hm⟩ := of_mem_targets hd operation hf
  cases operation with
  | encrypt =>
    intro nonce
    rw [Envelope.enclose, if_neg hne]
  | decrypt =>
    have hunmark : Envelope.unmark? field.value = some (String.ofList (field.value.toList.drop Envelope.marker.length)) := if_pos hm
    refine ⟨_, hunmark, ?_⟩
    rw [Envelope.disclose, if_neg hne, hunmark]
    dsimp only
    cases p.unprotect (String.ofList (field.value.toList.drop Envelope.marker.length)) <;> rfl

/-! ## The cancelled update -/

section

variable (hlock : w.files.touch w.here (lockPath path) = .ok locked) (hname : HasFreeName path w)
  (hdoc : doc.StandsAt w.files w.here path mode)

include hlock hdoc

/-- Updating a document that has nothing to rewrite adds the lock at most. -/
theorem update_nothing (hnone : operation.targets (Scan.ofDocument doc) = []) :
    ∃ after, outcome (update p operation confirmed cancelAfter path) w = (.ok (Report.idle operation), after) ∧
      w.files.Gains (w.files.Leads w.here (lockPath path)) after.files := by
  have hresult : (outcome (update p operation confirmed cancelAfter path) w).1 = .ok (Report.idle operation) :=
    result_update hlock fun _ hstart => updateLocked_idle ((standsAt_locked_iff hlock hstart).mpr hdoc) hnone
  obtain ⟨-, hgains⟩ := idle_of_fields_eq_nil hdoc hnone rfl (Prod.ext hresult rfl)
  exact ⟨_, Prod.ext hresult rfl, hgains⟩

include hname

/-- When no secret of a document fails, an update of it that is to be cancelled behind some of them, or the last one, is. -/
theorem update_cancelled (hsome : operation.targets (Scan.ofDocument doc) ≠ []) (hallowed : operation = .decrypt → confirmed = true)
    (hopens : operation = .decrypt → ∀ field ∈ operation.targets (Scan.ofDocument doc),
      ∃ text, Envelope.disclose p field.value = .ok text) {n : Nat} (hle : n ≤ (operation.targets (Scan.ofDocument doc)).length) :
    (outcome (update p operation confirmed (some n) path) w).1 =
      .error (.bulk (.cancelled path n (operation.targets (Scan.ofDocument doc)).length)) := by
  have hfirst : operation = .decrypt → ∀ field ∈ (operation.targets (Scan.ofDocument doc)).take n,
      ∃ text, Envelope.disclose p field.value = .ok text := fun hop field hf => hopens hop field (List.mem_of_mem_take hf)
  obtain ⟨after, hrun⟩ := update_of_edits_error hlock hname hdoc rfl hsome hallowed (editsFrom_stops_cancelled hle hfirst)
  rw [hrun]

/-- When no secret of a document fails, an update of it that is to be cancelled behind more secrets than there are succeeds, and does
what it does when it is never cancelled. -/
theorem update_not_cancelled (hallowed : operation = .decrypt → confirmed = true)
    (hopens : operation = .decrypt → ∀ field ∈ operation.targets (Scan.ofDocument doc),
      ∃ text, Envelope.disclose p field.value = .ok text) {n : Nat} (hlt : (operation.targets (Scan.ofDocument doc)).length < n) :
    outcome (update p operation confirmed (some n) path) w = outcome (update p operation confirmed none path) w ∧
      ∃ report, (outcome (update p operation confirmed none path) w).1 = .ok report := by
  refine ⟨update_congr hdoc fun k hk => ?_, ?_⟩
  · rw [isCancelled_some, isCancelled_none, decide_eq_false_iff_not]
    omega
  · have hnever : Unhindered none path (operation.targets (Scan.ofDocument doc)).length w := ⟨⟨locked, hlock⟩, hname, rfl⟩
    obtain ⟨report, after, _, _, hrun, -⟩ := update_edits p operation confirmed hnever hdoc hallowed hopens
    rw [hrun]
    exact ⟨report, rfl⟩

/-- When a secret of a document is the first that does not open, an update that is to be cancelled behind it or later fails at it,
and one that is to be cancelled earlier is cancelled. -/
theorem update_fails_or_cancelled (hsplit : (Scan.ofDocument doc).encrypted = before ++ field :: rest)
    (hopens : ∀ earlier ∈ before, ∃ text, Envelope.disclose p earlier.value = .ok text) {fault : Envelope.Fault}
    (hfault : Envelope.disclose p field.value = .error fault) (n : Nat) :
    (outcome (update p .decrypt true (some n) path) w).1 =
      .error (.bulk (if before.length < n then .field .decrypt field.path fault
        else .cancelled path n (Scan.ofDocument doc).encrypted.length)) := by
  have hfails : ∀ begun, ∃ after, outcome (editsFrom p .decrypt (some n) path (before ++ field :: rest).length 0
      (before ++ field :: rest)) begun = (.error (.bulk (if before.length < n then .field .decrypt field.path fault
        else .cancelled path n (before ++ field :: rest).length)), after) := by
    intro begun
    split
    · rename_i hlt
      have hpast : GetsPast p .decrypt (some n) 0 before := getsPast_of_le (Nat.le_of_lt hlt) fun _ => hopens
      refine editsFrom_stops hpast ?_ hfault begun
      rw [isCancelled_some, decide_eq_false_iff_not]
      omega
    · rename_i hnot
      have hle : n ≤ before.length := Nat.le_of_not_lt hnot
      refine editsFrom_stops_cancelled (by simp; omega) (fun _ earlier hf => hopens earlier ?_) begun
      rw [List.take_append_of_le_length hle] at hf
      exact List.mem_of_mem_take hf
  have htargets : Operation.decrypt.targets (Scan.ofDocument doc) = before ++ field :: rest := hsplit
  obtain ⟨after, hrun⟩ := update_of_edits_error hlock hname hdoc htargets (by simp) (fun _ => rfl) hfails
  rw [hrun, hsplit]

end

/-- What an update of a document comes to for every number of secrets behind which it is to be cancelled. Each secret takes one call
of the protector, so that to be behind a number of secrets is to be behind so many calls. -/
structure CancelsExactly (p : Protector) (operation : Operation) (doc : Document) (targets : List SecretField) (path : String)
    (w : World) : Prop where
  calls : ∀ field ∈ targets, CallsOnce p operation field
  idle : targets = [] → ∀ confirmed cancelAfter, ∃ after,
    outcome (update p operation confirmed cancelAfter path) w = (.ok (Report.idle operation), after) ∧
      w.files.Gains (w.files.Leads w.here (lockPath path)) after.files
  refused : targets ≠ [] → operation = .decrypt → ∀ cancelAfter,
    (outcome (update p operation false cancelAfter path) w).1 = .error (.bulk (.notConfirmed targets.length))
  cancelled : targets ≠ [] → ∀ confirmed, (operation = .decrypt → confirmed = true) →
    (operation = .decrypt → ∀ field ∈ targets, ∃ text, Envelope.disclose p field.value = .ok text) → ∀ n ≤ targets.length,
      (outcome (update p operation confirmed (some n) path) w).1 = .error (.bulk (.cancelled path n targets.length))
  finished : targets ≠ [] → ∀ confirmed, (operation = .decrypt → confirmed = true) →
    (operation = .decrypt → ∀ field ∈ targets, ∃ text, Envelope.disclose p field.value = .ok text) → ∀ n > targets.length,
      outcome (update p operation confirmed (some n) path) w = outcome (update p operation confirmed none path) w ∧
        ∃ report, (outcome (update p operation confirmed none path) w).1 = .ok report
  failed : operation = .decrypt → ∀ before field rest fault, targets = before ++ field :: rest →
    (∀ earlier ∈ before, ∃ text, Envelope.disclose p earlier.value = .ok text) → Envelope.disclose p field.value = .error fault →
      ∀ n, (outcome (update p operation true (some n) path) w).1 =
        .error (.bulk (if before.length < n then .field operation field.path fault else .cancelled path n targets.length))

/-- Cancelling is exact for every document that stands in a file, when the lock and a name for the copy can be had. -/
theorem update_cancelsExactly (p : Protector) (operation : Operation)
    (hlock : ∃ locked, w.files.touch w.here (lockPath path) = .ok locked) (hname : HasFreeName path w)
    (hdoc : doc.StandsAt w.files w.here path mode) :
    CancelsExactly p operation doc (operation.targets (Scan.ofDocument doc)) path w := by
  obtain ⟨locked, hlock⟩ := hlock
  exact {
    calls := fun field hf => callsOnce_of_mem_targets p doc.hasDistinctKeys hf
    idle := fun hnone _ _ => update_nothing hlock hdoc hnone
    refused := by
      rintro hsome rfl cancelAfter
      exact result_update hlock fun _ hstart => updateLocked_refused ((standsAt_locked_iff hlock hstart).mpr hdoc) hsome
    cancelled := fun hsome _ hallowed hopens _ hle => update_cancelled hlock hname hdoc hsome hallowed hopens hle
    finished := fun _ _ hallowed hopens _ hlt => update_not_cancelled hlock hname hdoc hallowed hopens hlt
    failed := by
      rintro rfl before field rest fault hsplit hopens hfault n
      exact update_fails_or_cancelled hlock hname hdoc hsplit hopens hfault n }

/-- The sample has two secrets: encrypting it is cancelled behind the last one, but not behind a third. -/
theorem update_cancels_sample :
    CancelsExactly sampleProtector .encrypt sample (Scan.ofDocument sample).plain "app.json" sampleWorld ∧
      (outcome (update sampleProtector .encrypt true (some 2) "app.json") sampleWorld).1 =
        .error (.bulk (.cancelled "app.json" 2 2)) ∧
      outcome (update sampleProtector .encrypt true (some 3) "app.json") sampleWorld =
        outcome (update sampleProtector .encrypt true none "app.json") sampleWorld := by
  have hexact := update_cancelsExactly sampleProtector .encrypt sample_unhindered.lock sample_unhindered.name sample_standsAt
  have hcount : (Operation.encrypt.targets (Scan.ofDocument sample)).length = 2 := by cbv
  have hsome : Operation.encrypt.targets (Scan.ofDocument sample) ≠ [] := List.ne_nil_of_length_pos (by omega)
  have hop : Operation.encrypt ≠ .decrypt := by decide
  have hcancelled := hexact.cancelled hsome true (fun _ => rfl) (fun h => absurd h hop) 2 (Nat.le_of_eq hcount.symm)
  have hfinished := hexact.finished hsome true (fun _ => rfl) (fun h => absurd h hop) 3 (by omega)
  rw [hcount] at hcancelled
  exact ⟨hexact, hcancelled, hfinished.1⟩

end SealedConfig.Bulk
