import SealedConfig.Proofs.Bulk.Secrets
import SealedConfig.Proofs.Bulk.Sidecars

/-!
# What an update leaves as it is

An update that fails or finds nothing to do leaves the document and every other file as they were; beyond them there is only the
lock and, when there was something to do, a copy of the document. An update that does something changes the document alone.
-/

namespace SealedConfig.Bulk

open FileTree Run

/-- An update has something to do, and is allowed to. -/
def HasWork (operation : Operation) (confirmed : Bool) (path : String) (w : World) : Prop :=
  ∃ (doc : Document) (mode : Nat), doc.StandsAt w.files w.here path mode ∧
    operation.targets (Scan.ofDocument doc) ≠ [] ∧ (operation = .decrypt → confirmed = true)

/-- A name that a run tries, where nothing was before, now holds what the document was. -/
structure CopyMade (path copy : String) (content : Bytes) (mode : Nat) (w : World) (after : FileTree) : Prop where
  named : IsBackupName w path copy
  free : w.files.IsFree w.here copy
  original : w.files.stat w.here path = .ok (.file content mode)
  copied : after.stat w.here copy = .ok (.file content mode)

/-- The document and every other file are as they were. New is the lock at most and, if there may be one, a copy of the document. -/
structure LeftAlone (path : String) (mayCopy : Prop) (w : World) (after : FileTree) : Prop where
  target : after.stat w.here path = w.files.stat w.here path
  rest : w.files.Gains (w.files.Leads w.here (lockPath path)) after ∨
    mayCopy ∧ ∃ copy content mode, CopyMade path copy content mode w after ∧
      w.files.Gains (Sidecar w.files w.here path copy) after

/-- The document has another content and its bits, a copy what it was before, and beyond that only the lock may be new. -/
def Replaced (path copy : String) (w : World) (after : FileTree) : Prop :=
  ∃ target old new mode, CopyMade path copy old mode w after ∧ w.files.Leads w.here path target ∧ new ≠ old ∧
    after.stat w.here path = .ok (.file new mode) ∧
    (w.files.set target (.file new mode)).Gains (Sidecar w.files w.here path copy) after

variable {p : Protector} {operation : Operation} {confirmed : Bool} {cancelAfter : Option Nat} {path copy : String}
  {w start : World} {locked copied : FileTree}

/-! ## Under the lock -/

/-- An update that only took the lock leaves the document alone. -/
theorem leftAlone_of_touch (hlock : w.files.touch w.here (lockPath path) = .ok locked) (mayCopy : Prop) :
    LeftAlone path mayCopy w locked :=
  ⟨stat_locked hlock, Or.inl (gains_of_touch hlock)⟩

/-- An update that made its copy leaves the document alone as long as it is not written. -/
theorem leftAlone_of_copies (hlock : w.files.touch w.here (lockPath path) = .ok locked)
    (hstart : w.Changes locked start) (h : Copies start path copy copied) {mayCopy : Prop} (hmay : mayCopy) :
    LeftAlone path mayCopy w copied := by
  obtain ⟨hgains, htarget, content, mode, hname, hfree, hstat, hcopied⟩ := copies_locked hlock hstart h
  exact ⟨htarget, Or.inr ⟨hmay, copy, content, mode, ⟨hname, hfree, hstat, hcopied⟩, hgains⟩⟩

/-- An update that has written the document replaced its content and nothing else. -/
theorem replaced_of_writes (hlock : w.files.touch w.here (lockPath path) = .ok locked)
    (hstart : w.Changes locked start) {doc edited : Document} {mode : Nat}
    (hstands : doc.StandsAt w.files w.here path mode) {edits : List Edit} {replaced : FileTree}
    (hne : operation.targets (Scan.ofDocument doc) ≠ [])
    (h : Writes p operation doc path (operation.targets (Scan.ofDocument doc)) start copy edits edited replaced) :
    Replaced path copy w replaced := by
  obtain ⟨⟨copied, hcopies, hreplace⟩, hrewrites, hedited⟩ := h
  obtain ⟨hgains, htarget, content, bits, hname, hfree, hstat, hcopied⟩ := copies_locked hlock hstart hcopies
  rw [hstands.file] at hstat htarget
  obtain ⟨rfl, rfl⟩ := FileNode.file.inj (Except.ok.inj hstat)
  rw [hstart.here] at hreplace
  obtain ⟨target, hleads, hfile, rfl, hnew⟩ := of_replace htarget hreplace
  -- neither the lock nor the copy is the file that is written, so both keep what they hold
  have hbeside : ∀ location, Sidecar w.files w.here path copy location → location ≠ target := by
    rintro location (hl | hl) rfl
    · exact (isBeside_lock hl).not_leads (hgains.leads_iff.mp hleads)
    · exact (isBeside_copy hname hl).not_leads (hgains.leads_iff.mp hleads)
  have hcopy : ¬copied.Leads w.here copy target := fun hl => hbeside target (Or.inr (hgains.leads_iff.mp hl)) rfl
  refine ⟨target, Bytes.ofText doc.raw, Bytes.ofText edited.raw, mode, ⟨hname, hfree, hstands.file, ?_⟩,
    hgains.leads_iff.mp hleads, ?_, hnew, fun location => ?_⟩
  · exact stat_set_other hfile hcopied hcopy
  · intro heq
    exact hrewrites.raw_ne hne hedited (Bytes.ofText_injective heq)
  · by_cases hl : location = target
    · subst hl
      rw [get?_set_self _ (ne_nil_of_get?_file hfile), get?_set_self _ (ne_nil_of_get?_file hfile)]
      exact Or.inl rfl
    · rw [get?_set_other _ hl, get?_set_other _ hl]
      exact hgains location

/-! ## The whole update -/

/-- An update whose lock is held stops or is done without a change to the document, or has written it. -/
theorem locked_cases (hlock : w.files.touch w.here (lockPath path) = .ok locked)
    (hstart : w.Changes locked start) {result : Except Failure Report} {after : World}
    (h : outcome (updateLocked p operation confirmed cancelAfter path) start = (result, after)) :
    after.here = w.here ∧
      (((∃ failure, result = .error failure) ∨ result = .ok (Report.idle operation)) ∧
          LeftAlone path (HasWork operation confirmed path w) w after.files ∨
        ∃ report copy, result = .ok report ∧ report.fields ≠ [] ∧ report.backup = some copy ∧
          Replaced path copy w after.files) := by
  have hquiet {after : World} (hafter : start.Agrees after) :
      LeftAlone path (HasWork operation confirmed path w) w after.files := by
    rw [hafter.files, hstart.files]
    exact leftAlone_of_touch hlock _
  rcases updateLocked_cases h with ⟨hfail, hafter, -⟩ | ⟨doc, mode, hdoc, hrest⟩
  · exact ⟨hafter.here.trans hstart.here, Or.inl ⟨Or.inl hfail, hquiet hafter⟩⟩
  have hdoc : doc.StandsAt w.files w.here path mode := (standsAt_locked_iff hlock hstart).mp hdoc
  rcases hrest with ⟨-, hidle, hafter⟩ | ⟨-, -, -, hfail, hafter⟩ | ⟨hsome, hallowed, loaded, hloaded, hrest⟩
  · exact ⟨hafter.here.trans hstart.here, Or.inl ⟨Or.inr hidle, hquiet hafter⟩⟩
  · exact ⟨hafter.here.trans hstart.here, Or.inl ⟨Or.inl hfail, hquiet hafter⟩⟩
  have hbegin : w.Changes locked loaded := hstart.trans hloaded
  rcases updateTargets_cases hrest with ⟨hfail, -, hafter | ⟨copy, copied, hcopies, hafter⟩⟩ |
    ⟨copy, edits, edited, replaced, hwrites, rfl, hafter⟩
  · exact ⟨hafter.here.trans hbegin.here, Or.inl ⟨Or.inl hfail, hquiet (hloaded.trans hafter)⟩⟩
  · rw [hafter.files]
    exact ⟨hafter.here.trans hbegin.here,
      Or.inl ⟨Or.inl hfail, leftAlone_of_copies hlock hbegin hcopies ⟨doc, mode, hdoc, hsome, hallowed⟩⟩⟩
  · rw [hafter.files]
    refine ⟨hafter.here.trans hbegin.here, Or.inr ⟨_, copy, rfl, ?_, rfl, replaced_of_writes hlock hbegin hdoc hsome hwrites⟩⟩
    have hpaths := hwrites.rewrites.paths
    intro hnil
    rw [List.map_eq_nil_iff] at hnil
    rw [hnil, List.map_nil] at hpaths
    exact hsome (List.map_eq_nil_iff.mp hpaths.symm)

/-- An update fails or finds nothing to do and leaves the document alone, or does something and replaces it. -/
theorem update_cases {result : Except Failure Report} {after : World}
    (h : outcome (update p operation confirmed cancelAfter path) w = (result, after)) :
    after.here = w.here ∧
      (((∃ failure, result = .error failure) ∨ result = .ok (Report.idle operation)) ∧
          LeftAlone path (HasWork operation confirmed path w) w after.files ∨
        ∃ report copy, result = .ok report ∧ report.fields ≠ [] ∧ report.backup = some copy ∧
          Replaced path copy w after.files) := by
  rcases underLock_cases h with ⟨hfail, rfl, -⟩ | ⟨locked, start, finish, hlock, hstart, hbody, hafter⟩
  · exact ⟨rfl, Or.inl ⟨Or.inl hfail, rfl, Or.inl (.refl _ _)⟩⟩
  · rw [hafter.files, hafter.here]
    exact locked_cases hlock hstart hbody

/-- A free place stays free in an update when neither the lock nor a copy may be made there. -/
theorem isFree_of_update {result : Except Failure Report} {after : World}
    (h : outcome (update p operation confirmed cancelAfter path) w = (result, after)) {other : String}
    (hfree : w.files.IsFree w.here other)
    (hother : ∀ location, w.files.Leads w.here other location →
      ¬w.files.Leads w.here (lockPath path) location ∧ ∀ copy, IsBackupName w path copy → ¬w.files.Leads w.here copy location) :
    after.files.IsFree w.here other := by
  rcases (update_cases h).2 with ⟨-, -, hgains | ⟨-, copy, content, mode, hcopy, hgains⟩⟩ |
    ⟨-, copy, -, -, -, target, old, new, mode, hcopy, htarget, -, -, hgains⟩
  · exact hgains.isFree_of_not_leads hfree fun location hl => (hother location hl).1
  · refine hgains.isFree_of_not_leads hfree fun location hl => ?_
    exact not_or.mpr ⟨(hother location hl).1, (hother location hl).2 copy hcopy.named⟩
  -- the write itself makes no file, since the document was there before
  · obtain ⟨place, hplace, hnone⟩ := hfree
    obtain ⟨place', hplace', hfile, -⟩ := stat_eq_file_iff.mp hcopy.original
    obtain rfl : place'.location = target := Leads.unique ⟨place', hplace', rfl⟩ htarget
    have hne : place.location ≠ place'.location := by
      intro heq
      rw [heq, hfile] at hnone
      cases hnone
    have hset {location : Location} {name : String} :
        (w.files.set place'.location (.file new mode)).Leads w.here name location ↔ w.files.Leads w.here name location := by
      simp only [Leads, resolve_set_iff hfile]
    have hfree : (w.files.set place'.location (.file new mode)).IsFree w.here other :=
      ⟨place, (resolve_set_iff hfile).mpr hplace, by rw [get?_set_other _ hne, hnone]⟩
    refine hgains.isFree_of_not_leads hfree fun location hl => ?_
    exact not_or.mpr ⟨(hother location (hset.mp hl)).1, (hother location (hset.mp hl)).2 copy hcopy.named⟩

end SealedConfig.Bulk
