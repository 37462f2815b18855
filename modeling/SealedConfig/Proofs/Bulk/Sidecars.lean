import SealedConfig.Proofs.Bulk.Stages
import SealedConfig.Proofs.Host.Beside

/-!
# The files beside a document

The lock and the copies of a document have its name with an ending, so they are in its directory and none of them is the document or
another of them.
-/

namespace SealedConfig

/-! ## Names -/

namespace Moment

/-- A digit, or the sign of a year that has more than four. -/
def IsStampChar (c : Char) : Prop := c.isDigit = true ∨ c = '+'

theorem isStampChar_digits {width n : Nat} {c : Char} (h : c ∈ (digits width n).toList) : IsStampChar c := by
  rw [digits, String.toList_append, String.toList_ofList, List.mem_append] at h
  rcases h with h | h
  · rw [List.eq_of_mem_replicate h]
    exact Or.inl (by decide)
  · exact Or.inl (Nat.isDigit_of_mem_toDigits (by decide) (by decide) (Nat.toList_repr ▸ h))

theorem isStampChar_yearText {year : Nat} {c : Char} (h : c ∈ (yearText year).toList) : IsStampChar c := by
  rw [yearText] at h
  split at h
  · exact isStampChar_digits h
  · rw [String.toList_append, List.mem_append] at h
    rcases h with h | h
    · exact Or.inr (List.mem_singleton.mp h)
    · exact Or.inl (Nat.isDigit_of_mem_toDigits (by decide) (by decide) (Nat.toList_repr ▸ h))

/-- A stamp is made of digits, save for the sign of a long year. -/
theorem isStampChar_stamp (moment : Moment) {c : Char} (h : c ∈ moment.stamp.toList) : IsStampChar c := by
  obtain ⟨year, month, day, hour, minute, second, hparts⟩ :
      ∃ year month day hour minute second : Nat,
        moment.parts = (yearText year, digits 2 month, digits 2 day, digits 2 hour, digits 2 minute, digits 2 second) :=
    ⟨_, _, _, _, _, _, rfl⟩
  rw [stamp, hparts] at h
  simp only [String.toList_append, List.mem_append] at h
  rcases h with ((((h | h) | h) | h) | h) | h
  · exact isStampChar_yearText h
  all_goals exact isStampChar_digits h

end Moment

namespace Bulk

open FileTree

/-- What a copy's path has behind the document's. -/
def backupEnding (stamp : String) (attempt : Nat) : String :=
  ".backup." ++ stamp ++ (if attempt = 0 then "" else "." ++ toString attempt)

theorem backupPath_eq (path stamp : String) (attempt : Nat) :
    backupPath path stamp attempt = path ++ backupEnding stamp attempt := by
  rw [backupPath, backupEnding]
  split <;> simp [String.append_assoc]

theorem isEnding_lock : IsEnding ".lock" := ⟨by decide, by decide, by decide⟩

/-- The ending of a copy has dots, the letters of its name and what a stamp is made of. -/
theorem mem_backupEnding {moment : Moment} {attempt : Nat} {c : Char} (h : c ∈ (backupEnding moment.stamp attempt).toList) :
    c ∈ ".backup.".toList ∨ Moment.IsStampChar c := by
  rw [backupEnding, String.toList_append, String.toList_append, List.mem_append, List.mem_append] at h
  rcases h with (h | h) | h
  · exact Or.inl h
  · exact Or.inr (moment.isStampChar_stamp h)
  · split at h
    · cases h
    · rw [String.toList_append, List.mem_append] at h
      rcases h with h | h
      · rw [List.mem_singleton.mp h]
        exact Or.inl (by decide)
      · exact Or.inr (Or.inl (Nat.isDigit_of_mem_toDigits (by decide) (by decide) (Nat.toList_repr ▸ h)))

theorem isEnding_backupEnding (moment : Moment) (attempt : Nat) : IsEnding (backupEnding moment.stamp attempt) where
  noSlash h := by
    rcases mem_backupEnding h with h | h | h
    · exact absurd h (by decide)
    · exact absurd h (by decide)
    · exact absurd h (by decide)
  noZero h := by
    rcases mem_backupEnding h with h | h | h
    · exact absurd h (by decide)
    · exact absurd h (by decide)
    · exact absurd h (by decide)
  long := by
    rw [backupEnding, String.length_append, String.length_append]
    have hbase : ".backup.".length = 8 := rfl
    omega

/-- No copy is a lock. -/
theorem backupEnding_ne_lock (stamp : String) (attempt : Nat) : backupEnding stamp attempt ≠ ".lock" := by
  intro h
  have hlen := congrArg String.length h
  rw [backupEnding, String.length_append, String.length_append] at hlen
  have hbase : ".backup.".length = 8 := rfl
  have hlock : ".lock".length = 5 := rfl
  omega

/-- Behind the stamp the ending of a copy is over or has a dot. -/
theorem takeWhile_backupEnding (moment : Moment) (attempt : Nat) :
    ((backupEnding moment.stamp attempt).toList.drop 8).takeWhile (· ≠ '.') = moment.stamp.toList := by
  have hstamp : ∀ c ∈ moment.stamp.toList, decide (c ≠ '.') = true := by
    intro c hc
    rcases moment.isStampChar_stamp hc with h | h
    · exact decide_eq_true fun heq => by rw [heq] at h; exact absurd h (by decide)
    · exact decide_eq_true fun heq => by rw [heq] at h; exact absurd h (by decide)
  have hdrop : (backupEnding moment.stamp attempt).toList.drop 8 =
      moment.stamp.toList ++ (if attempt = 0 then "" else "." ++ toString attempt).toList := by
    rw [backupEnding, String.toList_append, String.toList_append, List.append_assoc]
    exact List.drop_left' rfl
  rw [hdrop, List.takeWhile_append_of_pos hstamp]
  split
  · simp
  · simp [String.toList_append]

/-- Copies with one ending are of one time. -/
theorem stamp_eq_of_backupEnding_eq {moment other : Moment} {attempt number : Nat}
    (h : backupEnding moment.stamp attempt = backupEnding other.stamp number) : moment.stamp = other.stamp := by
  rw [← String.toList_inj, ← takeWhile_backupEnding moment attempt, h, takeWhile_backupEnding other number]

/-! ## Files -/

variable {tree tree' : FileTree} {here location : Location} {path : String}

/-- The places where a run may make files: that of the lock, and that of its copy. -/
def Sidecar (tree : FileTree) (here : Location) (path copy : String) (location : Location) : Prop :=
  tree.Leads here (lockPath path) location ∨ tree.Leads here copy location

/-- Touching a file makes one at its path at most. -/
theorem gains_of_touch (h : tree.touch here path = .ok tree') : tree.Gains (tree.Leads here path) tree' := by
  obtain ⟨place, hplace, -, ⟨-, rfl⟩ | ⟨hnone, rfl⟩⟩ := touch_eq_ok_iff.mp h
  · exact .refl tree _
  · exact gains_set hnone ⟨place, hplace, rfl⟩

/-- A new file is made at its path, where there was nothing. -/
theorem gains_of_createNew {content : Bytes} {mode : Nat} (h : tree.createNew here path content mode = .ok tree') :
    tree.Gains (tree.Leads here path) tree' ∧ tree.IsFree here path ∧
      tree'.stat here path = .ok (.file content mode) := by
  obtain ⟨place, hplace, hnone, hdir, rfl⟩ := createNew_eq_ok_iff.mp h
  have hgains : tree.Gains (tree.Leads here path) (tree.set place.location (.file content mode)) :=
    gains_set hnone ⟨place, hplace, rfl⟩
  have hmade := tree.get?_set_self (ne_nil_of_get?_none hnone) (.file content mode)
  exact ⟨hgains, ⟨place, hplace, hnone⟩, stat_eq_file_iff.mpr ⟨place, hgains.resolve_iff.mpr hplace, hmade, hdir⟩⟩

/-- Beside a document there is its lock. -/
theorem isBeside_lock (h : tree.Leads here (lockPath path) location) : tree.IsBeside here path location :=
  ⟨".lock", isEnding_lock, h⟩

/-- Beside a document there are its copies. -/
theorem isBeside_copy {w : World} {copy : String} (hn : IsBackupName w path copy) (h : tree.Leads here copy location) :
    tree.IsBeside here path location := by
  obtain ⟨moment, attempt, -, -, rfl⟩ := hn
  rw [backupPath_eq] at h
  exact ⟨_, isEnding_backupEnding moment attempt, h⟩

/-! ## Under the lock -/

variable {w start : World} {copy : String} {locked copied : FileTree}

/-- The document is not touched by taking its lock. -/
theorem stat_locked (h : w.files.touch w.here (lockPath path) = .ok locked) :
    locked.stat w.here path = w.files.stat w.here path :=
  (gains_of_touch h).stat_eq fun _ => isBeside_lock

/-- Under the lock stands the document that stood there before it was taken. -/
theorem standsAt_locked_iff (hlock : w.files.touch w.here (lockPath path) = .ok locked) (hstart : w.Changes locked start)
    {doc : Document} {mode : Nat} :
    doc.StandsAt start.files start.here path mode ↔ doc.StandsAt w.files w.here path mode := by
  have hstat : start.files.stat start.here path = w.files.stat w.here path := by
    rw [hstart.files, hstart.here, stat_locked hlock]
  exact ⟨fun h => ⟨hstat ▸ h.file, h.source⟩, fun h => ⟨hstat.trans h.file, h.source⟩⟩

/-- A file that is made under the lock and has the name of a copy is a new file beside the document, which is not touched by it. -/
theorem createNew_locked (hlock : w.files.touch w.here (lockPath path) = .ok locked) (hname : IsBackupName w path copy)
    {content : Bytes} {mode : Nat} (h : locked.createNew w.here copy content mode = .ok copied) :
    w.files.Gains (Sidecar w.files w.here path copy) copied ∧ copied.stat w.here path = w.files.stat w.here path ∧
      w.files.IsFree w.here copy ∧ copied.stat w.here copy = .ok (.file content mode) := by
  have hlocked := gains_of_touch hlock
  obtain ⟨hgains, hfree, hcopied⟩ := gains_of_createNew h
  have hsidecar : w.files.Gains (Sidecar w.files w.here path copy) copied :=
    (hlocked.mono fun _ => Or.inl).trans (hgains.mono fun _ hl => Or.inr (hlocked.leads_iff.mp hl))
  refine ⟨hsidecar, hsidecar.stat_eq ?_, hlocked.isFree hfree, hcopied⟩
  rintro location (hl | hl)
  · exact isBeside_lock hl
  · exact isBeside_copy hname hl

/-- A copy that is made under the lock is a new file beside the document, which is not touched by it. -/
theorem copies_locked (hlock : w.files.touch w.here (lockPath path) = .ok locked)
    (hstart : w.Changes locked start) (h : Copies start path copy copied) :
    w.files.Gains (Sidecar w.files w.here path copy) copied ∧ copied.stat w.here path = w.files.stat w.here path ∧
      ∃ content mode, IsBackupName w path copy ∧ w.files.IsFree w.here copy ∧
        w.files.stat w.here path = .ok (.file content mode) ∧ copied.stat w.here copy = .ok (.file content mode) := by
  obtain ⟨⟨moment, attempt, hnow, hattempt, hcopy⟩, hmade⟩ := h
  have hname : IsBackupName w path copy := ⟨moment, attempt, hstart.now ▸ hnow, hattempt, hcopy⟩
  obtain ⟨content, mode, hstat, hnew⟩ := copyNew_eq_ok_iff.mp hmade
  rw [hstart.files, hstart.here] at hstat hnew
  obtain ⟨hgains, htarget, hfree, hcopied⟩ := createNew_locked hlock hname hnew
  exact ⟨hgains, htarget, content, mode, hname, hfree, (stat_locked hlock).symm.trans hstat, hcopied⟩

end Bulk

end SealedConfig
