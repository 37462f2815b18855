import SealedConfig.Proofs.Host.Path

/-!
# Trees that gain files

Where paths lead stays the same when a tree gains files, and a path still leads to the same node when the new files have its own
name with an ending.
-/

namespace SealedConfig.FileTree

/-- A path leads to a location. -/
def Leads (tree : FileTree) (here : Location) (path : String) (location : Location) : Prop :=
  ∃ place, tree.resolve here path = .ok place ∧ place.location = location

/-- A path leads to a location where nothing is. -/
def IsFree (tree : FileTree) (here : Location) (path : String) : Prop :=
  ∃ place, tree.resolve here path = .ok place ∧ tree.get? place.location = none

/-- Everything stands in the second tree as it does in the first, and beyond that only files where new ones may be. -/
def Gains (tree : FileTree) (fresh : Location → Prop) (tree' : FileTree) : Prop :=
  ∀ location, tree'.get? location = tree.get? location ∨
    tree.get? location = none ∧ (∃ content mode, tree'.get? location = some (.file content mode)) ∧ fresh location

/-- A location that a path with some ending leads to. -/
def IsBeside (tree : FileTree) (here : Location) (path : String) (location : Location) : Prop :=
  ∃ ending, IsEnding ending ∧ tree.Leads here (path ++ ending) location

variable {tree tree' tree'' : FileTree} {here location : Location} {path : String} {fresh : Location → Prop}

/-! ## What is gained -/

theorem Gains.refl (tree : FileTree) (fresh : Location → Prop) : tree.Gains fresh tree := fun _ => Or.inl rfl

theorem Gains.mono {other : Location → Prop} (h : tree.Gains fresh tree') (hf : ∀ location, fresh location → other location) :
    tree.Gains other tree' := fun location => (h location).imp_right fun ⟨hnone, hfile, hl⟩ => ⟨hnone, hfile, hf location hl⟩

theorem Gains.trans (h : tree.Gains fresh tree') (h' : tree'.Gains fresh tree'') : tree.Gains fresh tree'' := by
  intro location
  rcases h' location with heq | ⟨hnone, hfile, hl⟩
  · rw [heq]
    exact h location
  · rcases h location with heq | ⟨hnone', -, -⟩
    · exact Or.inr ⟨heq ▸ hnone, hfile, hl⟩
    · exact Or.inr ⟨hnone', hfile, hl⟩

/-- A file that is set where nothing was is gained. -/
theorem gains_set {content : Bytes} {mode : Nat} (hnone : tree.get? location = none) (hl : fresh location) :
    tree.Gains fresh (tree.set location (.file content mode)) := by
  intro other
  by_cases h : other = location
  · subst h
    exact Or.inr ⟨hnone, ⟨content, mode, tree.get?_set_self (ne_nil_of_get?_none hnone) _⟩, hl⟩
  · exact Or.inl (tree.get?_set_other h _)

/-- What was there before still is. -/
theorem Gains.get?_eq_some (h : tree.Gains fresh tree') {node : FileNode} (hn : tree.get? location = some node) :
    tree'.get? location = some node := by
  rcases h location with heq | ⟨hnone, -, -⟩
  · rw [heq, hn]
  · rw [hnone] at hn
    cases hn

/-- Elsewhere than where new files may be nothing has changed. -/
theorem Gains.get?_eq (h : tree.Gains fresh tree') (hl : ¬fresh location) : tree'.get? location = tree.get? location :=
  (h location).resolve_right fun hgain => hl hgain.2.2

/-- Where nothing is now, nothing was before. -/
theorem Gains.get?_eq_none (h : tree.Gains fresh tree') (hn : tree'.get? location = none) : tree.get? location = none := by
  rcases h location with heq | ⟨hnone, -, -⟩
  · rw [← heq, hn]
  · exact hnone

/-- No directory goes. -/
theorem Gains.keepsDirectories (h : tree.Gains fresh tree') : tree.KeepsDirectories tree' :=
  fun _ _ hn => h.get?_eq_some hn

/-- No directory is new. -/
theorem Gains.keepsDirectories_back (h : tree.Gains fresh tree') : tree'.KeepsDirectories tree := by
  intro location mode hn
  rcases h location with heq | ⟨-, ⟨content, bits, hfile⟩, -⟩
  · rw [← heq, hn]
  · rw [hfile] at hn
    cases hn

/-- Paths lead to the same places. -/
theorem Gains.resolve_iff (h : tree.Gains fresh tree') {place : Place} :
    tree'.resolve here path = .ok place ↔ tree.resolve here path = .ok place :=
  ⟨h.keepsDirectories_back.resolve, h.keepsDirectories.resolve⟩

theorem Gains.leads_iff (h : tree.Gains fresh tree') : tree'.Leads here path location ↔ tree.Leads here path location := by
  simp only [Leads, h.resolve_iff]

/-- What is free now was free before. -/
theorem Gains.isFree (h : tree.Gains fresh tree') (hf : tree'.IsFree here path) : tree.IsFree here path := by
  obtain ⟨place, hplace, hnone⟩ := hf
  exact ⟨place, h.resolve_iff.mp hplace, h.get?_eq_none hnone⟩

/-- What was free still is, unless a file may be gained there. -/
theorem Gains.isFree_of_not_leads (h : tree.Gains fresh tree') (hf : tree.IsFree here path)
    (hl : ∀ location, tree.Leads here path location → ¬fresh location) : tree'.IsFree here path := by
  obtain ⟨place, hplace, hnone⟩ := hf
  exact ⟨place, h.resolve_iff.mpr hplace, by rw [h.get?_eq (hl _ ⟨place, hplace, rfl⟩), hnone]⟩

/-! ## Places beside a path -/

/-- A path leads to one location only. -/
theorem Leads.unique {other : Location} (h : tree.Leads here path location) (h' : tree.Leads here path other) :
    location = other := by
  obtain ⟨place, hplace, rfl⟩ := h
  obtain ⟨place', hplace', rfl⟩ := h'
  rw [Except.ok.inj (hplace.symm.trans hplace')]

/-- Different endings lead to different locations. -/
theorem ending_unique {first second : String} (he : IsEnding first) (he' : IsEnding second)
    (h : tree.Leads here (path ++ first) location) (h' : tree.Leads here (path ++ second) location) : first = second := by
  obtain ⟨place, hplace, rfl⟩ := h
  obtain ⟨place', hplace', heq⟩ := h'
  obtain ⟨-, -, -, directory, hbase, rfl⟩ := (resolve_append_eq_ok_iff he).mp hplace
  obtain ⟨-, -, -, directory', hbase', rfl⟩ := (resolve_append_eq_ok_iff he').mp hplace'
  obtain rfl : directory = directory' := Option.some.inj (hbase.symm.trans hbase')
  have hlast := (List.cons.inj (List.append_cancel_left heq)).1
  rw [← String.toList_inj, String.toList_append, String.toList_append, List.append_cancel_left_eq, String.toList_inj] at hlast
  exact hlast.symm

/-- Beside a path there is not what the path itself leads to. -/
theorem IsBeside.not_leads (h : tree.IsBeside here path location) : ¬tree.Leads here path location := by
  rintro ⟨target, htarget, heq⟩
  obtain ⟨ending, he, place, hplace, rfl⟩ := h
  obtain ⟨-, -, -, directory, hbase, rfl⟩ := (resolve_append_eq_ok_iff he).mp hplace
  obtain ⟨-, hne, -, -, -⟩ := resolve_eq_ok_iff.mp htarget
  obtain ⟨target', htarget', hcases⟩ := resolve_of_append he hplace hne hbase
  obtain rfl : target = target' := Except.ok.inj (htarget.symm.trans htarget')
  rw [heq] at hcases
  rcases hcases with h | h | h
  · exact absurd (congrArg List.length h) (by simp)
  · have hlen := congrArg List.length h
    simp only [List.length_append, List.length_cons, List.length_nil, List.length_dropLast] at hlen
    omega
  · have hlast := (List.cons.inj (List.append_cancel_left h)).1
    have hlen := congrArg String.length hlast
    rw [String.length_append] at hlen
    have := he.long
    omega

/-! ## The node that a path names -/

/-- Trees with the same nodes are not told apart by following steps. -/
theorem follow_congr (h : ∀ location, tree'.get? location = tree.get? location) (steps : List String) :
    tree'.follow here steps = tree.follow here steps := by
  induction steps generalizing here with
  | nil => rfl
  | cons step steps ih => simp only [follow, h, ih]

/-- A path names the same node when only files beside it are new. -/
theorem Gains.stat_eq (h : tree.Gains fresh tree') (hf : ∀ location, fresh location → tree.IsBeside here path location) :
    tree'.stat here path = tree.stat here path := by
  by_cases hsome : ∃ location, fresh location
  · obtain ⟨location, hl⟩ := hsome
    obtain ⟨ending, he, place, hplace, rfl⟩ := hf location hl
    obtain ⟨-, -, -, directory, hbase, -⟩ := (resolve_append_eq_ok_iff he).mp hplace
    -- the empty path leads nowhere, though with an ending it names a file
    by_cases hempty : path = ""
    · rw [hempty]
      rfl
    · obtain ⟨target, htarget, -⟩ := resolve_of_append he hplace hempty hbase
      have hnode : tree'.get? target.location = tree.get? target.location :=
        h.get?_eq fun hl => (hf _ hl).not_leads ⟨target, htarget, rfl⟩
      rw [stat, stat, h.resolve_iff.mpr htarget, htarget]
      dsimp only
      rw [hnode]
  · have hsame : ∀ location, tree'.get? location = tree.get? location := fun location => h.get?_eq fun hl => hsome ⟨location, hl⟩
    simp only [stat, resolve, follow_congr hsame, hsame]

/-! ## Files -/

variable {content : Bytes} {mode : Nat}

/-- A file stays where a path leads to it when files are gained. -/
theorem Gains.stat_eq_file (h : tree.Gains fresh tree') (hs : tree.stat here path = .ok (.file content mode)) :
    tree'.stat here path = .ok (.file content mode) := by
  obtain ⟨place, hplace, hfile, hdir⟩ := stat_eq_file_iff.mp hs
  exact stat_eq_file_iff.mpr ⟨place, h.resolve_iff.mpr hplace, h.get?_eq_some hfile, hdir⟩

/-- A file stays where a path leads to it when another one is given another content. -/
theorem stat_set_other {node : FileNode} {bits : Nat} {bytes : Bytes} (hl : tree.get? location = some (.file bytes bits))
    (hs : tree.stat here path = .ok (.file content mode)) (hne : ¬tree.Leads here path location) :
    (tree.set location node).stat here path = .ok (.file content mode) := by
  obtain ⟨place, hplace, hfile, hdir⟩ := stat_eq_file_iff.mp hs
  have hother : place.location ≠ location := by
    rintro rfl
    exact hne ⟨place, hplace, rfl⟩
  refine stat_eq_file_iff.mpr ⟨place, (keepsDirectories_set hl node).resolve hplace, ?_, hdir⟩
  rw [tree.get?_set_other hother, hfile]

/-- A file that is touched is there afterwards. -/
theorem stat_of_touch (h : tree.touch here path = .ok tree') :
    ∃ content mode, tree'.stat here path = .ok (.file content mode) := by
  obtain ⟨place, hplace, hdir, ⟨⟨content, mode, hfile⟩, rfl⟩ | ⟨hnone, rfl⟩⟩ := touch_eq_ok_iff.mp h
  · exact ⟨content, mode, stat_eq_file_iff.mpr ⟨place, hplace, hfile, hdir⟩⟩
  · have hgains : tree.Gains (fun _ => True) (tree.set place.location (.file [] plainMode)) := gains_set hnone trivial
    have hmade := tree.get?_set_self (ne_nil_of_get?_none hnone) (.file [] plainMode)
    exact ⟨[], plainMode, stat_eq_file_iff.mpr ⟨place, hgains.resolve_iff.mpr hplace, hmade, hdir⟩⟩

/-- Touching a file that is there changes nothing. -/
theorem touch_of_stat (h : tree.stat here path = .ok (.file content mode)) : tree.touch here path = .ok tree := by
  obtain ⟨place, hplace, hfile, hdir⟩ := stat_eq_file_iff.mp h
  exact touch_eq_ok_iff.mpr ⟨place, hplace, hdir, Or.inl ⟨⟨content, mode, hfile⟩, rfl⟩⟩

/-- A file can be replaced where a path leads to it. -/
theorem exists_replace (h : tree.stat here path = .ok (.file content mode)) (bytes : Bytes) :
    ∃ replaced, tree.replace here path bytes = .ok replaced := by
  obtain ⟨place, hplace, hfile, hdir⟩ := stat_eq_file_iff.mp h
  exact ⟨_, replace_eq_ok_iff.mpr ⟨place, content, mode, hplace, hfile, hdir, rfl⟩⟩

/-- A file that is replaced has the new content and the bits it had. -/
theorem of_replace {bytes : Bytes} (hs : tree.stat here path = .ok (.file content mode))
    (h : tree.replace here path bytes = .ok tree') :
    ∃ location, tree.Leads here path location ∧ tree.get? location = some (.file content mode) ∧
      tree' = tree.set location (.file bytes mode) ∧ tree'.stat here path = .ok (.file bytes mode) := by
  obtain ⟨place, old, bits, hplace, hold, hdir, rfl⟩ := replace_eq_ok_iff.mp h
  obtain ⟨place', hplace', hfile, -⟩ := stat_eq_file_iff.mp hs
  obtain rfl : place = place' := Except.ok.inj (hplace.symm.trans hplace')
  obtain ⟨rfl, rfl⟩ := FileNode.file.inj (Option.some.inj (hold.symm.trans hfile))
  exact ⟨place.location, ⟨place, hplace, rfl⟩, hfile, rfl, stat_eq_file_iff.mpr
    ⟨place, (keepsDirectories_set hold _).resolve hplace, tree.get?_set_self (ne_nil_of_get?_file hold) _, hdir⟩⟩

end SealedConfig.FileTree
