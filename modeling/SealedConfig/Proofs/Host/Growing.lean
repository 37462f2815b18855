import SealedConfig.Proofs.Host.Beside

/-!
# Trees that only grow

Making directories and writing files where nothing is leaves all that stands. A path whose way is not there yet may point at a file
all the same, since going up again leads past the missing part: such a file is not seen until the directories on the way are made.
Directories are made at a path and above it and nowhere else, also when not all of them can be made.
-/

namespace SealedConfig

/-- A path has itself and what is left when steps are taken off its end above it. -/
inductive FilePath.Above : String → String → Prop where
  | self (path : String) : Above path path
  | parent {path next above : String} (h : parent? path = some next) (habove : Above next above) : Above path above

namespace FileTree

open FilePath (isAbsolute steps)

variable {tree grown tree' : FileTree} {here location : Location} {path : String} {place : Place} {content : Bytes} {mode : Nat}

/-! ## Where a path points -/

/-- The location that steps lead to once each of them can be taken. -/
def pointAt (here : Location) : List String → Location
  | [] => here
  | step :: rest =>
    if staysPut step then pointAt here rest
    else if step = ".." then pointAt here.dropLast rest
    else pointAt (here ++ [step]) rest

/-- The location that a path points at, whether or not the directories on its way are there. -/
def points (here : Location) (path : String) : Location := pointAt (if isAbsolute path then [] else here) (steps path)

/-- Empty steps point at where they start. -/
theorem pointAt_empty (here : Location) {rest : List String} (h : rest.all (· == "") = true) : pointAt here rest = here := by
  induction rest with
  | nil => rfl
  | cons step rest ih =>
    rw [List.all_cons, Bool.and_eq_true, beq_iff_eq] at h
    have hstays : staysPut step = true := by
      rw [h.1]
      rfl
    rw [pointAt, if_pos hstays]
    exact ih h.2

/-- Steps that can be taken lead to where they point. -/
theorem pointAt_of_follow {rest : List String} (h : tree.follow here rest = .ok location) : location = pointAt here rest := by
  induction rest generalizing here with
  | nil => exact (Except.ok.inj h).symm
  | cons step rest ih =>
    unfold follow at h
    unfold pointAt
    split at h
    · rename_i hstays
      rw [if_pos hstays]
      exact ih h
    rename_i hstays
    rw [if_neg hstays]
    split at h
    · rename_i hup
      rw [if_pos hup]
      exact ih h
    rename_i hup
    rw [if_neg hup]
    split at h
    · cases h
    split at h
    · rename_i hempty
      rw [pointAt_empty _ hempty]
      exact (Except.ok.inj h).symm
    split at h
    · cases h
    · cases h
    · exact ih h

/-- A path that leads somewhere leads to where it points. -/
theorem location_of_resolve (h : tree.resolve here path = .ok place) : place.location = points here path := by
  obtain ⟨-, -, -, hfollow, -⟩ := resolve_eq_ok_iff.mp h
  rw [← FilePath.steps_eq] at hfollow
  exact pointAt_of_follow hfollow

/-- A file that a path points at is not seen, since a directory on the way is missing. -/
def Hides (tree : FileTree) (here : Location) (path : String) : Prop :=
  tree.resolve here path = .error .notFound ∧ ∃ content mode, tree.get? (points here path) = some (.file content mode)

/-! ## What still stands -/

/-- All that stands in the first tree stands in the second one. -/
def Grows (tree tree' : FileTree) : Prop := ∀ location node, tree.get? location = some node → tree'.get? location = some node

theorem Grows.refl (tree : FileTree) : tree.Grows tree := fun _ _ h => h

theorem Grows.trans {tree'' : FileTree} (h : tree.Grows tree') (h' : tree'.Grows tree'') : tree.Grows tree'' :=
  fun location node hn => h' location node (h location node hn)

/-- No directory goes. -/
theorem Grows.keepsDirectories (h : tree.Grows tree') : tree.KeepsDirectories tree' := fun location mode => h location (.directory mode)

/-- What a path leads to stays. -/
theorem Grows.stat_eq_ok (h : tree.Grows tree') {node : FileNode} (hs : tree.stat here path = .ok node) :
    tree'.stat here path = .ok node := by
  unfold stat at hs ⊢
  cases hplace : tree.resolve here path with
  | error fault =>
    rw [hplace] at hs
    cases hs
  | ok place =>
    rw [hplace] at hs
    rw [h.keepsDirectories.resolve hplace]
    dsimp only at hs ⊢
    cases hnode : tree.get? place.location with
    | none =>
      rw [hnode] at hs
      cases hs
    | some found =>
      rw [hnode] at hs
      rw [h _ _ hnode]
      exact hs

/-- Steps that fail otherwise than for want of a directory still fail so. -/
theorem Grows.follow_error (h : tree.Grows tree') {rest : List String} {fault : FileFault} (hne : fault ≠ .notFound)
    (hf : tree.follow here rest = .error fault) : tree'.follow here rest = .error fault := by
  induction rest generalizing here with
  | nil => cases hf
  | cons step rest ih =>
    unfold follow at hf ⊢
    split at hf
    · rename_i hstays
      rw [if_pos hstays]
      exact ih hf
    rename_i hstays
    rw [if_neg hstays]
    split at hf
    · rename_i hup
      rw [if_pos hup]
      exact ih hf
    rename_i hup
    rw [if_neg hup]
    split at hf
    · rename_i hlong
      rw [if_pos hlong, hf]
    rename_i hlong
    rw [if_neg hlong]
    split at hf
    · cases hf
    rename_i hmore
    rw [if_neg hmore]
    split at hf
    · exact absurd (Except.error.inj hf).symm hne
    · rename_i hfile
      rw [h _ _ hfile]
      exact hf
    · rename_i hdirectory
      rw [h _ _ hdirectory]
      exact ih hf

/-- A path that leads nowhere, not for want of a directory on its way, still leads nowhere. -/
theorem Grows.resolve_error (h : tree.Grows tree') {fault : FileFault} (hne : fault ≠ .notFound)
    (hr : tree.resolve here path = .error fault) : tree'.resolve here path = .error fault := by
  unfold resolve at hr ⊢
  split at hr
  · rename_i hzero
    rw [if_pos hzero, hr]
  rename_i hzero
  rw [if_neg hzero]
  split at hr
  · exact absurd (Except.error.inj hr).symm hne
  rename_i hempty
  rw [if_neg hempty]
  split at hr
  · rename_i hlong
    rw [if_pos hlong, hr]
  rename_i hlong
  rw [if_neg hlong]
  dsimp only at hr ⊢
  cases hfollow : tree.follow (if isAbsolute path then [] else here) (steps path) with
  | ok location =>
    rw [hfollow] at hr
    cases hr
  | error cause =>
    rw [hfollow] at hr
    obtain rfl : cause = fault := Except.error.inj hr
    rw [h.follow_error hne hfollow]
    rfl

/-! ## New directories -/

/-- Nothing has changed but that there are new directories, and these at some locations only. -/
def GainsDirectories (tree : FileTree) (fresh : Location → Prop) (tree' : FileTree) : Prop :=
  ∀ location, tree'.get? location = tree.get? location ∨
    tree.get? location = none ∧ tree'.get? location = some (.directory directoryMode) ∧ fresh location

section

variable {fresh : Location → Prop}

theorem GainsDirectories.refl (tree : FileTree) (fresh : Location → Prop) : tree.GainsDirectories fresh tree := fun _ => Or.inl rfl

theorem GainsDirectories.mono {other : Location → Prop} (h : tree.GainsDirectories fresh tree')
    (hf : ∀ location, fresh location → other location) : tree.GainsDirectories other tree' :=
  fun location => (h location).imp_right fun ⟨hnone, hmade, hl⟩ => ⟨hnone, hmade, hf location hl⟩

theorem GainsDirectories.trans {tree'' : FileTree} (h : tree.GainsDirectories fresh tree')
    (h' : tree'.GainsDirectories fresh tree'') : tree.GainsDirectories fresh tree'' := by
  intro location
  rcases h' location with heq | ⟨hnone, hmade, hl⟩
  · rw [heq]
    exact h location
  · rcases h location with heq | ⟨hnone', -, -⟩
    · exact Or.inr ⟨heq ▸ hnone, hmade, hl⟩
    · exact Or.inr ⟨hnone', hmade, hl⟩

/-- All that stood still stands. -/
theorem GainsDirectories.grows (h : tree.GainsDirectories fresh tree') : tree.Grows tree' := by
  intro location node hnode
  rcases h location with heq | ⟨hnone, -, -⟩
  · rw [heq, hnode]
  · rw [hnone] at hnode
    cases hnode

/-- A directory that is there is not made. -/
theorem createDirectory_of_isDirectory (h : tree.isDirectory here path = true) :
    tree.createDirectory here path = .error .alreadyExists := by
  unfold isDirectory stat at h
  rw [createDirectory]
  cases hplace : tree.resolve here path with
  | error fault =>
    rw [hplace] at h
    cases h
  | ok place =>
    rw [hplace] at h
    dsimp only at h ⊢
    cases hnode : tree.get? place.location with
    | none =>
      rw [hnode] at h
      cases h
    | some node => rfl

/-- A directory is made where its path points and nothing is. -/
theorem gains_of_createDirectory (h : tree.createDirectory here path = .ok tree') :
    tree.GainsDirectories (· = points here path) tree' := by
  unfold createDirectory at h
  split at h
  · cases h
  rename_i place hplace
  split at h
  · cases h
  rename_i hnone
  obtain rfl := Except.ok.inj h
  intro other
  by_cases hother : other = place.location
  · subst hother
    exact Or.inr ⟨hnone, tree.get?_set_self (ne_nil_of_get?_none hnone) _, location_of_resolve hplace⟩
  · exact Or.inl (tree.get?_set_other hother _)

theorem gains_of_ensureDirectory (h : tree.ensureDirectory here path = .ok tree') :
    tree.GainsDirectories (· = points here path) tree' := by
  unfold ensureDirectory at h
  split at h
  · rename_i made hmade
    obtain rfl := Except.ok.inj h
    exact gains_of_createDirectory hmade
  · split at h
    · obtain rfl := Except.ok.inj h
      exact .refl tree _
    · cases h

/-- Making directories, whether all of them can be made or not, makes some where the path points or a path above it, and nothing else. -/
theorem gains_of_makeDirectories (tree : FileTree) (here : Location) (room : Nat) (path : String) :
    tree.GainsDirectories (fun location => ∃ above, FilePath.Above path above ∧ location = points here above)
      (tree.makeDirectories here room path).2 := by
  -- one more directory above at every step down in `room`
  induction room generalizing path with
  | zero => exact .refl tree _
  | succ room ih =>
    have hself {other made : FileTree} (h : other.GainsDirectories (· = points here path) made) :
        other.GainsDirectories (fun location => ∃ above, FilePath.Above path above ∧ location = points here above) made :=
      h.mono fun location hl => ⟨path, .self path, hl⟩
    unfold makeDirectories
    split
    · exact .refl tree _
    split
    · rename_i made hmade
      exact hself (gains_of_createDirectory hmade)
    · split
      · exact .refl tree _
      rename_i next hnext
      have habove := (ih next).mono fun location ⟨above, hpath, hl⟩ =>
        (⟨above, .parent hnext hpath, hl⟩ : ∃ above, FilePath.Above path above ∧ location = points here above)
      split
      · rename_i fault made hmade
        rw [hmade] at habove
        exact habove
      · rename_i made hmade
        rw [hmade] at habove
        split
        · rename_i whole hwhole
          exact habove.trans (hself (gains_of_ensureDirectory hwhole))
        · exact habove
    · split <;> exact .refl tree _

end

/-- All the directories can be made where making them comes to no fault. -/
theorem createDirectories_eq_ok_iff {room : Nat} :
    tree.createDirectories here room path = .ok tree' ↔ tree.makeDirectories here room path = (.ok (), tree') := by
  unfold createDirectories
  rcases tree.makeDirectories here room path with ⟨fault | done, made⟩
  · simp
  · simp

/-! ## Written files -/

/-- A file can be written where a path leads to one or to nothing, and nothing else changes. -/
theorem writePrivate_eq_ok_iff :
    tree.writePrivate here path content = .ok tree' ↔
      ∃ place, tree.resolve here path = .ok place ∧ place.mustBeDirectory = false ∧
        (∀ mode, tree.get? place.location ≠ some (.directory mode)) ∧
        tree.set place.location (.file content privateMode) = tree' := by
  cases hplace : tree.resolve here path with
  | error fault => simp [writePrivate, writable, hplace]
  | ok place =>
    cases hdir : place.mustBeDirectory with
    | true => simp [writePrivate, writable, hplace, hdir]
    | false =>
      cases hnode : tree.get? place.location with
      | none => simp [writePrivate, writable, hplace, hdir, hnode]
      | some node => cases node <;> simp [writePrivate, writable, hplace, hdir, hnode]

/-- A file can be written at a path: it leads to one, or to a name in a directory. -/
def TakesFile (tree : FileTree) (here : Location) (path : String) : Prop :=
  ∃ place, tree.resolve here path = .ok place ∧ place.mustBeDirectory = false ∧
    ∀ mode, tree.get? place.location ≠ some (.directory mode)

/-- Where a file can be written one is, whatever its content. -/
theorem TakesFile.exists_written (h : tree.TakesFile here path) (content : Bytes) :
    ∃ written, tree.writePrivate here path content = .ok written := by
  obtain ⟨place, hplace, hdir, hnode⟩ := h
  exact ⟨_, writePrivate_eq_ok_iff.mpr ⟨place, hplace, hdir, hnode, rfl⟩⟩

/-- Where a file is one can be written. -/
theorem takesFile_of_stat (hs : tree.stat here path = .ok (.file content mode)) : tree.TakesFile here path := by
  obtain ⟨place, hplace, hfile, hdir⟩ := stat_eq_file_iff.mp hs
  refine ⟨place, hplace, hdir, fun bits hbits => ?_⟩
  rw [hfile] at hbits
  cases hbits

/-- No directory goes when a file is written. -/
theorem keepsDirectories_of_writePrivate (h : tree.writePrivate here path content = .ok tree') : tree.KeepsDirectories tree' := by
  obtain ⟨place, -, -, hnode, rfl⟩ := writePrivate_eq_ok_iff.mp h
  intro other bits hbits
  have hne : other ≠ place.location := by
    rintro rfl
    exact hnode bits hbits
  rw [tree.get?_set_other hne, hbits]

/-- A file that is written stands where its path points, and all else is as it was. -/
theorem get?_writePrivate (h : tree.writePrivate here path content = .ok tree') :
    tree'.get? (points here path) = some (.file content privateMode) ∧
      ∀ location, location ≠ points here path → tree'.get? location = tree.get? location := by
  obtain ⟨place, hplace, -, hnode, rfl⟩ := writePrivate_eq_ok_iff.mp h
  have hroot : place.location ≠ [] := by
    intro hroot
    rw [hroot] at hnode
    exact hnode _ rfl
  rw [← location_of_resolve hplace]
  exact ⟨tree.get?_set_self hroot _, fun location hother => tree.get?_set_other hother _⟩

/-- A file that is written stands there. -/
theorem stat_of_writePrivate (h : tree.writePrivate here path content = .ok tree') :
    tree'.stat here path = .ok (.file content privateMode) := by
  have hkeeps := keepsDirectories_of_writePrivate h
  obtain ⟨place, hplace, hdir, -, -⟩ := writePrivate_eq_ok_iff.mp h
  refine stat_eq_file_iff.mpr ⟨place, hkeeps.resolve hplace, ?_, hdir⟩
  rw [location_of_resolve hplace]
  exact (get?_writePrivate h).1

/-- A file stays as it is when one is written that another path points at. -/
theorem stat_writePrivate_other {other : String} {bytes : Bytes} (h : tree.writePrivate here other bytes = .ok tree')
    (hne : points here other ≠ points here path) (hs : tree.stat here path = .ok (.file content mode)) :
    tree'.stat here path = .ok (.file content mode) := by
  have hkeeps := keepsDirectories_of_writePrivate h
  obtain ⟨place, hplace, hfile, hdir⟩ := stat_eq_file_iff.mp hs
  have hother : place.location ≠ points here other := by
    rw [location_of_resolve hplace]
    exact hne.symm
  exact stat_eq_file_iff.mpr ⟨place, hkeeps.resolve hplace, ((get?_writePrivate h).2 _ hother).trans hfile, hdir⟩

/-- Nothing stood where a file can be written later and none was found, unless the path hid a file. -/
theorem get?_of_takesFile (hnew : ∀ node, tree.stat here path ≠ .ok node) (hhides : ¬tree.Hides here path)
    (hgrown : tree.Grows grown) (h : grown.TakesFile here path) : tree.get? (points here path) = none := by
  obtain ⟨place, hplace, hdir, hnode⟩ := h
  rw [← location_of_resolve hplace]
  cases hold : tree.get? place.location with
  | none => rfl
  | some node =>
    exfalso
    cases node with
    | directory bits => exact hnode bits (hgrown _ _ hold)
    | file old bits =>
      -- the file was there before, and the path did not lead to it
      cases hbefore : tree.resolve here path with
      | ok before =>
        obtain rfl : place = before := Except.ok.inj (hplace.symm.trans (hgrown.keepsDirectories.resolve hbefore))
        exact hnew _ (stat_eq_file_iff.mpr ⟨place, hbefore, hold, hdir⟩)
      | error fault =>
        by_cases hfault : fault = .notFound
        · rw [location_of_resolve hplace] at hold
          exact hhides ⟨hfault ▸ hbefore, old, bits, hold⟩
        · rw [hgrown.resolve_error hfault hbefore] at hplace
          cases hplace

/-- Where a file is written it could be. -/
theorem takesFile_of_writePrivate (h : tree.writePrivate here path content = .ok tree') : tree.TakesFile here path := by
  obtain ⟨place, hplace, hdir, hnode, -⟩ := writePrivate_eq_ok_iff.mp h
  exact ⟨place, hplace, hdir, hnode⟩

/-- Nothing stood where a file is written later and none was found, unless the path hid a file. -/
theorem get?_of_writePrivate (hnew : ∀ node, tree.stat here path ≠ .ok node) (hhides : ¬tree.Hides here path)
    (hgrown : tree.Grows grown) (h : grown.writePrivate here path content = .ok tree') : tree.get? (points here path) = none :=
  get?_of_takesFile hnew hhides hgrown (takesFile_of_writePrivate h)

/-- A file that is written later takes the place of nothing that stood where none was found, unless the path hid a file. -/
theorem grows_of_writePrivate (hnew : ∀ node, tree.stat here path ≠ .ok node) (hhides : ¬tree.Hides here path)
    (hgrown : tree.Grows grown) (h : grown.writePrivate here path content = .ok tree') : tree.Grows tree' := by
  have hfree := get?_of_writePrivate hnew hhides hgrown h
  intro other node hother
  have hne : other ≠ points here path := by
    rintro rfl
    rw [hfree] at hother
    cases hother
  rw [(get?_writePrivate h).2 other hne, hgrown _ _ hother]

/-! ## Changes -/

/-- All that is not as it was is such as may be new. -/
def ChangesOnly (tree : FileTree) (fresh : Location → FileNode → Prop) (tree' : FileTree) : Prop :=
  ∀ location, tree'.get? location = tree.get? location ∨ ∃ node, tree'.get? location = some node ∧ fresh location node

section

variable {fresh : Location → FileNode → Prop}

theorem ChangesOnly.refl (tree : FileTree) (fresh : Location → FileNode → Prop) : tree.ChangesOnly fresh tree := fun _ => Or.inl rfl

/-- Directories may be new where nothing was. -/
theorem ChangesOnly.gains {made : Location → Prop} (h : tree.ChangesOnly fresh grown) (h' : grown.GainsDirectories made tree')
    (hfresh : ∀ location, made location → tree.get? location = none → fresh location (.directory directoryMode)) :
    tree.ChangesOnly fresh tree' := by
  intro location
  rcases h' location with heq | ⟨hnone, hnew, hmade⟩
  · rw [heq]
    exact h location
  · rcases h location with heq | ⟨node, hnode, -⟩
    · exact Or.inr ⟨_, hnew, hfresh location hmade (heq ▸ hnone)⟩
    · rw [hnone] at hnode
      cases hnode

/-- A file may be written. -/
theorem ChangesOnly.write (h : tree.ChangesOnly fresh grown) (h' : grown.writePrivate here path content = .ok tree')
    (hfresh : fresh (points here path) (.file content privateMode)) : tree.ChangesOnly fresh tree' := by
  obtain ⟨hwritten, hothers⟩ := get?_writePrivate h'
  intro location
  by_cases hlocation : location = points here path
  · rw [hlocation]
    exact Or.inr ⟨_, hwritten, hfresh⟩
  · rw [hothers location hlocation]
    exact h location

/-- Where no file may be new, and a directory only where nothing was, the files are those that were there. -/
theorem ChangesOnly.file_iff (h : tree.ChangesOnly fresh tree') (hfile : ∀ content mode, ¬fresh location (.file content mode))
    (hdirectory : ∀ mode, fresh location (.directory mode) → tree.get? location = none) :
    tree'.get? location = some (.file content mode) ↔ tree.get? location = some (.file content mode) := by
  rcases h location with heq | ⟨node, hnode, hfresh⟩
  · rw [heq]
  · cases node with
    | file other bits => exact absurd hfresh (hfile other bits)
    | directory bits => simp [hnode, hdirectory bits hfresh]

end

end FileTree

end SealedConfig
