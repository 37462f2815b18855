import SealedConfig.Host.Files
import SealedConfig.Host.World
import SealedConfig.Proofs.Ending
import SealedConfig.Proofs.Host.Growing

/-!
# Whole files in worlds

In a world, where no step fails but for what stands where, the runs of steps that write files come to single changes of the tree.
-/

namespace SealedConfig

namespace FileTree

variable {tree : FileTree} {location : Location} {here : Location} {path : String}

/-- Of two nodes that are set at one location the later one counts. -/
theorem set_set (tree : FileTree) (location : Location) (node other : FileNode) :
    (tree.set location node).set location other = tree.set location other := by
  have hentries (entries : List (Location × FileNode)) :
      setEntry location other (setEntry location node entries) = setEntry location other entries := by
    induction entries with
    | nil => simp [setEntry]
    | cons entry entries ih =>
      by_cases h : entry.1 = location
      · simp [setEntry, h]
      · simp [setEntry, h, ih]
  rw [set, set, set, hentries]

/-- What is appended to a file that was set at a location, other than the root, is set with it. -/
theorem append_set (hl : location ≠ []) (content bytes : Bytes) (mode : Nat) :
    (tree.set location (.file content mode)).append location bytes = tree.set location (.file (content ++ bytes) mode) := by
  rw [append, get?_set_self _ hl]
  exact set_set ..

/-- The bits of a file that was set at a location, other than the root, are set with it. -/
theorem setMode_set (hl : location ≠ []) (content : Bytes) (mode bits : Nat) :
    (tree.set location (.file content mode)).setMode location bits = tree.set location (.file content bits) := by
  rw [setMode, get?_set_self _ hl]
  exact set_set ..

/-- A file that is set where nothing was and then removed leaves the tree as it was. -/
theorem erase_set (hfree : tree.get? location = none) (content : Bytes) (mode : Nat) :
    (tree.set location (.file content mode)).erase location = tree := by
  have hl := ne_nil_of_get?_none hfree
  rw [get?_eq_lookup _ hl] at hfree
  rw [erase, get?_set_self _ hl]
  dsimp only
  rw [set, TemporaryAux.setEntry_of_lookup_none _ hfree, List.filter_append, TemporaryAux.filter_of_lookup_none hfree]
  simp

/-- The bytes that are read are those of the file at a path. -/
theorem read_eq_ok_iff {content : Bytes} :
    tree.read here path = .ok content ↔ ∃ mode, tree.stat here path = .ok (.file content mode) := by
  rw [read]
  rcases tree.stat here path with fault | ⟨bytes, bits⟩ | bits <;> simp

/-- The bits that are had are those of the file at a path. -/
theorem modeOf_eq_ok_iff {mode : Nat} :
    tree.modeOf here path = .ok mode ↔ ∃ content, tree.stat here path = .ok (.file content mode) := by
  rw [modeOf]
  rcases tree.stat here path with fault | ⟨content, bits⟩ | bits <;> simp

/-- A file that can be written is, or is to be, where its path points. -/
theorem of_writable {node : Option FileNode} (h : tree.writable here path = .ok (location, node)) :
    location = points here path ∧ node = tree.get? location ∧ (∀ mode, node ≠ some (.directory mode)) ∧ tree.TakesFile here path := by
  unfold writable at h
  split at h
  · cases h
  rename_i place hplace
  split at h
  · cases h
  rename_i hfile
  split at h
  · cases h
  · rename_i hnot
    obtain ⟨rfl, rfl⟩ := Prod.mk.inj (Except.ok.inj h)
    exact ⟨location_of_resolve hplace, rfl, hnot, place, hplace, by simpa using hfile, hnot⟩

/-- A file that can be written is not the root. -/
theorem ne_nil_of_writable {node : Option FileNode} (h : tree.writable here path = .ok (location, node)) : location ≠ [] := by
  obtain ⟨-, rfl, hnot, -⟩ := of_writable h
  rintro rfl
  exact hnot 0o755 rfl

/-- A new file is made empty and can then be filled, or cannot be made whatever is to be in it. -/
theorem openNew_cases (tree : FileTree) (here : Location) (path : String) (content : Bytes) (mode : Nat) :
    (∃ fault, tree.openNew here path = .error fault ∧ tree.createNew here path content mode = .error fault) ∨
      ∃ location, tree.get? location = none ∧ tree.openNew here path = .ok (location, tree.set location (.file [] plainMode)) ∧
        tree.createNew here path content mode = .ok (tree.set location (.file content mode)) := by
  rw [openNew, createNew, createNew]
  cases tree.resolve here path with
  | error fault => exact Or.inl ⟨fault, rfl, rfl⟩
  | ok place =>
    dsimp only
    cases hnode : tree.get? place.location with
    | some node => exact Or.inl ⟨_, rfl, rfl⟩
    | none =>
      dsimp only
      split
      · exact Or.inl ⟨_, rfl, rfl⟩
      · exact Or.inr ⟨place.location, hnode, rfl, rfl⟩

end FileTree

open FileTree

namespace Host

/-- A file that was set is filled at one stroke. -/
theorem fill_set {location : Location} (hl : location ≠ []) (w : World) (tree : FileTree) (content : Bytes) (mode bits : Nat) :
    ending (fill location content bits) { w with files := tree.set location (.file [] mode) } =
      (.ok (), { w with files := tree.set location (.file content bits) }) := by
  have hfill : ending (fill location content bits) { w with files := tree.set location (.file [] mode) } =
      (.ok (), { w with files := ((tree.set location (.file [] mode)).append location content).setMode location bits }) := rfl
  rw [hfill, append_set hl, setMode_set hl, List.nil_append]

/-! ## Writing -/

/-- Writing a file for its owner is one change of the tree. -/
theorem writePrivate_eq (path : String) (content : Bytes) (w : World) :
    writePrivate (m := StateM World) path content w =
      w.withFiles (w.files.writePrivate w.here path content) := by
  have hopen : ending (ExceptT.mk (Host.openEmpty (m := StateM World) path)) w =
      w.withOpened (w.files.openEmpty w.here path) := rfl
  change ending (ExceptT.mk (Host.openEmpty path) >>= fun file => fill file content privateMode) w = _
  rw [FileTree.openEmpty] at hopen
  rw [FileTree.writePrivate]
  cases hplace : w.files.writable w.here path with
  | error fault =>
    rw [hplace] at hopen
    exact ending_bind_error hopen
  | ok found =>
    obtain ⟨location, node⟩ := found
    rw [hplace] at hopen
    refine (ending_bind_ok hopen).trans ?_
    exact fill_set (ne_nil_of_writable hplace) ..

/-! ## Replacing -/

/-- A temporary file is filled and moved over the file at a path. -/
theorem ending_fillAndMove {w : World} {path : String} {place : Place} {old : Bytes} {bits : Nat} {temporary : Location}
    (hplace : w.files.resolve w.here path = .ok place) (hnode : w.files.get? place.location = some (.file old bits))
    (hfile : ¬place.mustBeDirectory = true) (hfree : w.files.get? temporary = none) (content : Bytes) (mode : Nat) :
    ending (fillAndMove (m := StateM World) temporary path content mode)
        { w with files := w.files.set temporary (.file [] privateMode) } =
      (.ok (), { w with files := (w.files.set temporary (.file content mode)).rename temporary place.location }) := by
  have hne : place.location ≠ temporary := by
    rintro heq
    rw [heq, hfree] at hnode
    cases hnode
  -- the temporary file changes nothing about where the path leads and what stands there
  have hgains : w.files.Gains (fun _ => True) (w.files.set temporary (.file content mode)) := gains_set hfree trivial
  have hmove : (w.files.set temporary (.file content mode)).moveTo temporary w.here path =
      .ok ((w.files.set temporary (.file content mode)).rename temporary place.location) := by
    rw [FileTree.moveTo, hgains.resolve_iff.mpr hplace]
    dsimp only
    rw [get?_set_other _ hne, hnode]
    exact if_neg hfile
  refine (ending_bind_ok (fill_set (ne_nil_of_get?_none hfree) w _ content _ mode)).trans ?_
  exact congrArg (World.withFiles _) hmove

/-- Replacing a file is one change of the tree, and the temporary file is gone. -/
theorem replace_eq (path : String) (content : Bytes) (w : World) :
    Host.replace (m := StateM World) path content w = w.withFiles (w.files.replace w.here path content) := by
  have hmode : ending (ExceptT.mk (Host.modeOf (m := StateM World) path)) w = (w.files.modeOf w.here path, w) := rfl
  have hbeside : ending (ExceptT.mk (Host.createBeside (m := StateM World) path)) w =
      w.withOpened (w.files.openBeside w.here path) := rfl
  change ending (do
    let mode ← ExceptT.mk (Host.modeOf path)
    let file ← ExceptT.mk (Host.createBeside path)
    discardUnless file (fillAndMove file path content mode)) w = _
  rw [openBeside] at hbeside
  rw [FileTree.modeOf, FileTree.stat] at hmode
  rw [FileTree.replace]
  cases hplace : w.files.resolve w.here path with
  | error fault =>
    rw [hplace] at hmode
    exact ending_bind_error hmode
  | ok place =>
    rw [hplace] at hmode hbeside
    dsimp only at hmode hbeside ⊢
    cases hnode : w.files.get? place.location with
    | none =>
      rw [hnode] at hmode
      exact ending_bind_error hmode
    | some node =>
      rw [hnode] at hmode
      cases node with
      | directory mode => exact ending_bind_error hmode
      | file old mode =>
        dsimp only at hmode ⊢
        split
        · rename_i hdirectory
          rw [if_pos hdirectory] at hmode
          exact ending_bind_error hmode
        rename_i hfile
        rw [if_neg hfile] at hmode
        refine (ending_bind_ok hmode).trans ((ending_bind_ok hbeside).trans ?_)
        have hmoved := ending_fillAndMove hplace hnode hfile (get?_temporaryFrom w.files place.location.dropLast) content mode
        exact (ending_tryCatch _ _ _).trans (by rw [hmoved]; rfl)

/-! ## Making directories -/

/-- Whether a path leads to a directory is read off the tree. -/
theorem any_stat? (w : World) (path : String) : ((w.stat? path).any (!·.isFile)) = w.files.isDirectory w.here path := by
  rw [World.stat?, FileTree.isDirectory]
  rcases w.files.stat w.here path with fault | ⟨_, _⟩ | _ <;> rfl

theorem ending_failUnlessDirectory (path : String) (fault : FileFault) (w : World) :
    ending (failUnlessDirectory (m := StateM World) path fault) w =
      (if w.files.isDirectory w.here path then .ok () else .error fault, w) := by
  have hlook : ending (ExceptT.lift (Host.isDirectory path) : ExceptT FileFault (StateM World) Bool) w =
      (.ok ((w.stat? path).any (!·.isFile)), w) := rfl
  rw [any_stat?] at hlook
  refine (ending_bind_ok hlook).trans ?_
  cases w.files.isDirectory w.here path <;> rfl

/-- Making a directory, which may be there, is one change of the tree. -/
theorem ensureDirectory_eq (path : String) (w : World) :
    ending (Host.ensureDirectory path) w = w.withFiles (w.files.ensureDirectory w.here path) := by
  have hmake : ending (ExceptT.mk (Host.createDirectory (m := StateM World) path)) w =
      w.withFiles (w.files.createDirectory w.here path) := rfl
  rw [Host.ensureDirectory, ending_tryCatch, hmake, FileTree.ensureDirectory]
  cases w.files.createDirectory w.here path with
  | ok made => rfl
  | error fault =>
    refine (ending_failUnlessDirectory path fault w).trans ?_
    cases w.files.isDirectory w.here path <;> rfl

/-- Making a directory and those above it, whether all of them can be made or not, comes to what it comes to in the tree. -/
theorem makeDirectories_eq (room : Nat) (path : String) (w : World) :
    ending (Host.makeDirectories room path) w =
      ((w.files.makeDirectories w.here room path).1, { w with files := (w.files.makeDirectories w.here room path).2 }) := by
  -- one more directory above at every step down in `room`
  induction room generalizing path with
  | zero => rfl
  | succ room ih =>
    rw [Host.makeDirectories, FileTree.makeDirectories]
    split
    · rfl
    have hmake : ending (ExceptT.mk (Host.createDirectory (m := StateM World) path)) w =
        w.withFiles (w.files.createDirectory w.here path) := rfl
    rw [ending_tryCatch, hmake]
    cases hmade : w.files.createDirectory w.here path with
    | ok made => rfl
    | error fault =>
      by_cases hnone : fault = .notFound
      · subst hnone
        dsimp only [World.withFiles]
        rw [if_pos rfl]
        cases FilePath.parent? path with
        | none => rfl
        | some above =>
          have habove := ih above
          dsimp only
          rcases hmade : w.files.makeDirectories w.here room above with ⟨_ | _, made⟩
          · rw [hmade] at habove
            exact ending_bind_error habove
          · rw [hmade] at habove
            refine (ending_bind_ok habove).trans ?_
            rw [ensureDirectory_eq]
            dsimp only
            cases made.ensureDirectory w.here path <;> rfl
      · dsimp only [World.withFiles]
        rw [if_neg hnone]
        refine (ending_failUnlessDirectory path fault w).trans ?_
        cases fault with
        | notFound => exact absurd rfl hnone
        | _ => cases w.files.isDirectory w.here path <;> rfl

theorem createDirectories_eq (path : String) (w : World) :
    Host.createDirectories (m := StateM World) path w =
      ((w.files.makeDirectories w.here (path.length + 1) path).1,
        { w with files := (w.files.makeDirectories w.here (path.length + 1) path).2 }) :=
  makeDirectories_eq _ path w

end Host

end SealedConfig
