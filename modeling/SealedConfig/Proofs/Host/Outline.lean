import SealedConfig.Proofs.Host.FileTree
import SealedConfig.Proofs.Outcome
import SealedConfig.Proofs.Run

/-!
# The outline of a tree

What a tree is apart from what its files hold: which files and directories there are, with their permission bits. Where paths lead and
whether an operation on files fails, and with which fault, depends on the outline alone, whatever is written.
-/

namespace SealedConfig

open Outcome (Parallel)

/-- A node without what it holds. -/
def FileNode.outline : FileNode → FileNode
  | .file _ mode => .file [] mode
  | .directory mode => .directory mode

namespace FileTree

/-- Two trees have the same files and directories, with the same bits. -/
def SameOutline (tree other : FileTree) : Prop :=
  ∀ location, (other.get? location).map FileNode.outline = (tree.get? location).map FileNode.outline

variable {tree other : FileTree} {here location : Location} {path : String} {content bytes : Bytes} {mode : Nat}

/-! ## What stands there -/

/-- In two trees with the same outline stands nothing at a location, or directories, or files. -/
theorem SameOutline.cases (h : tree.SameOutline other) (location : Location) :
    tree.get? location = none ∧ other.get? location = none ∨
      (∃ mode, tree.get? location = some (.directory mode) ∧ other.get? location = some (.directory mode)) ∨
      ∃ content bytes mode, tree.get? location = some (.file content mode) ∧ other.get? location = some (.file bytes mode) := by
  have hl := h location
  cases htree : tree.get? location with
  | none =>
    rw [htree] at hl
    exact Or.inl ⟨rfl, Option.map_eq_none_iff.mp hl⟩
  | some node =>
    rw [htree] at hl
    obtain ⟨twin, htwin, heq⟩ := Option.map_eq_some_iff.mp hl
    cases node with
    | directory mode =>
      cases twin with
      | directory bits => exact Or.inr (Or.inl ⟨mode, rfl, by rw [htwin, FileNode.directory.inj heq]⟩)
      | file bytes bits => cases heq
    | file content mode =>
      cases twin with
      | directory bits => cases heq
      | file bytes bits => exact Or.inr (Or.inr ⟨content, bytes, mode, rfl, by rw [htwin, (FileNode.file.inj heq).2]⟩)

/-- Setting nodes with the same outline at a location keeps the outlines the same. -/
theorem SameOutline.set (h : tree.SameOutline other) (location : Location) {node twin : FileNode} (heq : twin.outline = node.outline) :
    (tree.set location node).SameOutline (other.set location twin) := by
  intro found
  by_cases hroot : found = []
  · rw [hroot]
    rfl
  by_cases hl : found = location
  · rw [hl, tree.get?_set_self (hl ▸ hroot), other.get?_set_self (hl ▸ hroot), Option.map_some, Option.map_some, heq]
  · rw [tree.get?_set_other hl, other.get?_set_other hl]
    exact h found

/-- Trees whose entries have the same outlines have the same outline. -/
theorem sameOutline_of_entries
    (h : other.entries.map (fun entry => (entry.1, entry.2.outline)) = tree.entries.map fun entry => (entry.1, entry.2.outline)) :
    tree.SameOutline other := by
  have hlookup (location : Location) (entries : List (Location × FileNode)) :
      (entries.lookup location).map FileNode.outline = (entries.map fun entry => (entry.1, entry.2.outline)).lookup location := by
    induction entries with
    | nil => rfl
    | cons entry rest ih =>
      rw [List.map_cons, List.lookup_cons, List.lookup_cons]
      split
      · rfl
      · exact ih
  intro location
  cases location with
  | nil => rfl
  | cons name names =>
    rw [get?_eq_lookup _ (List.cons_ne_nil name names), get?_eq_lookup _ (List.cons_ne_nil name names), hlookup, hlookup, h]

/-! ## Where paths lead -/

theorem SameOutline.follow (h : tree.SameOutline other) (here : Location) (rest : List String) :
    other.follow here rest = tree.follow here rest := by
  induction rest generalizing here with
  | nil => rfl
  | cons step rest ih =>
    unfold FileTree.follow
    rw [ih here, ih here.dropLast, ih (here ++ [step])]
    rcases h.cases (here ++ [step]) with ⟨htree, hother⟩ | ⟨mode, htree, hother⟩ | ⟨content, bytes, mode, htree, hother⟩
    all_goals rw [htree, hother]

/-- A path leads to the same place in trees with the same outline, or nowhere for the same reason. -/
theorem SameOutline.resolve (h : tree.SameOutline other) (here : Location) (path : String) :
    other.resolve here path = tree.resolve here path := by
  unfold FileTree.resolve
  dsimp only
  rw [h.follow]

/-- A path names nodes of one kind in trees with the same outline, or nothing for the same reason. -/
theorem SameOutline.stat (h : tree.SameOutline other) (here : Location) (path : String) :
    Parallel (fun node twin => twin.outline = node.outline) (tree.stat here path) (other.stat here path) := by
  unfold FileTree.stat
  rw [h.resolve]
  cases tree.resolve here path with
  | error fault => exact .error fault
  | ok place =>
    dsimp only
    rcases h.cases place.location with ⟨htree, hother⟩ | ⟨mode, htree, hother⟩ | ⟨content, bytes, mode, htree, hother⟩
    · rw [htree, hother]
      exact .error _
    · rw [htree, hother]
      exact .ok rfl
    · rw [htree, hother]
      dsimp only
      split
      · exact .error _
      · exact .ok rfl

/-! ## The operations -/

/-- A file is touched in both trees or in neither, for the same reason. -/
theorem SameOutline.touch (h : tree.SameOutline other) (here : Location) (path : String) :
    Parallel SameOutline (tree.touch here path) (other.touch here path) := by
  unfold FileTree.touch writable
  rw [h.resolve]
  cases tree.resolve here path with
  | error fault => exact .error fault
  | ok place =>
    dsimp only
    cases place.mustBeDirectory with
    | true => exact .error _
    | false =>
      rcases h.cases place.location with ⟨htree, hother⟩ | ⟨mode, htree, hother⟩ | ⟨content, bytes, mode, htree, hother⟩
      · rw [htree, hother]
        exact .ok (h.set _ rfl)
      · rw [htree, hother]
        exact .error _
      · rw [htree, hother]
        exact .ok h

/-- A new file is made in both trees or in neither, for the same reason, whatever it holds. -/
theorem SameOutline.createNew (h : tree.SameOutline other) (here : Location) (path : String) (content bytes : Bytes) (mode : Nat) :
    Parallel SameOutline (tree.createNew here path content mode) (other.createNew here path bytes mode) := by
  unfold FileTree.createNew
  rw [h.resolve]
  cases tree.resolve here path with
  | error fault => exact .error fault
  | ok place =>
    dsimp only
    rcases h.cases place.location with ⟨htree, hother⟩ | ⟨mode, htree, hother⟩ | ⟨old, twin, mode, htree, hother⟩
    · rw [htree, hother]
      dsimp only
      split
      · exact .error _
      · exact .ok (h.set _ rfl)
    · rw [htree, hother]
      exact .error _
    · rw [htree, hother]
      exact .error _

/-- A file is replaced in both trees or in neither, for the same reason, whatever it comes to hold. -/
theorem SameOutline.replace (h : tree.SameOutline other) (here : Location) (path : String) (content bytes : Bytes) :
    Parallel SameOutline (tree.replace here path content) (other.replace here path bytes) := by
  cases hplace : tree.resolve here path with
  | error fault =>
    have hother : other.resolve here path = .error fault := (h.resolve here path).trans hplace
    unfold FileTree.replace
    rw [hplace, hother]
    exact .error fault
  | ok place =>
    have hplace' : other.resolve here path = .ok place := (h.resolve here path).trans hplace
    rcases h.cases place.location with ⟨htree, hother⟩ | ⟨mode, htree, hother⟩ | ⟨old, twin, mode, htree, hother⟩
    · unfold FileTree.replace
      rw [hplace, hplace']
      dsimp only
      rw [htree, hother]
      exact .error _
    · unfold FileTree.replace
      rw [hplace, hplace']
      dsimp only
      rw [htree, hother]
      exact .error _
    · cases hdir : place.mustBeDirectory with
      | true =>
        unfold FileTree.replace
        rw [hplace, hplace']
        dsimp only
        rw [htree, hother, hdir]
        exact .error _
      | false =>
        rw [replace_eq_ok_iff.mpr ⟨place, old, mode, hplace, htree, hdir, rfl⟩,
          replace_eq_ok_iff.mpr ⟨place, twin, mode, hplace', hother, hdir, rfl⟩]
        exact .ok (h.set _ rfl)

end FileTree

/-! ## Worlds -/

/-- Two worlds have files with the same outline, and are seen from the same place at the same time. -/
structure World.SameOutline (w other : World) : Prop where
  files : w.files.SameOutline other.files
  here : other.here = w.here
  now : other.now = w.now

namespace World.SameOutline

variable {w other : World}

/-- The outlines stay the same when the files do. -/
theorem agrees {after twin : World} (h : w.SameOutline other) (hafter : w.Agrees after) (htwin : other.Agrees twin) :
    after.SameOutline twin := by
  refine ⟨?_, ?_, ?_⟩
  · rw [hafter.files, htwin.files]
    exact h.files
  · rw [hafter.here, htwin.here, h.here]
  · rw [hafter.now, htwin.now, h.now]

/-- The outlines stay the same when the files become others of one outline. -/
theorem withFiles (h : w.SameOutline other) {files twins : Except FileFault FileTree}
    (hfiles : Parallel FileTree.SameOutline files twins) :
    Parallel (fun _ _ => True) (w.withFiles files).1 (other.withFiles twins).1 ∧
      (w.withFiles files).2.SameOutline (other.withFiles twins).2 := by
  cases hfiles with
  | error fault => exact ⟨.error fault, h⟩
  | ok hfiles => exact ⟨.ok trivial, hfiles, h.here, h.now⟩

/-- A path names nothing in both worlds, for the same reason, or directories, or files with the same bits. -/
theorem stat_cases (h : w.SameOutline other) (path : String) :
    (∃ fault, w.files.stat w.here path = .error fault ∧ other.files.stat other.here path = .error fault) ∨
      (∃ mode bits, w.files.stat w.here path = .ok (.directory mode) ∧ other.files.stat other.here path = .ok (.directory bits)) ∨
      ∃ content bytes mode, w.files.stat w.here path = .ok (.file content mode) ∧
        other.files.stat other.here path = .ok (.file bytes mode) := by
  rw [h.here]
  rcases (h.files.stat w.here path).cases with ⟨fault, hfail, hfail'⟩ | ⟨node, twin, hnode, htwin, hkind⟩
  · exact Or.inl ⟨fault, hfail, hfail'⟩
  · cases node with
    | directory mode =>
      cases twin with
      | directory bits => exact Or.inr (Or.inl ⟨mode, bits, hnode, htwin⟩)
      | file bytes bits => cases hkind
    | file content mode =>
      cases twin with
      | directory bits => cases hkind
      | file bytes bits => exact Or.inr (Or.inr ⟨content, bytes, mode, hnode, (FileNode.file.inj hkind).2 ▸ htwin⟩)

/-- A file is read in both worlds or in neither, for the same reason. -/
theorem read (h : w.SameOutline other) (path : String) :
    Parallel (fun _ _ => True) (w.files.read w.here path) (other.files.read other.here path) := by
  unfold FileTree.read
  rcases h.stat_cases path with ⟨fault, hw, hother⟩ | ⟨mode, bits, hw, hother⟩ | ⟨content, bytes, mode, hw, hother⟩
  · rw [hw, hother]
    exact .error fault
  · rw [hw, hother]
    exact .error _
  · rw [hw, hother]
    exact .ok trivial

/-- The bits of a file are told in both worlds or in neither, for the same reason, and are the same. -/
theorem modeOf (h : w.SameOutline other) (path : String) :
    Parallel Eq (w.files.modeOf w.here path) (other.files.modeOf other.here path) := by
  unfold FileTree.modeOf
  rcases h.stat_cases path with ⟨fault, hw, hother⟩ | ⟨mode, bits, hw, hother⟩ | ⟨content, bytes, mode, hw, hother⟩
  · rw [hw, hother]
    exact .error fault
  · rw [hw, hother]
    exact .error _
  · rw [hw, hother]
    exact .ok rfl

end World.SameOutline

end SealedConfig
