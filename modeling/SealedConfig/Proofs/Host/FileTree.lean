import SealedConfig.Host.FileTree

/-!
# What the operations on a file tree change

Setting a node changes the tree at one location. A temporary file is made where nothing was and moved over the file that is
replaced, so of it nothing remains.
-/

namespace SealedConfig.FileTree

variable {tree : FileTree} {location : Location} {node : FileNode}

/-! ## Setting a node -/

theorem lookup_setEntry (location other : Location) (node : FileNode) (entries : List (Location × FileNode)) :
    (setEntry location node entries).lookup other = if other = location then some node else entries.lookup other := by
  induction entries with
  | nil =>
    by_cases h : other = location <;> simp [setEntry, h]
  | cons entry entries ih =>
    obtain ⟨l, n⟩ := entry
    by_cases hl : l = location
    · subst hl
      by_cases h : other = l
      · subst h; simp [setEntry]
      · simp [setEntry, List.lookup_cons, show (other == l) = false from beq_eq_false_iff_ne.mpr h, h]
    · simp only [setEntry, if_neg hl, List.lookup_cons, ih]
      by_cases h : other = location
      · subst h
        simp [show (other == l) = false from beq_eq_false_iff_ne.mpr fun h => hl h.symm]
      · simp [h]

/-- What stands at a location that is not the root. -/
theorem get?_eq_lookup (tree : FileTree) (h : location ≠ []) : tree.get? location = tree.entries.lookup location := by
  cases location with
  | nil => exact absurd rfl h
  | cons name location => rfl

/-- A node that is set stands at its location. -/
theorem get?_set_self (tree : FileTree) (h : location ≠ []) (node : FileNode) :
    (tree.set location node).get? location = some node := by
  rw [get?_eq_lookup _ h, set, lookup_setEntry, if_pos rfl]

/-- Elsewhere everything stays as it is. -/
theorem get?_set_other (tree : FileTree) {other : Location} (h : other ≠ location) (node : FileNode) :
    (tree.set location node).get? other = tree.get? other := by
  by_cases hroot : other = []
  · subst hroot
    rfl
  · rw [get?_eq_lookup _ hroot, get?_eq_lookup _ hroot, set, lookup_setEntry, if_neg h]

/-! ## The temporary file -/

namespace TemporaryAux

theorem temporaryName_injective {a b : Nat} (h : temporaryName a = temporaryName b) : a = b := by
  have hlist := congrArg String.toList h
  rw [temporaryName, temporaryName, String.toList_append, String.toList_append, List.append_cancel_left_eq] at hlist
  have hdigits : Nat.toDigits 10 a = Nat.toDigits 10 b := by
    rw [← Nat.toList_repr, ← Nat.toList_repr]
    exact hlist
  rw [← Nat.ofDigitChars_toDigits (b := 10) (n := a) (by decide) (by decide), hdigits,
    Nat.ofDigitChars_toDigits (by decide) (by decide)]

/-- The temporary location of a number. -/
abbrev candidate (directory : Location) (number : Nat) : Location := directory ++ [temporaryName number]

/-- The location that is found is that of a number, and either it is free or every number before was taken. -/
theorem temporaryFrom_spec (tree : FileTree) (directory : Location) (room number : Nat)
    (htaken : ∀ k < number, tree.get? (candidate directory k) ≠ none) :
    ∃ k, tree.temporaryFrom directory room number = candidate directory k ∧
      (tree.get? (candidate directory k) = none ∨ k = number + room ∧ ∀ j < k, tree.get? (candidate directory j) ≠ none) := by
  induction room generalizing number with
  | zero => exact ⟨number, rfl, Or.inr ⟨rfl, htaken⟩⟩
  | succ room ih =>
    rw [temporaryFrom]
    split
    · rename_i hfree
      exact ⟨number, rfl, Or.inl (Option.isNone_iff_eq_none.mp hfree)⟩
    · rename_i hused
      have hnext : ∀ k < number + 1, tree.get? (candidate directory k) ≠ none := by
        intro k hk
        by_cases heq : k = number
        · subst heq
          exact fun h => hused (Option.isNone_iff_eq_none.mpr h)
        · exact htaken k (by omega)
      obtain ⟨k, hk, hfree | ⟨heq, hall⟩⟩ := ih (number + 1) hnext
      · exact ⟨k, hk, Or.inl hfree⟩
      · exact ⟨k, hk, Or.inr ⟨by omega, hall⟩⟩

/-- There are not more taken candidates than entries. -/
theorem not_all_taken (tree : FileTree) (directory : Location) :
    ¬∀ k < tree.entries.length + 1, tree.get? (candidate directory k) ≠ none := by
  intro htaken
  -- the candidates are distinct, and those that are taken are among the entries
  have hnodup : ((List.range (tree.entries.length + 1)).map (candidate directory)).Nodup := by
    refine List.pairwise_map.mpr (List.nodup_range.imp fun hne heq => hne (temporaryName_injective ?_))
    exact (List.cons.inj (List.append_cancel_left heq)).1
  have hsub : (List.range (tree.entries.length + 1)).map (candidate directory) ⊆ tree.entries.map Prod.fst := by
    intro location hmem
    obtain ⟨k, hk, rfl⟩ := List.mem_map.mp hmem
    have hk' := htaken k (List.mem_range.mp hk)
    rw [get?_eq_lookup _ (by simp)] at hk'
    obtain ⟨node, hnode⟩ := Option.ne_none_iff_exists'.mp hk'
    obtain ⟨before, after, heq, -⟩ := List.lookup_eq_some_iff.mp hnode
    rw [heq]
    simp
  have hlen := hnodup.length_le_of_subset hsub
  simp only [List.length_map, List.length_range] at hlen
  omega

end TemporaryAux

open TemporaryAux

/-- The temporary location is free. -/
theorem get?_temporaryFrom (tree : FileTree) (directory : Location) :
    tree.get? (tree.temporaryFrom directory tree.entries.length 0) = none := by
  obtain ⟨k, hk, hfree | ⟨heq, hall⟩⟩ := temporaryFrom_spec tree directory tree.entries.length 0 nofun
  · rw [hk, hfree]
  · rw [hk]
    by_cases h : tree.get? (candidate directory k) = none
    · exact h
    · refine absurd (fun j hj => ?_) (not_all_taken tree directory)
      by_cases hjk : j = k
      · exact hjk ▸ h
      · exact hall j (by omega)

namespace TemporaryAux

/-- A node at a new location comes last. -/
theorem setEntry_of_lookup_none (node : FileNode) {entries : List (Location × FileNode)}
    (h : entries.lookup location = none) : setEntry location node entries = entries ++ [(location, node)] := by
  induction entries with
  | nil => rfl
  | cons entry entries ih =>
    obtain ⟨l, n⟩ := entry
    by_cases hl : l = location
    · subst hl
      simp at h
    · rw [List.lookup_cons, show (location == l) = false from beq_eq_false_iff_ne.mpr fun h => hl h.symm] at h
      rw [setEntry, if_neg hl, ih h, List.cons_append]

/-- A node that is set in its place leaves what comes last. -/
theorem setEntry_append {other : Location} {old : FileNode} (node last : FileNode) {entries : List (Location × FileNode)}
    (h : entries.lookup location = some old) :
    setEntry location node (entries ++ [(other, last)]) = setEntry location node entries ++ [(other, last)] := by
  induction entries with
  | nil => cases h
  | cons entry entries ih =>
    obtain ⟨l, n⟩ := entry
    by_cases hl : l = location
    · subst hl
      simp [setEntry]
    · rw [List.lookup_cons, show (location == l) = false from beq_eq_false_iff_ne.mpr fun h => hl h.symm] at h
      rw [List.cons_append, setEntry, if_neg hl, ih h, setEntry, if_neg hl, List.cons_append]

/-- The entries without a location that none of them has. -/
theorem filter_of_lookup_none {entries : List (Location × FileNode)} (h : entries.lookup location = none) :
    entries.filter (fun entry => entry.1 != location) = entries := by
  refine List.filter_eq_self.mpr fun entry hentry => ?_
  have hne := List.lookup_eq_none_iff.mp h entry hentry
  rw [bne_iff_ne]
  rintro rfl
  simp at hne

end TemporaryAux

/-- A file that is made where nothing is and moved over another one only replaces that one. -/
theorem rename_set {temporary : Location} {old : FileNode} (ht : temporary ≠ []) (hl : location ≠ [])
    (hfree : tree.get? temporary = none) (hold : tree.get? location = some old) (node : FileNode) :
    (tree.set temporary node).rename temporary location = tree.set location node := by
  have hne : temporary ≠ location := by
    rintro rfl
    rw [hfree] at hold
    cases hold
  rw [get?_eq_lookup _ ht] at hfree
  rw [get?_eq_lookup _ hl] at hold
  have hkept : (setEntry location node tree.entries).lookup temporary = none := by
    rw [lookup_setEntry, if_neg hne, hfree]
  rw [rename, get?_set_self _ ht]
  simp only [set, setEntry_of_lookup_none node hfree, setEntry_append node node hold, List.filter_append,
    filter_of_lookup_none hkept]
  simp

/-- A location where nothing is is not the root. -/
theorem ne_nil_of_get?_none (h : tree.get? location = none) : location ≠ [] := by
  rintro rfl
  cases h

/-- A file at a location is not the root. -/
theorem ne_nil_of_get?_file {content : Bytes} {mode : Nat} (h : tree.get? location = some (.file content mode)) :
    location ≠ [] := by
  rintro rfl
  cases h

/-! ## The operations -/

variable {here : Location} {path : String} {tree' : FileTree}

/-- Replacing a file sets its content, keeps its bits and changes nothing else. -/
theorem replace_eq_ok_iff {content : Bytes} :
    tree.replace here path content = .ok tree' ↔
      ∃ place old mode, tree.resolve here path = .ok place ∧ tree.get? place.location = some (.file old mode) ∧
        place.mustBeDirectory = false ∧ tree' = tree.set place.location (.file content mode) := by
  rw [replace]
  constructor
  · intro h
    split at h
    · cases h
    · rename_i place hplace
      split at h
      · cases h
      · cases h
      · rename_i old mode hfile
        split at h
        · cases h
        · rename_i hdir
          obtain rfl := Except.ok.inj h
          refine ⟨place, old, mode, hplace, hfile, by simpa using hdir, ?_⟩
          obtain ⟨k, hk, -⟩ := TemporaryAux.temporaryFrom_spec tree place.location.dropLast tree.entries.length 0 nofun
          exact rename_set (by rw [hk]; simp) (ne_nil_of_get?_file hfile) (get?_temporaryFrom tree _) hfile _
  · rintro ⟨place, old, mode, hplace, hfile, hdir, rfl⟩
    obtain ⟨k, hk, -⟩ := TemporaryAux.temporaryFrom_spec tree place.location.dropLast tree.entries.length 0 nofun
    rw [hplace]
    dsimp only
    rw [hfile]
    dsimp only
    rw [if_neg (by simp [hdir]),
      rename_set (by rw [hk]; simp) (ne_nil_of_get?_file hfile) (get?_temporaryFrom tree _) hfile]

/-- A file is made at a path only where nothing is, and nothing else changes. -/
theorem createNew_eq_ok_iff {content : Bytes} {mode : Nat} :
    tree.createNew here path content mode = .ok tree' ↔
      ∃ place, tree.resolve here path = .ok place ∧ tree.get? place.location = none ∧ place.mustBeDirectory = false ∧
        tree' = tree.set place.location (.file content mode) := by
  rw [createNew]
  constructor
  · intro h
    split at h
    · cases h
    · rename_i place hplace
      split at h
      · cases h
      · rename_i hnone
        split at h
        · cases h
        · rename_i hdir
          exact ⟨place, hplace, hnone, by simpa using hdir, (Except.ok.inj h).symm⟩
  · rintro ⟨place, hplace, hnone, hdir, rfl⟩
    rw [hplace]
    dsimp only
    rw [hnone]
    dsimp only
    rw [if_neg (by simp [hdir])]

/-- A file is touched where one is, which changes nothing, or made empty where nothing is. -/
theorem touch_eq_ok_iff :
    tree.touch here path = .ok tree' ↔
      ∃ place, tree.resolve here path = .ok place ∧ place.mustBeDirectory = false ∧
        ((∃ content mode, tree.get? place.location = some (.file content mode)) ∧ tree = tree' ∨
          tree.get? place.location = none ∧ tree.set place.location (.file [] plainMode) = tree') := by
  cases hplace : tree.resolve here path with
  | error fault => simp [touch, writable, hplace]
  | ok place =>
    cases hdir : place.mustBeDirectory with
    | true => simp [touch, writable, hplace, hdir]
    | false =>
      cases hnode : tree.get? place.location with
      | none => simp [touch, writable, hplace, hdir, hnode]
      | some node => cases node <;> simp [touch, writable, hplace, hdir, hnode]

/-- A path names a file where its place has one and need not be a directory. -/
theorem stat_eq_file_iff {content : Bytes} {mode : Nat} :
    tree.stat here path = .ok (.file content mode) ↔
      ∃ place, tree.resolve here path = .ok place ∧ tree.get? place.location = some (.file content mode) ∧
        place.mustBeDirectory = false := by
  cases hplace : tree.resolve here path with
  | error fault => simp [stat, hplace]
  | ok place =>
    cases hnode : tree.get? place.location with
    | none => simp [stat, hplace, hnode]
    | some node =>
      cases node with
      | file content mode => cases hdir : place.mustBeDirectory <;> simp [stat, hplace, hnode, hdir]
      | directory mode => simp [stat, hplace, hnode]

end SealedConfig.FileTree
