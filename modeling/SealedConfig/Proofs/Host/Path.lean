import SealedConfig.Proofs.Host.FileTree

/-!
# Files beside a file

A path with something appended to its last step names a file in the same directory, whatever the steps before it are. What a path
leads to depends only on the directories on the way.
-/

namespace SealedConfig

/-! ## The steps of a path with an ending -/

namespace FilePath

/-- What stands between slashes, as the library has it. -/
theorem pieces_eq_splitOnP (cs : List Char) : pieces cs = cs.splitOnP (· = '/') := by
  induction cs with
  | nil => rfl
  | cons c cs ih =>
    rw [pieces, List.splitOnP_cons_eq_if_modifyHead, ih]
    by_cases hc : c = '/'
    · rw [if_pos hc, if_pos (decide_eq_true hc)]
    · rw [if_neg hc, if_neg (mt of_decide_eq_true hc)]
      cases hcs : cs.splitOnP (· = '/') with
      | nil => exact absurd hcs (List.splitOnP_ne_nil _ _)
      | cons piece more => rfl

/-- Without slashes there is one piece. -/
theorem pieces_of_not_mem {cs : List Char} (h : '/' ∉ cs) : pieces cs = [cs] := by
  rw [pieces_eq_splitOnP]
  refine List.splitOnP_eq_singleton fun c hc => decide_eq_false ?_
  rintro rfl
  exact h hc

/-- A slash parts the pieces before it from those behind it. -/
theorem pieces_append_cons (before after : List Char) : pieces (before ++ '/' :: after) = pieces before ++ pieces after := by
  simp only [pieces_eq_splitOnP]
  exact List.splitOnP_append_cons before after (decide_eq_true rfl)

/-- There is always a last piece, and an ending without slashes belongs to it. -/
theorem exists_pieces (cs : List Char) :
    ∃ init last, pieces cs = init ++ [last] ∧ ∀ ending, '/' ∉ ending → pieces (cs ++ ending) = init ++ [last ++ ending] := by
  by_cases hslash : '/' ∈ cs
  · -- the last piece stands behind the last slash
    obtain ⟨after, before, hcs, hafter⟩ := List.eq_append_cons_of_mem (List.mem_reverse.mpr hslash)
    rw [List.reverse_eq_iff, List.reverse_append, List.reverse_cons, List.append_assoc, List.singleton_append] at hcs
    have hafter : '/' ∉ after.reverse := mt List.mem_reverse.mp hafter
    refine ⟨pieces before.reverse, after.reverse, ?_, fun ending hending => ?_⟩
    · rw [hcs, pieces_append_cons, pieces_of_not_mem hafter]
    · rw [hcs, List.append_assoc, List.cons_append, pieces_append_cons, pieces_of_not_mem (List.not_mem_append hafter hending)]
  · exact ⟨[], cs, pieces_of_not_mem hslash, fun ending hending => pieces_of_not_mem (List.not_mem_append hslash hending)⟩

/-- The steps of a path but the last. -/
def front (path : String) : List String := (steps path).dropLast

/-- The last step of a path. -/
def back (path : String) : String := (steps path).getLast?.getD ""

theorem steps_eq (path : String) : steps path = front path ++ [back path] := by
  obtain ⟨init, last, hp, -⟩ := exists_pieces path.toList
  simp [front, back, steps, hp]

/-- An ending without slashes belongs to the last step. -/
theorem steps_append {path ending : String} (h : '/' ∉ ending.toList) :
    steps (path ++ ending) = front path ++ [back path ++ ending] := by
  obtain ⟨init, last, hp, happend⟩ := exists_pieces path.toList
  have hs : steps path = init.map String.ofList ++ [String.ofList last] := by simp [steps, hp]
  have hfront : front path = init.map String.ofList := by simp [front, hs]
  have hback : back path = String.ofList last := by simp [back, hs]
  rw [hfront, hback, steps, String.toList_append, happend _ h]
  simp [String.ofList_append]

/-- An ending without slashes leaves a path absolute or relative. -/
theorem isAbsolute_append {path ending : String} (h : '/' ∉ ending.toList) :
    isAbsolute (path ++ ending) = isAbsolute path := by
  rw [isAbsolute, isAbsolute, String.toList_append]
  rcases path.toList with _ | ⟨c, cs⟩
  · rcases he : ending.toList with _ | ⟨c, cs⟩
    · rfl
    · have hc : c ≠ '/' := by
        rintro rfl
        exact h (he ▸ List.mem_cons_self)
      simp [hc]
  · rfl

end FilePath

/-! ## The directory on the way to a last step -/

namespace FileTree

/-- A step that leads to a name in a directory: not one that stays in place or goes up. -/
def IsName (step : String) : Prop := staysPut step = false ∧ step ≠ ".."

/-- What is longer than the step that goes up is a name. -/
theorem isName_append {step ending : String} (h : 2 < ending.length) : IsName (step ++ ending) := by
  have hlen : 2 < (step ++ ending).length := by
    rw [String.length_append]
    omega
  refine ⟨?_, ?_⟩
  · rw [staysPut, Bool.or_eq_false_iff, beq_eq_false_iff_ne, beq_eq_false_iff_ne]
    constructor
    all_goals
      intro heq
      rw [heq] at hlen
      exact absurd hlen (by decide)
  · intro heq
    rw [heq] at hlen
    exact absurd hlen (by decide)

/-- The directory that a step leads to from another one. -/
def enter? (tree : FileTree) (here : Location) (step : String) : Option Location :=
  if staysPut step then some here
  else if step = ".." then some here.dropLast
  else if nameLimit < step.utf8ByteSize then none
  else
    match tree.get? (here ++ [step]) with
    | some (.directory _) => some (here ++ [step])
    | _ => none

/-- The directory that steps lead to. -/
def directoryAt? (tree : FileTree) (here : Location) : List String → Option Location
  | [] => some here
  | step :: rest => (tree.enter? here step).bind fun directory => directoryAt? tree directory rest

variable {tree : FileTree} {here : Location}

/-! ## One step -/

/-- A name must be short, and must be a directory unless nothing but empty steps follow. -/
theorem follow_of_isName {step : String} (hn : IsName step) (rest : List String) :
    tree.follow here (step :: rest) =
      if nameLimit < step.utf8ByteSize then .error .nameTooLong
      else if rest.all (· == "") then .ok (here ++ [step])
      else
        match tree.get? (here ++ [step]) with
        | none => .error .notFound
        | some (.file _ _) => .error .notDirectory
        | some (.directory _) => tree.follow (here ++ [step]) rest := by
  have hstays : ¬staysPut step = true := by simp [hn.1]
  exact (if_neg hstays).trans (if_neg hn.2)

/-- Empty steps stay where they are. -/
theorem follow_empty (here : Location) {steps : List String} (h : steps.all (· == "") = true) :
    tree.follow here steps = .ok here := by
  induction steps with
  | nil => rfl
  | cons step steps ih =>
    rw [List.all_cons, Bool.and_eq_true, beq_iff_eq] at h
    rw [follow, if_pos (by rw [h.1]; rfl)]
    exact ih h.2

/-- Behind a step to a directory the way goes on from there. -/
theorem follow_of_enter? {step : String} {directory : Location} (h : tree.enter? here step = some directory)
    (rest : List String) : tree.follow here (step :: rest) = tree.follow directory rest := by
  rw [enter?] at h
  split at h
  · rename_i hstays
    obtain rfl := Option.some.inj h
    rw [follow, if_pos hstays]
  · rename_i hstays
    split at h
    · rename_i hup
      obtain rfl := Option.some.inj h
      rw [follow, if_neg hstays, if_pos hup]
    · rename_i hup
      split at h
      · cases h
      · rename_i hlong
        split at h
        · rename_i mode hnode
          obtain rfl := Option.some.inj h
          rw [follow_of_isName ⟨by simpa using hstays, hup⟩, if_neg hlong]
          split
          · rename_i hempty
            rw [follow_empty _ hempty]
          · rw [hnode]
        · cases h

/-- A name that nothing but empty steps follow need not be there. -/
theorem follow_of_empty {step : String} (hn : IsName step) (hsize : step.utf8ByteSize ≤ nameLimit) {rest : List String}
    (h : rest.all (· == "") = true) : tree.follow here (step :: rest) = .ok (here ++ [step]) := by
  rw [follow_of_isName hn, if_neg (Nat.not_lt.mpr hsize), if_pos h]

/-- Steps lead somewhere through a directory, or end at a name. -/
theorem follow_cons_eq_ok {step : String} {rest : List String} {location : Location}
    (h : tree.follow here (step :: rest) = .ok location) :
    (∃ directory, tree.enter? here step = some directory) ∨
      IsName step ∧ step.utf8ByteSize ≤ nameLimit ∧ rest.all (· == "") = true ∧ location = here ++ [step] := by
  rw [enter?]
  split
  · exact Or.inl ⟨here, rfl⟩
  · rename_i hstays
    split
    · exact Or.inl ⟨here.dropLast, rfl⟩
    · rename_i hup
      have hn : IsName step := ⟨by simpa using hstays, hup⟩
      rw [follow_of_isName hn] at h
      split
      · rename_i hlong
        rw [if_pos hlong] at h
        cases h
      · rename_i hlong
        rw [if_neg hlong] at h
        split at h
        · rename_i hempty
          exact Or.inr ⟨hn, Nat.le_of_not_lt hlong, hempty, (Except.ok.inj h).symm⟩
        · split at h
          · cases h
          · cases h
          · rename_i mode hnode
            rw [hnode]
            exact Or.inl ⟨_, rfl⟩

/-! ## The last step -/

/-- A name behind steps to a directory leads to that name there, unless it is too long. -/
theorem follow_name {steps : List String} {directory : Location} (h : tree.directoryAt? here steps = some directory)
    {name : String} (hn : IsName name) :
    tree.follow here (steps ++ [name]) =
      if nameLimit < name.utf8ByteSize then .error .nameTooLong else .ok (directory ++ [name]) := by
  induction steps generalizing here with
  | nil =>
    obtain rfl := Option.some.inj h
    rw [List.nil_append, follow_of_isName hn]
    rfl
  | cons step steps ih =>
    obtain ⟨middle, henter, hrest⟩ := Option.bind_eq_some_iff.mp h
    rw [List.cons_append, follow_of_enter? henter]
    exact ih hrest

/-- Only behind steps to a directory a name leads anywhere. -/
theorem exists_directoryAt? {steps : List String} {name : String} (hn : IsName name) {location : Location}
    (h : tree.follow here (steps ++ [name]) = .ok location) :
    ∃ directory, tree.directoryAt? here steps = some directory := by
  induction steps generalizing here with
  | nil => exact ⟨here, rfl⟩
  | cons step steps ih =>
    rw [List.cons_append] at h
    rcases follow_cons_eq_ok h with ⟨middle, henter⟩ | ⟨-, -, hempty, -⟩
    · rw [follow_of_enter? henter] at h
      obtain ⟨directory, hd⟩ := ih h
      exact ⟨directory, Option.bind_eq_some_iff.mpr ⟨middle, henter, hd⟩⟩
    · have hne : name ≠ "" := by
        rintro rfl
        exact absurd hn.1 (by decide)
      simp [hne] at hempty

/-- Whatever step comes last, steps to a directory lead to it, to what is above it or to a name in it. -/
theorem follow_last {steps : List String} {directory : Location} (h : tree.directoryAt? here steps = some directory)
    {last : String} (hsize : last.utf8ByteSize ≤ nameLimit) :
    ∃ location, tree.follow here (steps ++ [last]) = .ok location ∧
      (location = directory ∨ location = directory.dropLast ∨ location = directory ++ [last]) := by
  induction steps generalizing here with
  | nil =>
    obtain rfl := Option.some.inj h
    rw [List.nil_append]
    by_cases hstays : staysPut last = true
    · have henter : tree.enter? here last = some here := by rw [enter?, if_pos hstays]
      exact ⟨here, follow_of_enter? henter [], Or.inl rfl⟩
    · by_cases hup : last = ".."
      · have henter : tree.enter? here last = some here.dropLast := by rw [enter?, if_neg hstays, if_pos hup]
        exact ⟨here.dropLast, follow_of_enter? henter [], Or.inr (Or.inl rfl)⟩
      · exact ⟨here ++ [last], follow_of_empty ⟨by simpa using hstays, hup⟩ hsize rfl, Or.inr (Or.inr rfl)⟩
  | cons step steps ih =>
    obtain ⟨middle, henter, hrest⟩ := Option.bind_eq_some_iff.mp h
    rw [List.cons_append, follow_of_enter? henter]
    exact ih hrest

/-! ## Trees with the same directories -/

/-- Every directory of the first tree is one of the second. -/
def KeepsDirectories (tree tree' : FileTree) : Prop :=
  ∀ location mode, tree.get? location = some (.directory mode) → tree'.get? location = some (.directory mode)

/-- No directory goes when a file takes the place of another one. -/
theorem keepsDirectories_set {location : Location} {old : Bytes} {mode : Nat} (h : tree.get? location = some (.file old mode))
    (node : FileNode) : tree.KeepsDirectories (tree.set location node) := by
  intro other bits hn
  have hne : other ≠ location := by
    rintro rfl
    rw [h] at hn
    cases hn
  rw [tree.get?_set_other hne, hn]

/-- A step leads to the same directory as long as no directory goes. -/
theorem KeepsDirectories.enter? {tree' : FileTree} (h : tree.KeepsDirectories tree') {step : String} {directory : Location}
    (he : tree.enter? here step = some directory) : tree'.enter? here step = some directory := by
  rw [FileTree.enter?] at he ⊢
  split
  · rename_i hstays
    rwa [if_pos hstays] at he
  · rename_i hstays
    rw [if_neg hstays] at he
    split
    · rename_i hup
      rwa [if_pos hup] at he
    · rename_i hup
      rw [if_neg hup] at he
      split
      · rename_i hlong
        rwa [if_pos hlong] at he
      · rename_i hlong
        rw [if_neg hlong] at he
        split at he
        · rename_i mode hnode
          rw [h _ _ hnode]
          exact he
        · cases he

/-- Where steps lead stays the same as long as no directory goes. -/
theorem KeepsDirectories.follow {tree' : FileTree} (h : tree.KeepsDirectories tree') {steps : List String}
    {location : Location} (hf : tree.follow here steps = .ok location) : tree'.follow here steps = .ok location := by
  induction steps generalizing here with
  | nil => exact hf
  | cons step steps ih =>
    rcases follow_cons_eq_ok hf with ⟨middle, henter⟩ | ⟨hn, hsize, hempty, rfl⟩
    · rw [follow_of_enter? henter] at hf
      rw [follow_of_enter? (h.enter? henter)]
      exact ih hf
    · exact follow_of_empty hn hsize hempty

/-! ## Paths with an ending -/

open FilePath (front back isAbsolute)

/-- The directory that all steps of a path but the last lead to. -/
def base? (tree : FileTree) (here : Location) (path : String) : Option Location :=
  tree.directoryAt? (if isAbsolute path then [] else here) (front path)

/-- What can be appended to a path so that it names something else in the same directory. -/
structure IsEnding (ending : String) : Prop where
  noSlash : '/' ∉ ending.toList
  noZero : '\x00' ∉ ending.toList
  long : 2 < ending.length

variable {path ending : String} {place : Place}

/-- A path that leads somewhere has no zero and is neither empty nor too long, and its steps lead there. -/
theorem resolve_eq_ok_iff :
    tree.resolve here path = .ok place ↔
      '\x00' ∉ path.toList ∧ path ≠ "" ∧ path.utf8ByteSize ≤ pathLimit ∧
        tree.follow (if isAbsolute path then [] else here) (front path ++ [back path]) = .ok place.location ∧
        place.mustBeDirectory = (staysPut (back path) || back path == "..") := by
  rw [resolve, ← FilePath.steps_eq]
  by_cases hzero : '\x00' ∈ path.toList
  · simp [hzero]
  by_cases hempty : path = ""
  · simp [hempty]
  by_cases hlong : pathLimit < path.utf8ByteSize
  · simp [hzero, hempty, hlong, Nat.not_le_of_lt hlong]
  rw [if_neg hzero, if_neg hempty, if_neg hlong]
  simp only [hzero, hempty, Nat.le_of_not_lt hlong, not_false_eq_true, ne_eq, true_and]
  obtain ⟨location, mustBeDirectory⟩ := place
  cases hfollow : tree.follow (if isAbsolute path then [] else here) (FilePath.steps path) with
  | error fault => simp [Except.map]
  | ok l => simp [Except.map, back, eq_comm]

/-- An ending makes a path that is not empty and leads into the same directory. -/
theorem IsEnding.append_ne (he : IsEnding ending) (path : String) : path ++ ending ≠ "" := by
  intro h
  have hlen := congrArg String.length h
  rw [String.length_append, String.length_empty] at hlen
  have := he.long
  omega

/-- An ending adds no zero to a path. -/
theorem IsEnding.zero_mem_append (he : IsEnding ending) : '\x00' ∈ (path ++ ending).toList ↔ '\x00' ∈ path.toList := by
  rw [String.toList_append, List.mem_append]
  exact or_iff_left he.noZero

/-- A path with an ending has the steps of the path up to the last one. -/
theorem IsEnding.steps_append (he : IsEnding ending) (path : String) :
    front (path ++ ending) = front path ∧ back (path ++ ending) = back path ++ ending := by
  have heq := FilePath.steps_eq (path ++ ending)
  rw [FilePath.steps_append he.noSlash] at heq
  obtain ⟨hfront, hback⟩ := List.append_inj' heq rfl
  exact ⟨hfront.symm, (List.cons.inj hback).1.symm⟩

/-- A path with an ending leads to an entry of the directory that the path is in. -/
theorem resolve_append_eq_ok_iff (he : IsEnding ending) :
    tree.resolve here (path ++ ending) = .ok place ↔
      '\x00' ∉ path.toList ∧ (path ++ ending).utf8ByteSize ≤ pathLimit ∧
        (back path ++ ending).utf8ByteSize ≤ nameLimit ∧
        ∃ directory, tree.base? here path = some directory ∧ place = ⟨directory ++ [back path ++ ending], false⟩ := by
  obtain ⟨hfront, hback⟩ := he.steps_append path
  have hname : IsName (back path ++ ending) := isName_append he.long
  have hdir : (staysPut (back path ++ ending) || back path ++ ending == "..") = false := by
    rw [hname.1, Bool.false_or, beq_eq_false_iff_ne]
    exact hname.2
  rw [resolve_eq_ok_iff, he.zero_mem_append, hfront, hback, FilePath.isAbsolute_append he.noSlash, hdir]
  obtain ⟨location, mustBeDirectory⟩ := place
  constructor
  · rintro ⟨hzero, -, hlong, hfollow, hmust⟩
    obtain ⟨directory, hbase⟩ := exists_directoryAt? hname hfollow
    rw [follow_name hbase hname] at hfollow
    split at hfollow
    · cases hfollow
    · rename_i hsize
      obtain rfl := Except.ok.inj hfollow
      obtain rfl : mustBeDirectory = false := hmust
      exact ⟨hzero, hlong, Nat.le_of_not_lt hsize, directory, hbase, rfl⟩
  · rintro ⟨hzero, hlong, hsize, directory, hbase, hplace⟩
    obtain ⟨rfl, rfl⟩ := Place.mk.inj hplace
    exact ⟨hzero, he.append_ne path, hlong, by rw [follow_name hbase hname, if_neg (Nat.not_lt.mpr hsize)], rfl⟩

/-- Where a path with an ending leads into a directory, the path leads to it, to what is above it or to an entry of it. -/
theorem resolve_of_append (he : IsEnding ending) (h : tree.resolve here (path ++ ending) = .ok place) (hne : path ≠ "")
    {directory : Location} (hb : tree.base? here path = some directory) :
    ∃ target, tree.resolve here path = .ok target ∧
      (target.location = directory ∨ target.location = directory.dropLast ∨ target.location = directory ++ [back path]) := by
  obtain ⟨hzero, hlong, hsize, -⟩ := (resolve_append_eq_ok_iff he).mp h
  rw [String.utf8ByteSize_append] at hlong hsize
  have hlast : (back path).utf8ByteSize ≤ nameLimit := Nat.le_trans (Nat.le_add_right _ _) hsize
  obtain ⟨location, hfollow, hlocation⟩ := follow_last hb hlast
  exact ⟨⟨location, staysPut (back path) || back path == ".."⟩,
    resolve_eq_ok_iff.mpr ⟨hzero, hne, Nat.le_trans (Nat.le_add_right _ _) hlong, hfollow, rfl⟩, hlocation⟩

/-- Where a path leads stays the same as long as no directory goes. -/
theorem KeepsDirectories.resolve {tree' : FileTree} (h : tree.KeepsDirectories tree') (hr : tree.resolve here path = .ok place) :
    tree'.resolve here path = .ok place := by
  rw [resolve_eq_ok_iff] at hr ⊢
  obtain ⟨hzero, hempty, hlong, hfollow, hdir⟩ := hr
  exact ⟨hzero, hempty, hlong, h.follow hfollow, hdir⟩

/-- Where paths lead stays the same when a file takes the place of another one. -/
theorem resolve_set_iff {location : Location} {old content : Bytes} {mode bits : Nat}
    (h : tree.get? location = some (.file old mode)) :
    (tree.set location (.file content bits)).resolve here path = .ok place ↔ tree.resolve here path = .ok place := by
  have hback : (tree.set location (.file content bits)).KeepsDirectories tree := by
    intro other bits' hn
    by_cases hl : other = location
    · subst hl
      rw [tree.get?_set_self (ne_nil_of_get?_file h)] at hn
      cases hn
    · rw [← hn, tree.get?_set_other hl]
  exact ⟨hback.resolve, (keepsDirectories_set h _).resolve⟩

end FileTree

end SealedConfig
