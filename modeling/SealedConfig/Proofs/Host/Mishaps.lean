import SealedConfig.Proofs.Following
import SealedConfig.Proofs.Host.Files

/-!
# Whole files on faulty devices

What a mishap leaves of the runs of steps that write files and make directories: the first part of a file, a temporary file that could
not be removed either, or some of the directories. All else is as it was.
-/

namespace SealedConfig

open FileTree
open TemporaryAux (candidate)

namespace FaultyWorld

/-- The last two steps that were taken were struck. -/
def JustMetBoth (faulty : FaultyWorld) (first second : Mishap) : Prop :=
  ∃ k, faulty.taken = k + 2 ∧ faulty.mishaps k = some first ∧ faulty.mishaps (k + 1) = some second

end FaultyWorld

/-! ## Files in part -/

namespace FileTree

variable {tree after : FileTree} {here : Location} {path : String} {content : Bytes}

/-- The file at a path, with the bits that it had, or a new one for its owner only holds the first part of a content. -/
def WritesPart (tree : FileTree) (here : Location) (path : String) (content : Bytes) (after : FileTree) : Prop :=
  ∃ location node written, tree.writable here path = .ok (location, node) ∧
    after = tree.set location (.file (content.take written) (node.elim privateMode FileNode.mode))

/-- A file that is written in part stands where its path points, and all else is as it was. -/
theorem WritesPart.get? (h : tree.WritesPart here path content after) :
    (∃ written, after.get? (points here path) =
        some (.file (content.take written) ((tree.get? (points here path)).elim privateMode FileNode.mode))) ∧
      ∀ location, location ≠ points here path → after.get? location = tree.get? location := by
  obtain ⟨location, node, written, hplace, rfl⟩ := h
  obtain ⟨rfl, rfl, -⟩ := of_writable hplace
  exact ⟨⟨written, get?_set_self _ (ne_nil_of_writable hplace) _⟩, fun location hother => get?_set_other _ hother _⟩

/-- Where a file is written in part it can be written. -/
theorem WritesPart.takesFile (h : tree.WritesPart here path content after) : tree.TakesFile here path := by
  obtain ⟨location, node, written, hplace, -⟩ := h
  exact (of_writable hplace).2.2.2

/-- A file may be written in part. -/
theorem ChangesOnly.writesPart {grown : FileTree} {fresh : Location → FileNode → Prop} (h : tree.ChangesOnly fresh grown)
    (h' : grown.WritesPart here path content after)
    (hfresh : ∀ written, fresh (points here path)
      (.file (content.take written) ((grown.get? (points here path)).elim privateMode FileNode.mode))) :
    tree.ChangesOnly fresh after := by
  obtain ⟨⟨written, hpart⟩, hothers⟩ := h'.get?
  intro location
  by_cases hlocation : location = points here path
  · rw [hlocation]
    exact Or.inr ⟨_, hpart, hfresh written⟩
  · rw [hothers location hlocation]
    exact h location

end FileTree

namespace Host

/-! ## Reading -/

/-- The text of a file is its content, if that is a text. -/
theorem readText_eq_bind {m : Type → Type} [Host m] (path : String) :
    (ExceptT.mk (readText path) : ExceptT FileFault m String) =
      ExceptT.mk (Host.read path) >>= fun bytes => (Bytes.toText? bytes).elim (throw .invalidText) pure := by
  refine congrArg (Host.read path >>= ·) (funext fun result => ?_)
  cases result with
  | error fault => rfl
  | ok bytes =>
    dsimp only [ExceptT.bindCont]
    cases Bytes.toText? bytes <;> rfl

theorem follows_readText (path : String) :
    Follows StruckAtOnce (ExceptT.mk (readText (m := StateM FaultyWorld) path))
      (ExceptT.mk (readText (m := StateM World) path)) := by
  rw [readText_eq_bind, readText_eq_bind]
  refine (follows_wholly _).bindAlways fun bytes => ?_
  cases Bytes.toText? bytes with
  | some text => exact follows_pure text
  | none => exact follows_throw _

/-! ## Filling -/

/-- What a mishap leaves of filling an open file: the first part of the content, which may be all of it. -/
def FillStruck (location : Location) (content : Bytes) (w : World) (fault : FileFault) (left : FaultyWorld) : Prop :=
  ∃ mishap written, left.JustMet mishap ∧ fault = mishap.fault ∧
    left.world = { w with files := w.files.append location (content.take written) }

theorem follows_fill (location : Location) (content : Bytes) (mode : Nat) :
    Follows (FillStruck location content) (fill (m := StateM FaultyWorld) location content mode)
      (fill (m := StateM World) location content mode) := by
  refine ((follows_riskily _ _).bind fun _ => (follows_wholly _).bind fun _ => follows_wholly _).mono ?_
  -- behind the first step all of the content is there
  have hwhole {w middle : World} {left : FaultyWorld} {fault : FileFault}
      (happend : ending (ExceptT.mk (Host.append (m := StateM World) location content)) w = (.ok (), middle))
      (hstruck : StruckAtOnce middle fault left) : FillStruck location content w fault left := by
    obtain ⟨mishap, hmet, hfault, hleft⟩ := hstruck
    obtain ⟨-, rfl⟩ := Prod.mk.inj happend
    refine ⟨mishap, content.length, hmet, hfault, ?_⟩
    rw [hleft, List.take_length]
  rintro w fault left (⟨mishap, hmet, hfault, hleft⟩ | ⟨_, middle, happend, hsync | ⟨_, synced, hsynced, hmode⟩⟩)
  · exact ⟨mishap, mishap.written, hmet, hfault, hleft⟩
  · exact hwhole happend hsync
  · obtain ⟨-, rfl⟩ := Prod.mk.inj hsynced
    exact hwhole happend hmode

/-! ## Writing -/

/-- What a mishap leaves of writing a file for its owner: all as it was, or the first part of the content in the file. -/
def WriteStruck (path : String) (content : Bytes) (w : World) (fault : FileFault) (left : FaultyWorld) : Prop :=
  ∃ mishap, left.JustMet mishap ∧ fault = mishap.fault ∧
    (left.world = w ∨ ∃ files, w.files.WritesPart w.here path content files ∧ left.world = { w with files := files })

theorem follows_writePrivate (path : String) (content : Bytes) :
    Follows (WriteStruck path content) (ExceptT.mk (writePrivate (m := StateM FaultyWorld) path content))
      (ExceptT.mk (writePrivate (m := StateM World) path content)) := by
  refine ((follows_wholly _).bind fun location => follows_fill location content privateMode).mono ?_
  rintro w fault left (⟨mishap, hmet, hfault, hleft⟩ | ⟨location, middle, hopen, mishap, written, hmet, hfault, hleft⟩)
  · exact ⟨mishap, hmet, hfault, Or.inl hleft⟩
  · have hopened : w.withOpened (w.files.openEmpty w.here path) = (.ok location, middle) := hopen
    rw [FileTree.openEmpty] at hopened
    cases hplace : w.files.writable w.here path with
    | error cause =>
      rw [hplace] at hopened
      cases hopened
    | ok found =>
      rw [hplace] at hopened
      obtain ⟨hlocation, rfl⟩ := Prod.mk.inj hopened
      obtain rfl := Except.ok.inj hlocation
      refine ⟨mishap, hmet, hfault, Or.inr ⟨_, ⟨found.1, found.2, written, hplace, rfl⟩, hleft.trans ?_⟩⟩
      exact congrArg (fun files => { w with files := files }) (append_set (ne_nil_of_writable hplace) [] _ _)

/-! ## Replacing -/

/-- What trying to remove a file leaves: it is gone, or a mishap has struck and it is there. -/
def Discards (file : Location) (before left : FaultyWorld) : Prop :=
  left.mishaps = before.mishaps ∧ left.taken = before.taken + 1 ∧
    (left.world = { before.world with files := before.world.files.erase file } ∨
      ∃ mishap, left.JustMet mishap ∧ left.world = before.world)

/-- A fault stays what it is when a file is removed for it. -/
theorem ending_discard_remove (file : Location) (fault : FileFault) (before : FaultyWorld) :
    ∃ left, ending (α := Unit) (do discard (ExceptT.lift (Host.remove (m := StateM FaultyWorld) file)); throw fault) before =
      (.error fault, left) ∧ Discards file before left := by
  have hrun : ending (α := Unit) (do discard (ExceptT.lift (Host.remove (m := StateM FaultyWorld) file)); throw fault) before =
      (.error fault, (FaultyWorld.wholly (Host.remove (m := StateM World) file) before).2) := rfl
  refine ⟨_, hrun, ?_⟩
  rw [FaultyWorld.wholly, FaultyWorld.riskily]
  cases hmishap : before.mishaps before.taken with
  | none => exact ⟨rfl, rfl, Or.inl rfl⟩
  | some mishap => exact ⟨rfl, rfl, Or.inr ⟨mishap, ⟨before.taken, rfl, hmishap⟩, rfl⟩⟩

/-- What a mishap leaves of moving a file, once it is filled, to a path: the file with a part of the content. -/
def MoveStruck (file : Location) (content : Bytes) (mode : Nat) (w : World) (fault : FileFault) (left : FaultyWorld) : Prop :=
  ∃ mishap files, left.JustMet mishap ∧ fault = mishap.fault ∧ left.world = { w with files := files } ∧
    ((∃ written, files = w.files.append file (content.take written)) ∨ files = (w.files.append file content).setMode file mode)

theorem follows_fillAndMove (file : Location) (path : String) (content : Bytes) (mode : Nat) :
    Follows (MoveStruck file content mode) (fillAndMove (m := StateM FaultyWorld) file path content mode)
      (fillAndMove (m := StateM World) file path content mode) := by
  refine ((follows_fill file content mode).bind fun _ => follows_wholly _).mono ?_
  rintro w fault left (⟨mishap, written, hmet, hfault, hleft⟩ | ⟨_, middle, hfill, mishap, hmet, hfault, hleft⟩)
  · exact ⟨mishap, _, hmet, hfault, hleft, Or.inl ⟨written, rfl⟩⟩
  · obtain ⟨-, rfl⟩ := Prod.mk.inj hfill
    exact ⟨mishap, _, hmet, hfault, hleft, Or.inr rfl⟩

/-- What a mishap leaves of a run with a temporary file: what it leaves of the run, and the file is removed, unless a second mishap
strikes. -/
theorem follows_discardUnless (file : Location) {R : World → FileFault → FaultyWorld → Prop}
    {x : ExceptT FileFault (StateM FaultyWorld) Unit} {y : ExceptT FileFault (StateM World) Unit} (h : Follows R x y) :
    Follows (fun w fault left => ∃ before, Discards file before left ∧
        (R w fault before ∨ ∃ after, ending y w = (.error fault, after) ∧ before.world = after))
      (discardUnless (m := StateM FaultyWorld) file x) (discardUnless (m := StateM World) file y) := by
  intro faulty
  rcases h faulty with ⟨taken, hx⟩ | ⟨fault, before, hx, hmishaps, hstruck⟩
  · rcases hy : ending y faulty.world with ⟨fault | _, after⟩
    · rw [hy] at hx
      obtain ⟨left, hending, hdiscards⟩ := ending_discard_remove file fault ⟨after, faulty.mishaps, taken⟩
      refine Or.inr ⟨fault, left, ?_, hdiscards.1, _, hdiscards, Or.inr ⟨after, hy, rfl⟩⟩
      exact (ending_tryCatch _ _ _).trans (by rw [hx]; exact hending)
    · rw [hy] at hx
      refine Or.inl ⟨taken, ?_⟩
      have hrun : ending (discardUnless (m := StateM World) file y) faulty.world = (.ok (), after) :=
        (ending_tryCatch _ _ _).trans (by rw [hy])
      rw [hrun]
      exact (ending_tryCatch _ _ _).trans (by rw [hx])
  · obtain ⟨left, hending, hdiscards⟩ := ending_discard_remove file fault before
    refine Or.inr ⟨fault, left, ?_, hdiscards.1.trans hmishaps, before, hdiscards, Or.inl hstruck⟩
    exact (ending_tryCatch _ _ _).trans (by rw [hx]; exact hending)

/-- A temporary file beside the file at a path, where nothing was: it holds the first part of some content, and has its owner's bits or
those of the file. -/
def LeavesTemporary (path : String) (content : Bytes) (w : World) (files : FileTree) : Prop :=
  ∃ place number written bits, w.files.resolve w.here path = .ok place ∧
    w.files.get? (candidate place.location.dropLast number) = none ∧
    (bits = privateMode ∨ ∃ old, w.files.stat w.here path = .ok (.file old bits)) ∧
    files = w.files.set (candidate place.location.dropLast number) (.file (content.take written) bits)

/-- What a mishap leaves of replacing the file at a path: all as it was, or, when a second one strikes, a temporary file. -/
def ReplaceStruck (path : String) (content : Bytes) (w : World) (fault : FileFault) (left : FaultyWorld) : Prop :=
  ∃ mishap, fault = mishap.fault ∧
    (left.world = w ∨ ∃ second files, left.JustMetBoth mishap second ∧ LeavesTemporary path content w files ∧
      left.world = { w with files := files })

/-- A mishap that strikes a temporary file leaves a part of it, and no more than that behind its removal. -/
theorem replaceStruck_of_discards {w : World} {path : String} {content : Bytes} {written bits : Nat} {place : Place}
    {number : Nat} {mishap : Mishap} {before left : FaultyWorld} (hplace : w.files.resolve w.here path = .ok place)
    (hfree : w.files.get? (candidate place.location.dropLast number) = none)
    (hbits : bits = privateMode ∨ ∃ old, w.files.stat w.here path = .ok (.file old bits)) (hmet : before.JustMet mishap)
    (hbefore : before.world =
      { w with files := w.files.set (candidate place.location.dropLast number) (.file (content.take written) bits) })
    (h : Discards (candidate place.location.dropLast number) before left) :
    ReplaceStruck path content w mishap.fault left := by
  obtain ⟨hmishaps, htaken, hleft⟩ := h
  obtain ⟨k, hk, hmishap⟩ := hmet
  rw [← hmishaps] at hmishap
  refine ⟨mishap, rfl, ?_⟩
  rcases hleft with hleft | ⟨second, ⟨j, hj, hsecond⟩, hleft⟩
  · rw [hbefore] at hleft
    dsimp only at hleft
    rw [erase_set hfree] at hleft
    exact Or.inl hleft
  · obtain rfl : j = k + 1 := by omega
    exact Or.inr ⟨second, _, ⟨k, by omega, hmishap, hsecond⟩, ⟨place, number, written, bits, hplace, hfree, hbits, rfl⟩,
      hleft.trans hbefore⟩

theorem follows_replace (path : String) (content : Bytes) :
    Follows (ReplaceStruck path content) (ExceptT.mk (Host.replace (m := StateM FaultyWorld) path content))
      (ExceptT.mk (Host.replace (m := StateM World) path content)) := by
  refine ((follows_wholly _).bind fun mode => (follows_wholly _).bind fun file =>
    follows_discardUnless file (follows_fillAndMove file path content mode)).mono ?_
  rintro w fault left (⟨mishap, -, rfl, hleft⟩ | ⟨mode, looked, hmode, ⟨mishap, -, rfl, hleft⟩ | ⟨file, opened, hbeside, before,
    hdiscards, hstruck⟩⟩)
  · exact ⟨mishap, rfl, Or.inl hleft⟩
  · obtain ⟨-, rfl⟩ := Prod.mk.inj hmode
    exact ⟨mishap, rfl, Or.inl hleft⟩
  obtain ⟨hof, rfl⟩ := Prod.mk.inj hmode
  obtain ⟨old, hstat⟩ := modeOf_eq_ok_iff.mp hof
  obtain ⟨place, hplace, hnode, hdirectory⟩ := stat_eq_file_iff.mp hstat
  have hopened : w.withOpened (w.files.openBeside w.here path) = (.ok file, opened) := hbeside
  rw [openBeside, hplace] at hopened
  obtain ⟨hfile, rfl⟩ := Prod.mk.inj hopened
  obtain rfl := Except.ok.inj hfile
  have hfree := get?_temporaryFrom w.files place.location.dropLast
  obtain ⟨number, hnumber, -⟩ := TemporaryAux.temporaryFrom_spec w.files place.location.dropLast w.files.entries.length 0
    (fun k hk => absurd hk (Nat.not_lt_zero k))
  rw [hnumber] at hfree hdiscards hstruck
  have hl := ne_nil_of_get?_none hfree
  rcases hstruck with ⟨mishap, files, hmet, rfl, hbefore, hfiles⟩ | ⟨after, hcalm, -⟩
  · have hpart : ∃ written bits, (bits = privateMode ∨ ∃ old, w.files.stat w.here path = .ok (.file old bits)) ∧
        files = w.files.set (candidate place.location.dropLast number) (.file (content.take written) bits) := by
      rcases hfiles with ⟨written, rfl⟩ | rfl
      · exact ⟨written, privateMode, Or.inl rfl, append_set hl _ _ _⟩
      · refine ⟨content.length, mode, Or.inr ⟨old, hstat⟩, ?_⟩
        rw [List.take_length]
        exact (congrArg (fun tree => FileTree.setMode tree _ mode) (append_set hl _ _ _)).trans (setMode_set hl _ _ _)
    obtain ⟨written, bits, hbits, rfl⟩ := hpart
    exact replaceStruck_of_discards hplace hfree hbits hmet hbefore hdiscards
  -- in the world the file can always be moved, so that is not what fails
  · have hmoved := ending_fillAndMove hplace hnode (by simp [hdirectory]) hfree content mode
    cases hmoved.symm.trans hcalm

/-! ## Making directories -/

/-- What a mishap leaves of making a directory and those above it: some of them. -/
def DirectoriesStruck (path : String) (w : World) (fault : FileFault) (left : FaultyWorld) : Prop :=
  ∃ mishap made, left.JustMet mishap ∧ fault = mishap.fault ∧ left.world = { w with files := made } ∧
    w.files.GainsDirectories (fun location => ∃ above, FilePath.Above path above ∧ location = points w.here above) made

theorem ending_failUnlessDirectory_faulty (path : String) (fault : FileFault) (faulty : FaultyWorld) :
    ending (failUnlessDirectory (m := StateM FaultyWorld) path fault) faulty =
      (if faulty.world.files.isDirectory faulty.world.here path then .ok () else .error fault, faulty) := by
  have hlook : ending (ExceptT.lift (Host.isDirectory path) : ExceptT FileFault (StateM FaultyWorld) Bool) faulty =
      (.ok ((faulty.world.stat? path).any (!·.isFile)), faulty) := rfl
  rw [any_stat?] at hlook
  refine (ending_bind_ok hlook).trans ?_
  cases faulty.world.files.isDirectory faulty.world.here path <;> rfl

theorem follows_failUnlessDirectory (path : String) (fault : FileFault) :
    FollowsAlways (failUnlessDirectory (m := StateM FaultyWorld) path fault)
      (failUnlessDirectory (m := StateM World) path fault) := by
  intro faulty
  rw [ending_failUnlessDirectory_faulty, ending_failUnlessDirectory]
  exact Or.inl ⟨faulty.taken, rfl⟩

/-- Making one directory, where a fault other than for want of one above is none if the directory is there: that it is there is seen
behind a mishap too. -/
theorem follows_createDirectory {path : String} {x : FileFault → ExceptT FileFault (StateM FaultyWorld) Unit}
    {y : FileFault → ExceptT FileFault (StateM World) Unit} (h : ∀ fault, Follows (DirectoriesStruck path) (x fault) (y fault))
    (hx : ∀ fault, fault ≠ .notFound → x fault = failUnlessDirectory path fault)
    (hy : ∀ fault, fault ≠ .notFound → y fault = failUnlessDirectory path fault) :
    Follows (DirectoriesStruck path) (tryCatch (ExceptT.mk (Host.createDirectory (m := StateM FaultyWorld) path)) x)
      (tryCatch (ExceptT.mk (Host.createDirectory (m := StateM World) path)) y) := by
  have hstep : Follows StruckAtOnce (ExceptT.mk (Host.createDirectory (m := StateM FaultyWorld) path))
      (ExceptT.mk (Host.createDirectory (m := StateM World) path)) := follows_wholly _
  rintro ⟨w, mishaps, taken⟩
  have hcalm : ending (ExceptT.mk (Host.createDirectory (m := StateM World) path)) w =
      w.withFiles (w.files.createDirectory w.here path) := rfl
  rw [ending_tryCatch, ending_tryCatch, hcalm]
  rcases hstep ⟨w, mishaps, taken⟩ with ⟨later, hcreate⟩ | ⟨_, left, hcreate, rfl, mishap, hmet, rfl, hleft⟩
  · rw [hcalm] at hcreate
    rw [hcreate]
    cases w.files.createDirectory w.here path with
    | ok made => exact Or.inl ⟨later, rfl⟩
    | error fault => exact h fault ⟨w, mishaps, later⟩
  · have hne : mishap.fault ≠ .notFound := mishap.fault_ne rfl
    rw [hcreate]
    dsimp only
    rw [hx _ hne, ending_failUnlessDirectory_faulty, hleft]
    cases hfound : w.files.isDirectory w.here path with
    | false => exact Or.inr ⟨mishap.fault, left, rfl, rfl, mishap, w.files, hmet, rfl, hleft, .refl _ _⟩
    | true =>
      -- the directory is there, so in the world it is not made either
      obtain ⟨_, _, later⟩ := left
      obtain rfl := hleft
      rw [createDirectory_of_isDirectory hfound]
      refine Or.inl ⟨later, ?_⟩
      dsimp only [World.withFiles]
      rw [hy _ (by decide), ending_failUnlessDirectory, hfound]
      rfl

theorem follows_ensureDirectory (path : String) :
    Follows (DirectoriesStruck path) (ensureDirectory (m := StateM FaultyWorld) path)
      (ensureDirectory (m := StateM World) path) :=
  follows_createDirectory (fun fault => (follows_failUnlessDirectory path fault).mono) (fun _ _ => rfl) fun _ _ => rfl

/-- A mishap leaves, of making a directory and those above it, some of them. -/
theorem follows_makeDirectories (room : Nat) (path : String) :
    Follows (DirectoriesStruck path) (makeDirectories (m := StateM FaultyWorld) room path)
      (makeDirectories (m := StateM World) room path) := by
  -- one more directory above at every step down in `room`
  induction room generalizing path with
  | zero => exact (follows_throw FileFault.notFound).mono
  | succ room ih =>
    rw [makeDirectories, makeDirectories]
    split
    · exact (follows_pure ()).mono
    refine follows_createDirectory (fun fault => ?_) (fun _ hne => if_neg hne) fun _ hne => if_neg hne
    split
    · cases habove : FilePath.parent? path with
      | none => exact (follows_throw _).mono
      | some above =>
        have hup {w : World} {made : FileTree}
            (h : w.files.GainsDirectories (fun location => ∃ next, FilePath.Above above next ∧ location = points w.here next) made) :
            w.files.GainsDirectories (fun location => ∃ next, FilePath.Above path next ∧ location = points w.here next) made := by
          refine h.mono ?_
          rintro location ⟨next, hnext, hl⟩
          exact ⟨next, .parent habove hnext, hl⟩
        refine ((ih above).bind fun _ => follows_ensureDirectory path).mono ?_
        rintro w fault left (⟨mishap, made, hmet, hfault, hleft, hgains⟩ | ⟨_, middle, hmade, mishap, made, hmet, hfault, hleft, hgains⟩)
        · exact ⟨mishap, made, hmet, hfault, hleft, hup hgains⟩
        · -- those above are there, so the world is one with more directories
          rw [makeDirectories_eq] at hmade
          obtain ⟨-, rfl⟩ := Prod.mk.inj hmade
          exact ⟨mishap, made, hmet, hfault, hleft, (hup (gains_of_makeDirectories w.files w.here room above)).trans hgains⟩
    · exact (follows_failUnlessDirectory path fault).mono

theorem follows_createDirectories (path : String) :
    Follows (DirectoriesStruck path) (ExceptT.mk (createDirectories (m := StateM FaultyWorld) path))
      (ExceptT.mk (createDirectories (m := StateM World) path)) :=
  follows_makeDirectories _ path

end Host

end SealedConfig
