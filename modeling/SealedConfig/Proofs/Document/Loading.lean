import SealedConfig.Document.Load
import SealedConfig.Proofs.Cipher.Bytes
import SealedConfig.Proofs.Document.Editing
import SealedConfig.Proofs.Host.FileTree
import SealedConfig.Proofs.Outcome
import SealedConfig.Proofs.Run

/-!
# Loading a document

What loading a document comes to in a world: it leaves the files alone, and gives the document whose text stands in the file.
-/

namespace SealedConfig

open Run

variable {path : String} {w : World}

/-- The text of the file that a path names. -/
def FileTree.readText (tree : FileTree) (here : Location) (path : String) : Except FileFault String :=
  match tree.read here path with
  | .error fault => .error fault
  | .ok bytes =>
    match Bytes.toText? bytes with
    | none => .error .invalidText
    | some text => .ok text

/-- A world reads the bytes of a file and takes them for a text. -/
theorem readText_run (path : String) (w : World) :
    (Host.readText path : StateM World (Except FileFault String)) w =
      (match w.files.read w.here path with
        | .error fault => pure (.error fault)
        | .ok bytes =>
          match Bytes.toText? bytes with
          | some text => pure (.ok text)
          | none => pure (.error .invalidText) : StateM World (Except FileFault String)) w := rfl

/-- A world tells the text of a file. -/
theorem readText_eq (path : String) (w : World) :
    (Host.readText path : StateM World (Except FileFault String)) w = (w.files.readText w.here path, w) := by
  rw [readText_run, FileTree.readText]
  cases w.files.read w.here path with
  | error fault => rfl
  | ok bytes =>
    dsimp only
    cases Bytes.toText? bytes <;> rfl

/-- Reading a text succeeds where it stands in a file. -/
theorem readText_eq_ok_iff {tree : FileTree} {here : Location} {text : String} :
    tree.readText here path = .ok text ↔ ∃ mode, tree.stat here path = .ok (.file (Bytes.ofText text) mode) := by
  unfold FileTree.readText FileTree.read
  cases hstat : tree.stat here path with
  | error fault => simp
  | ok node =>
    cases node with
    | directory mode => simp
    | file content mode =>
      dsimp only
      constructor
      · intro h
        split at h
        · cases h
        · rename_i found hfound
          obtain rfl := Except.ok.inj h
          exact ⟨mode, by rw [Bytes.ofText_of_toText? hfound]⟩
      · rintro ⟨bits, heq⟩
        obtain ⟨rfl, rfl⟩ := FileNode.file.inj (Except.ok.inj heq)
        rw [Bytes.toText?_ofText]

/-- Loading a document leaves the files alone. -/
theorem quiet_load (path : String) : Quiet (Document.load path) := by
  refine (tells_debug _ _).quiet.bind fun _ => Quiet.bind (fun w => .refl w) fun found => ?_
  split
  · refine Quiet.bind (fun w => ?_) fun raw => quiet_settle _ _
    rw [outcome_attempt, readText_eq]
    exact .refl w
  · exact quiet_fail _

/-- What loading a document comes to. -/
theorem outcome_load (path : String) (w : World) :
    (outcome (Document.load path) w).1 =
      match w.files.stat w.here path with
      | .error _ => .error (.document (.missing path))
      | .ok _ =>
        match w.files.readText w.here path with
        | .error fault => .error (.document (.unreadable path fault))
        | .ok raw => (Document.read (some path) raw).mapError .document := by
  have hagree : ∀ event, (w.tell event).files = w.files ∧ (w.tell event).here = w.here := fun event =>
    ⟨(w.agrees_tell event).files, (w.agrees_tell event).here⟩
  have hdebug (message : String) (fields : List Log.Field) :
      outcome (debug message fields) w = (.ok (), w.tell ⟨.debugging, message, fields⟩) := rfl
  have hexists (w : World) : outcome (pathExists path) w = (.ok (w.stat? path).isSome, w) := rfl
  rw [Document.load, outcome_bind_ok (hdebug _ _), outcome_bind_ok (hexists _), World.stat?, (hagree _).1, (hagree _).2]
  cases w.files.stat w.here path with
  | error fault => rfl
  | ok node =>
    dsimp only
    rw [Option.isSome_some, if_pos rfl, outcome_bind, outcome_attempt, readText_eq, (hagree _).1, (hagree _).2]
    cases w.files.readText w.here path with
    | error fault => rfl
    | ok raw => rfl

/-- The text of a document stands in the file that a path names. -/
structure Document.StandsAt (doc : Document) (tree : FileTree) (here : Location) (path : String) (mode : Nat) : Prop where
  file : tree.stat here path = .ok (.file (Bytes.ofText doc.raw) mode)
  source : doc.path = some path

/-- One document stands at a path. -/
theorem Document.StandsAt.unique {doc other : Document} {tree : FileTree} {here : Location} {mode mode' : Nat}
    (h : doc.StandsAt tree here path mode) (h' : other.StandsAt tree here path mode') : doc = other := by
  obtain ⟨hbytes, -⟩ := FileNode.file.inj (Except.ok.inj (h.file.symm.trans h'.file))
  exact eq_of_raw (h.source.trans h'.source.symm) (Bytes.ofText_injective hbytes)

/-- The file at a path has one set of bits. -/
theorem Document.StandsAt.unique_mode {doc other : Document} {tree : FileTree} {here : Location} {mode mode' : Nat}
    (h : doc.StandsAt tree here path mode) (h' : other.StandsAt tree here path mode') : mode = mode' :=
  (FileNode.file.inj (Except.ok.inj (h.file.symm.trans h'.file))).2

/-- A document is loaded exactly when it stands at the path. -/
theorem load_eq_ok_iff {doc : Document} :
    (outcome (Document.load path) w).1 = .ok doc ↔ ∃ mode, doc.StandsAt w.files w.here path mode := by
  rw [outcome_load]
  constructor
  · intro h
    split at h
    · cases h
    · rename_i node hstat
      split at h
      · cases h
      · rename_i raw hraw
        obtain ⟨hpath, rfl⟩ := Document.read_eq_ok_iff.mp (Outcome.mapError_eq_ok_iff.mp h)
        obtain ⟨mode, hfile⟩ := readText_eq_ok_iff.mp hraw
        exact ⟨mode, hfile, hpath⟩
  · rintro ⟨mode, hstat, hpath⟩
    have hraw : w.files.readText w.here path = .ok doc.raw := readText_eq_ok_iff.mpr ⟨mode, hstat⟩
    rw [hstat]
    dsimp only
    rw [hraw]
    dsimp only
    rw [Document.read_eq_ok_iff.mpr ⟨hpath, rfl⟩]
    rfl

end SealedConfig
