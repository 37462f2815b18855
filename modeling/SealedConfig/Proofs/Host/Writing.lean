import SealedConfig.Proofs.Host.Files
import SealedConfig.Proofs.Sparing

/-!
# Writing in worlds

Making directories and writing a file come to what they come to in the tree of a world and change nothing else of it. A world in which
all that stood still stands is an enlarged one.
-/

namespace SealedConfig

open FileTree

/-! ## Worlds seen from one place -/

/-- A world seen from the same place, with the same environment and home. -/
structure World.SharesSite (w other : World) : Prop where
  here : other.here = w.here
  environment : other.environment = w.environment
  fallbackHome : other.fallbackHome = w.fallbackHome

theorem World.SharesSite.trans {w other third : World} (h : w.SharesSite other) (h' : other.SharesSite third) : w.SharesSite third :=
  ⟨h'.here.trans h.here, h'.environment.trans h.environment, h'.fallbackHome.trans h.fallbackHome⟩

theorem World.LooksLike.sharesSite {w other : World} (h : w.LooksLike other) : w.SharesSite other :=
  ⟨h.here, h.environment, h.fallbackHome⟩

theorem World.SharesSite.envValue? {w other : World} (h : w.SharesSite other) (name : String) :
    other.envValue? name = w.envValue? name := by
  rw [World.envValue?, World.envValue?, h.environment]

theorem World.SharesSite.home? {w other : World} (h : w.SharesSite other) : other.home? = w.home? := by
  unfold World.home?
  rw [h.envValue?, h.fallbackHome]

/-- A world seen from the same place in which all that stood still stands. -/
structure World.Enlarged (w after : World) : Prop extends w.SharesSite after where
  files : w.files.Grows after.files

theorem World.Enlarged.refl (w : World) : w.Enlarged w := ⟨⟨rfl, rfl, rfl⟩, .refl _⟩

theorem World.Enlarged.trans {w middle after : World} (h : w.Enlarged middle) (h' : middle.Enlarged after) : w.Enlarged after :=
  ⟨h.toSharesSite.trans h'.toSharesSite, h.files.trans h'.files⟩

theorem World.LooksLike.enlarged {w after : World} (h : w.LooksLike after) : w.Enlarged after := by
  refine ⟨h.sharesSite, ?_⟩
  rw [h.files]
  exact .refl _

/-- What a path leads to stays. -/
theorem World.Enlarged.stat_eq_ok {w after : World} (h : w.Enlarged after) {path : String} {node : FileNode}
    (hs : w.files.stat w.here path = .ok node) : after.files.stat w.here path = .ok node :=
  h.files.stat_eq_ok hs

/-- An enlarged world with its input unread and its output as it was. -/
structure World.Grown (w after : World) : Prop extends w.Enlarged after where
  input : after.input = w.input
  output : after.output = w.output

theorem World.Grown.refl (w : World) : w.Grown w := ⟨.refl w, rfl, rfl⟩

theorem World.Grown.trans {w middle after : World} (h : w.Grown middle) (h' : middle.Grown after) : w.Grown after :=
  ⟨h.toEnlarged.trans h'.toEnlarged, h'.input.trans h.input, h'.output.trans h.output⟩

theorem World.Undisturbed.grown {w after : World} (h : w.Undisturbed after) : w.Grown after :=
  ⟨h.toLooksLike.enlarged, h.input, h.output⟩

namespace Run

variable {w after : World}

/-! ## Writing -/

theorem outcome_createDirectories (failure : FileFault → Failure) (directory : String) (w : World) :
    outcome (attempt failure (Host.createDirectories directory)) w =
      ((w.files.makeDirectories w.here (directory.length + 1) directory).1.mapError failure,
        { w with files := (w.files.makeDirectories w.here (directory.length + 1) directory).2 }) := by
  rw [outcome_attempt, Host.createDirectories_eq]

theorem outcome_writePrivate (failure : FileFault → Failure) (path : String) (content : Bytes) (w : World) :
    outcome (attempt failure (Host.writePrivate path content)) w =
      ((w.withFiles (w.files.writePrivate w.here path content)).1.mapError failure,
        (w.withFiles (w.files.writePrivate w.here path content)).2) := by
  rw [outcome_attempt, Host.writePrivate_eq]

/-- Making directories, whether all of them can be made or not, makes some where the path points or a path above it. -/
theorem gains_of_createDirectories {failure : FileFault → Failure} {directory : String} {result : Except Failure Unit}
    (h : outcome (attempt failure (Host.createDirectories directory)) w = (result, after)) :
    w.files.GainsDirectories (fun location => ∃ above, FilePath.Above directory above ∧ location = points w.here above) after.files := by
  rw [outcome_createDirectories] at h
  obtain ⟨-, rfl⟩ := Prod.mk.inj h
  exact gains_of_makeDirectories _ _ _ _

/-- Making directories, whether all of them can be made or not, lets all that stands stand. -/
theorem grown_of_createDirectories {failure : FileFault → Failure} {directory : String} {result : Except Failure Unit}
    (h : outcome (attempt failure (Host.createDirectories directory)) w = (result, after)) : w.Grown after := by
  have hgains := gains_of_createDirectories h
  rw [outcome_createDirectories] at h
  obtain ⟨-, rfl⟩ := Prod.mk.inj h
  exact ⟨⟨⟨rfl, rfl, rfl⟩, hgains.grows⟩, rfl, rfl⟩

/-- Writing a file for its owner does it or changes nothing. -/
theorem writePrivate_cases {failure : FileFault → Failure} {path : String} {content : Bytes} {result : Except Failure Unit}
    (h : outcome (attempt failure (Host.writePrivate path content)) w = (result, after)) :
    (∃ fault, result = .error (failure fault)) ∧ after = w ∨
      result = .ok () ∧ ∃ files, w.files.writePrivate w.here path content = .ok files ∧ after = { w with files := files } := by
  rw [outcome_writePrivate] at h
  obtain ⟨rfl, rfl⟩ := Prod.mk.inj h
  cases hwritten : w.files.writePrivate w.here path content with
  | error fault => exact Or.inl ⟨⟨fault, rfl⟩, rfl⟩
  | ok files => exact Or.inr ⟨rfl, files, rfl, rfl⟩

/-- A run that begins by writing a file fails with that and changes nothing, or goes on with the file written. -/
theorem cases_of_writePrivate_bind {β : Type} {failure : FileFault → Failure} {path : String} {content : Bytes}
    {f : Unit → Run (StateM World) β} {result : Except Failure β}
    (h : outcome (attempt failure (Host.writePrivate path content) >>= f) w = (result, after)) :
    (∃ fault, result = .error (failure fault)) ∧ after = w ∨
      ∃ files, w.files.writePrivate w.here path content = .ok files ∧ outcome (f ()) { w with files := files } = (result, after) := by
  rcases cases_of_bind h with ⟨cause, hfail, rfl⟩ | ⟨_, written, hwritten, hrest⟩
  · rcases writePrivate_cases hfail with ⟨⟨fault, hfault⟩, rfl⟩ | ⟨hok, -⟩
    · exact Or.inl ⟨⟨fault, congrArg _ (Except.error.inj hfault)⟩, rfl⟩
    · cases hok
  · rcases writePrivate_cases hwritten with ⟨⟨fault, hfail⟩, -⟩ | ⟨-, files, hfiles, rfl⟩
    · cases hfail
    · exact Or.inr ⟨files, hfiles, hrest⟩

/-- A run that writes a file and then tells it fails with the writing and changes nothing, or writes the file. -/
theorem cases_of_writePrivate_tells {failure : FileFault → Failure} {path : String} {content : Bytes}
    {told : Run (StateM World) Unit} (ht : Tells told) {result : Except Failure Unit}
    (h : outcome (do
      attempt failure (Host.writePrivate path content)
      told) w = (result, after)) :
    (∃ fault, result = .error (failure fault)) ∧ after = w ∨
      result = .ok () ∧ ∃ files, w.files.writePrivate w.here path content = .ok files ∧
        World.Undisturbed { w with files := files } after := by
  rcases cases_of_writePrivate_bind h with hfailed | ⟨files, hfiles, h⟩
  · exact Or.inl hfailed
  · obtain ⟨event, htells⟩ := ht
    obtain ⟨rfl, rfl⟩ := Prod.mk.inj ((htells _).symm.trans h)
    exact Or.inr ⟨rfl, files, hfiles, World.undisturbed_tell _ event⟩

/-- Writing a file loses nothing that stood where none was found, unless its path hid a file. -/
theorem enlarged_of_writePrivate {grown : World} {path : String} {content : Bytes} {files : FileTree}
    (hnew : ∀ node, w.files.stat w.here path ≠ .ok node) (hhides : ¬w.files.Hides w.here path) (hgrown : w.Enlarged grown)
    (h : grown.files.writePrivate grown.here path content = .ok files) : w.Enlarged { grown with files := files } := by
  rw [hgrown.here] at h
  exact ⟨⟨hgrown.here, hgrown.environment, hgrown.fallbackHome⟩, grows_of_writePrivate hnew hhides hgrown.files h⟩

end Run

end SealedConfig
