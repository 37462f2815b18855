import SealedConfig.Proofs.CommandLine.Protecting
import SealedConfig.Proofs.KeyStore.Mishaps

/-!
# Making a key and its identity on a faulty device

A mishap may strike where the identity is written or where the key file is, and leaves no more of the file than its first part.
-/

namespace SealedConfig

open Run FileTree

namespace KeyStore

theorem follows_keyDir (keys : KeySettings) :
    FollowsAlways (keys.keyDir : Run (StateM FaultyWorld) String) keys.keyDir := by
  unfold KeySettings.keyDir
  cases keys.dir with
  | some dir => exact follows_pure dir
  | none =>
    refine (follows_step Host.home?).bindAlways fun home => ?_
    cases home with
    | some home => exact follows_pure _
    | none => exact follows_fail _

/-- Choosing a store asks for nothing that a mishap can strike. -/
theorem follows_ofSettings (cipher : FileCipher) (keys : KeySettings) :
    FollowsAlways (ofSettings cipher keys : Run (StateM FaultyWorld) KeyStore) (ofSettings cipher keys) := by
  have htold (store : KeyStore) : FollowsAlways
      (do debug "selected key store" [Log.inQuotes "store" store.name, Log.plain "location" store.location]; return store :
        Run (StateM FaultyWorld) KeyStore)
      (do debug "selected key store" [Log.inQuotes "store" store.name, Log.plain "location" store.location]; return store) :=
    (follows_debug _ _).bindAlways fun _ => follows_pure store
  unfold ofSettings
  cases keys.protection with
  | none => exact (follows_keyDir keys).bindAlways fun dir => (follows_pure _).bindAlways htold
  | passphrase => exact (follows_keyDir keys).bindAlways fun dir => (follows_pure _).bindAlways htold
  | identity =>
    cases keys.identity with
    | some path => exact (follows_keyDir keys).bindAlways fun dir => (follows_pure _).bindAlways htold
    | none => exact (follows_fail _).bindAlways htold
  | keychain => exact (follows_fail _).bindAlways htold

end KeyStore

namespace CommandLine

variable {w : World} {path : String}

/-! ## Identities -/

/-- What a mishap leaves of writing the text of an identity and the directories above it: no more than new directories, or the first part
of the text. -/
def IdentityStruck (path text : String) (w : World) (failure : Failure) (left : FaultyWorld) : Prop :=
  w.files.GainsDirectories (MayHoldIdentity w.here path) left.world.files ∨
    ∃ mishap grown, left.JustMet mishap ∧ failure = .store (.unwritable mishap.fault) ∧
      w.files.GainsDirectories (MayHoldIdentity w.here path) grown ∧ grown.WritesPart w.here path (Bytes.ofText text) left.world.files

/-- The writing of an identity behind new directories is struck at once, or it leaves the first part of the text. -/
theorem identityStruck_of_writeStruck {text : String} {grown : World} {fault : FileFault} {left : FaultyWorld}
    (hhere : grown.here = w.here) (hgains : w.files.GainsDirectories (MayHoldIdentity w.here path) grown.files)
    (h : Host.WriteStruck path (Bytes.ofText text) grown fault left) :
    IdentityStruck path text w (.store (.unwritable fault)) left := by
  obtain ⟨mishap, hmet, rfl, hleft | ⟨files, hpart, hleft⟩⟩ := h
  · refine Or.inl ?_
    rw [hleft]
    exact hgains
  · rw [hhere] at hpart
    refine Or.inr ⟨mishap, grown.files, hmet, rfl, hgains, ?_⟩
    rw [hleft]
    exact hpart

/-- What a mishap leaves of generating an identity. -/
def GenerateStruck (path : String) (w : World) (failure : Failure) (left : FaultyWorld) : Prop :=
  ∃ moment, w.now = some moment ∧ IdentityStruck path (identityText moment ⟨w.draw 32⟩) w failure left

theorem follows_generateIdentity (path : String) :
    Follows (GenerateStruck path) (generateIdentity (m := StateM FaultyWorld) path) (generateIdentity (m := StateM World) path) := by
  have hwrite (text : String) : Follows (fun w failure left => ∃ fault, failure = .store (.unwritable fault) ∧
        Host.WriteStruck path (Bytes.ofText text) w fault left)
      (do
        attempt (fun fault => .store (.unwritable fault)) (Host.writePrivate path (Bytes.ofText text))
        inform "generated age identity" [Log.plain "path" path] : Run (StateM FaultyWorld) Unit)
      (do
        attempt (fun fault => .store (.unwritable fault)) (Host.writePrivate path (Bytes.ofText text))
        inform "generated age identity" [Log.plain "path" path]) :=
    (follows_attempt _ (Host.follows_writePrivate path _)).bindAlways fun _ => follows_inform _ _
  refine ((follows_random 32).bind fun bytes => follows_now.bind
    (T := fun moment => IdentityStruck path (identityText moment ⟨bytes⟩)) fun moment => ?_).mono ?_
  · dsimp only
    split
    · rename_i parent hparent
      refine ((follows_attempt _ (Host.follows_createDirectories parent)).bind fun _ => hwrite _).mono ?_
      have hmay {w : World} {made : FileTree} (h : w.files.GainsDirectories
          (fun location => ∃ above, FilePath.Above parent above ∧ location = points w.here above) made) :
          w.files.GainsDirectories (MayHoldIdentity w.here path) made :=
        h.mono fun location ⟨above, habove, hl⟩ => ⟨parent, above, Option.eq_some_of_filter_eq_some hparent, habove, hl⟩
      rintro w failure left (⟨_, rfl, mishap, made, -, -, hleft, hgains⟩ | ⟨_, grown, hmade, _, rfl, hwritten⟩)
      · rw [IdentityStruck, hleft]
        exact Or.inl (hmay hgains)
      · exact identityStruck_of_writeStruck (grown_of_createDirectories hmade).here (hmay (gains_of_createDirectories hmade)) hwritten
    · refine (hwrite _).mono ?_
      rintro w failure left ⟨_, rfl, hwritten⟩
      exact identityStruck_of_writeStruck rfl (.refl _ _) hwritten
  · rintro w failure left ⟨bytes, drawn, hdraw, moment, clocked, hclock, hstruck⟩
    obtain ⟨hbytes, rfl⟩ := Prod.mk.inj hdraw
    obtain rfl := Except.ok.inj hbytes
    obtain ⟨rfl, hnow⟩ := Bulk.now_ok hclock
    exact ⟨moment, hnow, hstruck⟩

namespace Context

/-- Providing an identity is struck when it is generated. -/
theorem follows_provideIdentity (context : Context) (keys : KeySettings) :
    Follows (fun w failure left => ∃ path, LacksIdentity keys w path ∧ GenerateStruck path w failure left)
      (context.provideIdentity keys : Run (StateM FaultyWorld) Unit) (context.provideIdentity keys) := by
  unfold provideIdentity
  split
  · rename_i hprotection
    split
    · rename_i path hpath
      refine ((follows_pathExists path).bind (T := fun found w failure left => found = false ∧ GenerateStruck path w failure left)
        fun found => ?_).mono ?_
      · cases found with
        | true => exact (follows_pure ()).mono
        | false =>
          exact ((follows_generateIdentity path).bindAlways fun _ => follows_step _).mono fun w failure left hstruck => ⟨rfl, hstruck⟩
      · rintro w failure left ⟨found, looked, hfound, rfl, hstruck⟩
        have hexists : outcome (pathExists path) w = (.ok (w.stat? path).isSome, w) := rfl
        obtain ⟨hmissing, rfl⟩ := Prod.mk.inj (hexists.symm.trans hfound)
        refine ⟨path, ⟨hprotection, hpath, fun node hnode => ?_⟩, hstruck⟩
        rw [World.stat?, hnode] at hmissing
        cases hmissing
    · exact (follows_pure ()).mono
  · exact (follows_pure ()).mono

/-- What a mishap leaves of making a key once the identity is provided. -/
def KeyStruck (context : Context) (force : Bool) (w : World) (failure : Failure) (left : FaultyWorld) : Prop :=
  ∃ dir wrap told, context.settings.keys.dir? w = some dir ∧ w.Undisturbed told ∧
    (KeyStore.mk dir wrap context.cipher).MakeStruck told failure left ∧
    (force = true ∨ ∀ node, told.files.stat told.here (KeyStore.mk dir wrap context.cipher).keyPath ≠ .ok node)

theorem follows_makeKey (context : Context) (force : Bool) :
    Follows (context.KeyStruck force) (context.makeKey force : Run (StateM FaultyWorld) Unit) (context.makeKey force) := by
  have hnotice (store : KeyStore) : FollowsAlways
      (if context.asJson then
        printJson (.object [("protection", .string context.settings.keys.protection.name), ("location", .string store.location)])
      else do
        context.style.success s!"created master key ({context.settings.keys.protection.name}) in {context.style.named store.location}"
        if context.settings.keys.protection = .none then
          context.style.warning "master key is stored unwrapped, use --protection for production" : Run (StateM FaultyWorld) Unit)
      (if context.asJson then
        printJson (.object [("protection", .string context.settings.keys.protection.name), ("location", .string store.location)])
      else do
        context.style.success s!"created master key ({context.settings.keys.protection.name}) in {context.style.named store.location}"
        if context.settings.keys.protection = .none then
          context.style.warning "master key is stored unwrapped, use --protection for production") := by
    split
    · exact follows_step _
    · refine (follows_step _).bindAlways fun _ => ?_
      split
      · exact follows_step _
      · exact follows_pure ()
  refine ((KeyStore.follows_ofSettings context.cipher context.settings.keys).bind fun store => (follows_inform _ _).bind fun _ =>
    ((store.follows_createMaster force).bindAlways fun _ => follows_pure ()).bindAlways fun _ => hnotice store).mono ?_
  rintro w failure left ⟨store, stored, hstore, _, told, htold, hstruck, hallowed⟩
  have hread := (reads_ofSettings context.cipher context.settings.keys).undisturbed w
  rw [← ending_eq_outcome, hstore] at hread
  obtain ⟨dir, wrap, hdir, -, rfl⟩ := ofSettings_eq_ok_iff.mp (congrArg Prod.fst hstore)
  obtain ⟨-, rfl⟩ := Prod.mk.inj htold
  exact ⟨dir, wrap, _, hdir, hread.trans (World.undisturbed_tell _ _), hstruck, hallowed⟩

end Context

end CommandLine

end SealedConfig
