import SealedConfig.CommandLine.KeyMaterial
import SealedConfig.Proofs.Bulk.Success
import SealedConfig.Proofs.CommandLine.Reporting
import SealedConfig.Proofs.KeyStore.Creating

/-!
# What commands do to files

A command writes in four places only: where it makes a master key, where it makes an identity, at the output of a key file, and in a
document with its lock and copies. None of them takes the place of a key file or an identity file, unless a path hides one or the
output of a key file names it.
-/

namespace SealedConfig

open Run FileTree

variable {w after : World} {path : String} {content : Bytes} {mode : Nat}

/-! ## Documents -/

namespace Bulk

/-- An update lets a text stand that opens no object, since it writes only to documents that have secrets. -/
theorem stat_of_update {p : Protector} {operation : Operation} {confirmed : Bool} {cancelAfter : Option Nat} {document : String}
    {result : Except Failure Report} (h : outcome (update p operation confirmed cancelAfter document) w = (result, after))
    {text : String} (hs : w.files.stat w.here path = .ok (.file (Bytes.ofText text) mode)) (ho : OpensNoObject text) :
    after.files.stat w.here path = .ok (.file (Bytes.ofText text) mode) := by
  rcases (update_cases h).2 with ⟨-, -, hgains | ⟨-, copy, old, bits, -, hgains⟩⟩ |
    ⟨report, copy, rfl, hsome, -, target, old, new, bits, hcopy, hleads, -, -, hgains⟩
  · exact hgains.stat_eq_file hs
  · exact hgains.stat_eq_file hs
  · -- the document that was written had secrets, so the text is not its own
    obtain ⟨doc, docMode, edits, edited, hdoc, hedited⟩ := edited_of_update h
    obtain ⟨place, hplace, hfile, -⟩ := stat_eq_file_iff.mp hcopy.original
    obtain rfl : place.location = target := Leads.unique ⟨place, hplace, rfl⟩ hleads
    have hother : ¬w.files.Leads w.here path place.location := by
      rintro ⟨place', hplace', heq⟩
      obtain ⟨place'', hplace'', hfile'', -⟩ := stat_eq_file_iff.mp hs
      obtain rfl : place' = place'' := Except.ok.inj (hplace'.symm.trans hplace'')
      rw [heq, hfile] at hfile''
      obtain ⟨rfl, rfl⟩ := FileNode.file.inj (Option.some.inj hfile'')
      have htext : doc.raw = text :=
        Bytes.ofText_injective (FileNode.file.inj (Except.ok.inj (hdoc.file.symm.trans hcopy.original))).1
      have hnone : Scan.ofDocument doc = [] := ofDocument_eq_nil (by rw [htext]; exact ho)
      have htargets : operation.targets (Scan.ofDocument doc) = [] := by
        rw [hnone]
        cases operation <;> rfl
      have hpaths := hedited.rewrites.paths
      rw [htargets] at hpaths
      refine hsome ?_
      rw [hedited.fields, List.map_eq_nil_iff]
      exact List.map_eq_nil_iff.mp hpaths
    exact hgains.stat_eq_file (stat_set_other hfile hs hother)

end Bulk

/-! ## Key files -/

namespace KeyFile

theorem undisturbed_enclose (p : Protector) (plain : String) (w : World) : w.Undisturbed (outcome (Run.enclose p plain) w).2 := by
  unfold Run.enclose
  split
  · exact .refl w
  · exact ⟨⟨rfl, rfl, rfl, rfl⟩, rfl, rfl, rfl⟩

/-- Writing the output of a key file changes nothing or writes there. -/
theorem write_cases {output text : String} {told : Run (StateM World) Unit} (ht : Tells told) {result : Except Failure Unit}
    (h : outcome (do
      attempt .file (Host.writePrivate output (Bytes.ofText text))
      told) w = (result, after)) :
    after.files = w.files ∨ ∃ content, w.files.writePrivate w.here output content = .ok after.files := by
  rcases cases_of_writePrivate_tells ht h with ⟨-, rfl⟩ | ⟨-, files, hfiles, hlast⟩
  · exact Or.inl rfl
  · rw [hlast.files]
    exact Or.inr ⟨_, hfiles⟩

/-- Sealing a key file changes nothing or writes the output. -/
theorem encrypt_cases {p : Protector} {input output : String} {result : Except Failure Unit}
    (h : outcome (encrypt p input output) w = (result, after)) :
    after.files = w.files ∨ ∃ content, w.files.writePrivate w.here output content = .ok after.files := by
  unfold encrypt at h
  have hread := (reads_readText (fun fault => .credential (.unreadable what input fault)) input).undisturbed w
  rcases cases_of_bind h with ⟨failure, hfail, rfl⟩ | ⟨plain, middle, hplain, h⟩
  · unfold read at hfail
    rw [hfail] at hread
    exact Or.inl hread.files
  unfold read at hplain
  rw [hplain] at hread
  split at h
  · obtain ⟨rfl, rfl⟩ := Prod.mk.inj h
    exact Or.inl hread.files
  have henclose := undisturbed_enclose p plain middle
  rcases cases_of_bind h with ⟨failure, hfail, rfl⟩ | ⟨sealed, enclosed, hsealed, h⟩
  · rw [hfail] at henclose
    exact Or.inl (henclose.files.trans hread.files)
  rw [hsealed] at henclose
  have hbefore := hread.trans henclose
  rw [← hbefore.files, ← hbefore.here]
  exact write_cases (tells_inform _ _) h

/-- Opening a key file changes nothing or writes the output. -/
theorem decrypt_cases {p : Protector} {input output : String} {result : Except Failure Unit}
    (h : outcome (decrypt p input output) w = (result, after)) :
    after.files = w.files ∨ ∃ content, w.files.writePrivate w.here output content = .ok after.files := by
  unfold decrypt at h
  have hread := (reads_readText (fun fault => .credential (.unreadable what input fault)) input).undisturbed w
  rcases cases_of_bind h with ⟨failure, hfail, rfl⟩ | ⟨text, middle, htext, h⟩
  · unfold read at hfail
    rw [hfail] at hread
    exact Or.inl hread.files
  unfold read at htext
  rw [htext] at hread
  rcases cases_of_bind h with ⟨failure, hfail, rfl⟩ | ⟨plain, opened, hopened, h⟩
  · obtain ⟨-, rfl⟩ := Prod.mk.inj hfail
    exact Or.inl hread.files
  obtain ⟨-, rfl⟩ := Prod.mk.inj hopened
  rw [← hread.files, ← hread.here]
  exact write_cases (tells_inform _ _) h

end KeyFile

namespace CommandLine

/-! ## Identities -/

/-- A location at the directory that is to hold a new identity or above it: where generating one may make a directory. -/
def MayHoldIdentity (here : Location) (path : String) (location : Location) : Prop :=
  ∃ parent above, FilePath.parent? path = some parent ∧ FilePath.Above parent above ∧ location = points here above

/-- Generating an identity changes nothing but for new directories until the file is written, which is the last that can fail. -/
theorem generateIdentity_steps {result : Except Failure Unit} (h : outcome (generateIdentity path) w = (result, after)) :
    ∃ grown, w.Grown grown ∧ w.files.GainsDirectories (MayHoldIdentity w.here path) grown.files ∧
      ((∃ failure, result = .error failure) ∧ after = grown ∨
        ∃ moment files, w.now = some moment ∧ result = .ok () ∧
          grown.files.writePrivate grown.here path (Bytes.ofText (identityText moment ⟨w.draw 32⟩)) = .ok files ∧
          World.Undisturbed { grown with files := files } after) := by
  have hdraw : outcome (random 32) w = (.ok (w.draw 32), { w with drawn := w.drawn + 32 }) := rfl
  have hdrawn : w.Undisturbed { w with drawn := w.drawn + 32 } := ⟨⟨rfl, rfl, rfl, rfl⟩, rfl, rfl, rfl⟩
  unfold generateIdentity at h
  rw [outcome_bind_ok hdraw] at h
  rcases cases_of_bind h with ⟨failure, hfail, rfl⟩ | ⟨moment, clock, hclock, h⟩
  · obtain rfl := (Bulk.now_error hfail).1
    exact ⟨_, hdrawn.grown, .refl _ _, Or.inl ⟨⟨failure, rfl⟩, rfl⟩⟩
  obtain ⟨rfl, hnow⟩ := Bulk.now_ok hclock
  -- the end of the run, once the directories are there
  have hfinish {grown : World} (h : outcome (do
      attempt (fun fault => .store (.unwritable fault)) (Host.writePrivate path (Bytes.ofText (identityText moment ⟨w.draw 32⟩)))
      inform "generated age identity" [Log.plain "path" path]) grown = (result, after)) :
      (∃ failure, result = .error failure) ∧ after = grown ∨
        ∃ moment files, w.now = some moment ∧ result = .ok () ∧
          grown.files.writePrivate grown.here path (Bytes.ofText (identityText moment ⟨w.draw 32⟩)) = .ok files ∧
          World.Undisturbed { grown with files := files } after := by
    rcases cases_of_writePrivate_tells (tells_inform _ _) h with ⟨⟨fault, hfault⟩, hafter⟩ | ⟨hok, files, hfiles, hlast⟩
    · exact Or.inl ⟨⟨_, hfault⟩, hafter⟩
    · exact Or.inr ⟨moment, files, hnow, hok, hfiles, hlast⟩
  dsimp only at h
  split at h
  · rename_i parent hparent
    have hgains {made : World} {made? : Except Failure Unit}
        (hmade : outcome (attempt (fun fault => .store (.unwritable fault)) (Host.createDirectories parent))
          { w with drawn := w.drawn + 32 } = (made?, made)) : w.files.GainsDirectories (MayHoldIdentity w.here path) made.files :=
      (gains_of_createDirectories hmade).mono fun location ⟨above, habove, hl⟩ =>
        ⟨parent, above, Option.eq_some_of_filter_eq_some hparent, habove, hl⟩
    rcases cases_of_bind h with ⟨failure, hfail, rfl⟩ | ⟨_, grown, hdirectories, h⟩
    · exact ⟨after, hdrawn.grown.trans (grown_of_createDirectories hfail), hgains hfail, Or.inl ⟨⟨failure, rfl⟩, rfl⟩⟩
    · exact ⟨grown, hdrawn.grown.trans (grown_of_createDirectories hdirectories), hgains hdirectories, hfinish h⟩
  · exact ⟨_, hdrawn.grown, .refl _ _, hfinish h⟩

/-- A new identity is written over nothing where none was found, unless its path hides a file. -/
theorem generateIdentity_cases (hnew : ∀ node, w.files.stat w.here path ≠ .ok node) (hhides : ¬w.files.Hides w.here path)
    {result : Except Failure Unit} (h : outcome (generateIdentity path) w = (result, after)) : w.Enlarged after := by
  obtain ⟨grown, hgrown, -, ⟨-, rfl⟩ | ⟨moment, files, -, -, hfiles, hlast⟩⟩ := generateIdentity_steps h
  · exact hgrown.toEnlarged
  · exact (enlarged_of_writePrivate hnew hhides hgrown.toEnlarged hfiles).trans hlast.toLooksLike.enlarged

/-- A new identity is written wherever the directories above its path can be made, and then the file. -/
theorem generateIdentity_ok {moment : Moment} {above : String} {grown files : FileTree} (hnow : w.now = some moment)
    (habove : (FilePath.parent? path).filter (· ≠ "") = some above)
    (hgrown : w.files.createDirectories w.here (above.length + 1) above = .ok grown)
    (hwrite : grown.writePrivate w.here path (Bytes.ofText (identityText moment ⟨w.draw 32⟩)) = .ok files) :
    ∃ made, outcome (generateIdentity path) w = (.ok (), made) ∧ World.LooksLike { w with files := files } made := by
  have hdraw : outcome (random 32) w = (.ok (w.draw 32), { w with drawn := w.drawn + 32 }) := rfl
  have hclock : outcome Run.now { w with drawn := w.drawn + 32 } = (.ok moment, { w with drawn := w.drawn + 32 }) :=
    Bulk.now_of_eq_some hnow
  have hdirectories : outcome (attempt (fun fault => .store (.unwritable fault)) (Host.createDirectories above))
      { w with drawn := w.drawn + 32 } = (.ok (), { w with drawn := w.drawn + 32, files := grown }) := by
    rw [outcome_createDirectories]
    dsimp only
    rw [createDirectories_eq_ok_iff.mp hgrown]
    rfl
  have hwritten : outcome (attempt (fun fault => .store (.unwritable fault))
      (Host.writePrivate path (Bytes.ofText (identityText moment ⟨w.draw 32⟩)))) { w with drawn := w.drawn + 32, files := grown } =
        (.ok (), { w with drawn := w.drawn + 32, files := files }) := by
    rw [outcome_writePrivate, hwrite]
    rfl
  obtain ⟨event, htells⟩ := tells_inform "generated age identity" [Log.plain "path" path]
  unfold generateIdentity
  rw [outcome_bind_ok hdraw, outcome_bind_ok hclock, habove]
  dsimp only
  rw [outcome_bind_ok hdirectories, outcome_bind_ok hwritten, htells]
  have htold := World.undisturbed_tell { w with drawn := w.drawn + 32, files := files } event
  exact ⟨_, rfl, htold.files, htold.here, htold.environment, htold.fallbackHome⟩

/-- An identity is to be generated: the keys are to be wrapped for one, and nothing is found at its path. -/
structure LacksIdentity (keys : KeySettings) (w : World) (path : String) : Prop where
  protection : keys.protection = .identity
  identity : keys.identity = some path
  missing : ∀ node, w.files.stat w.here path ≠ .ok node

/-- No path of an identity that is to be generated hides a file. -/
def SeesIdentity (keys : KeySettings) (w : World) : Prop := ∀ path, LacksIdentity keys w path → ¬w.files.Hides w.here path

/-- Providing an identity does nothing or generates it, and comes to what that comes to. -/
theorem provideIdentity_steps (context : Context) {keys : KeySettings} {result : Except Failure Unit}
    (h : outcome (context.provideIdentity keys) w = (result, after)) :
    result = .ok () ∧ after = w ∨
      ∃ path made, LacksIdentity keys w path ∧ outcome (generateIdentity path) w = (result, made) ∧ made.LooksLike after := by
  have hnothing (h : outcome (pure () : Run (StateM World) Unit) w = (result, after)) : result = .ok () ∧ after = w := by
    obtain ⟨rfl, rfl⟩ := Prod.mk.inj h
    exact ⟨rfl, rfl⟩
  unfold Context.provideIdentity at h
  split at h
  · rename_i hprotection
    split at h
    · rename_i path hpath
      have hexists : outcome (pathExists path) w = (.ok (w.stat? path).isSome, w) := rfl
      rw [outcome_bind_ok hexists] at h
      split at h
      · rename_i hmissing
        have hnew : ∀ node, w.files.stat w.here path ≠ .ok node := by
          intro node hstat
          rw [World.stat?, hstat] at hmissing
          cases hmissing
        refine Or.inr ⟨path, ?_⟩
        rcases cases_of_bind h with ⟨failure, hfail, rfl⟩ | ⟨_, made, hmade, h⟩
        · exact ⟨after, ⟨hprotection, hpath, hnew⟩, hfail, rfl, rfl, rfl, rfl⟩
        · obtain ⟨rfl, rfl⟩ := Prod.mk.inj h
          exact ⟨made, ⟨hprotection, hpath, hnew⟩, hmade, rfl, rfl, rfl, rfl⟩
      · exact Or.inl (hnothing h)
    · exact Or.inl (hnothing h)
  · exact Or.inl (hnothing h)

/-- An identity that is provided is one that is there or is written over nothing. -/
theorem provideIdentity_cases (context : Context) {keys : KeySettings} (hsees : SeesIdentity keys w) {result : Except Failure Unit}
    (h : outcome (context.provideIdentity keys) w = (result, after)) : w.Enlarged after := by
  rcases provideIdentity_steps context h with ⟨-, rfl⟩ | ⟨path, made, hlacks, hmade, hlook⟩
  · exact .refl after
  · exact (generateIdentity_cases hlacks.missing (hsees path hlacks) hmade).trans hlook.enlarged

/-- An identity that is named and not found is generated. -/
theorem provideIdentity_ok (context : Context) {keys : KeySettings} {made : World} (hprotection : keys.protection = .identity)
    (hpath : keys.identity = some path) (hnone : w.stat? path = none) (hmade : outcome (generateIdentity path) w = (.ok (), made)) :
    ∃ provided, outcome (context.provideIdentity keys) w = (.ok (), provided) ∧ made.LooksLike provided := by
  have hexists : outcome (pathExists path) w = (.ok false, w) := by
    have hrun : outcome (pathExists path) w = (.ok (w.stat? path).isSome, w) := rfl
    rw [hrun, hnone]
    rfl
  unfold Context.provideIdentity
  rw [if_pos hprotection, hpath]
  dsimp only
  rw [outcome_bind_ok hexists, Bool.not_false, if_pos rfl, outcome_bind_ok hmade]
  exact ⟨_, rfl, rfl, rfl, rfl, rfl⟩

/-! ## Protectors -/

/-- The path of the key file hides no file in a world. -/
def SeesKey (keys : KeySettings) (w : World) : Prop := ∀ path, keys.keyPath? w = some path → ¬w.files.Hides w.here path

theorem SeesKey.of_looksLike {keys : KeySettings} {other : World} (h : SeesKey keys w) (hw : w.LooksLike other) : SeesKey keys other := by
  intro path hpath
  rw [hw.sharesSite.keyPath?] at hpath
  rw [hw.files, hw.here]
  exact h path hpath

namespace Context

variable {context : Context} {purpose : String}

/-- A protector is had from a key that is held. -/
theorem protector_eq_ok_iff {p : Protector} :
    (outcome (context.protector purpose) w).1 = .ok p ↔
      ∃ key, KeyStore.Holds context.cipher context.settings.keys w key ∧
        p = (Provider.mk key context.settings.keys.application).protector purpose := by
  have hload (store : KeyStore) : Reads (store.provider context.settings.keys.application) :=
    (KeyStore.reads_loadMaster store).bind fun key => reads_pure _
  unfold protector provider
  constructor
  · intro h
    obtain ⟨provider, hprovider, hp⟩ := exists_of_bind_ok h
    obtain ⟨store, hstore, hprovider⟩ := context.reads_store.exists_of_bind_ok hload hprovider
    obtain ⟨key, hkey, hdone⟩ := exists_of_bind_ok hprovider
    obtain rfl : ⟨key, _⟩ = provider := Except.ok.inj hdone
    exact ⟨key, ⟨store, hstore, hkey⟩, (Except.ok.inj hp).symm⟩
  · rintro ⟨key, ⟨store, hstore, hkey⟩, rfl⟩
    have hprovider : (outcome (store.provider context.settings.keys.application) w).1 = .ok ⟨key, context.settings.keys.application⟩ :=
      (KeyStore.reads_loadMaster store).bind_ok (fun key => reads_pure _) hkey rfl
    exact (context.reads_store.bind hload).bind_ok (fun provider => reads_pure _) (context.reads_store.bind_ok hload hstore hprovider)
      rfl

/-- A protector that makes its key if there is none makes it over nothing, unless the path hides a file, and is had from the key that
is held from then on. -/
theorem protectorOrNew_cases (hlawful : context.cipher.Lawful) (hform : context.cipher.isEncrypted = Age.Armor.isArmored)
    (hsees : SeesKey context.settings.keys w)
    {result : Except Failure Protector} (h : outcome (context.protectorOrNew purpose) w = (result, after)) :
    w.Grown after ∧ ∀ p, result = .ok p → ∃ key, KeyStore.Holds context.cipher context.settings.keys after key ∧
      p = (Provider.mk key context.settings.keys.application).protector purpose := by
  unfold protectorOrNew at h
  have hstored := context.reads_store.undisturbed w
  rcases cases_of_bind h with ⟨failure, hfail, rfl⟩ | ⟨store, chosen, hstore, h⟩
  · rw [hfail] at hstored
    exact ⟨hstored.grown, nofun⟩
  rw [hstore] at hstored
  have hchosen : (outcome (KeyStore.ofSettings context.cipher context.settings.keys) w).1 = .ok store := congrArg Prod.fst hstore
  obtain ⟨dir, wrap, hdir, hwrap, rfl⟩ := ofSettings_eq_ok_iff.mp hchosen
  -- the store that was chosen is the one that the settings choose in every later world
  have hholds {key : MasterKey} {last : World} (hlast : w.SharesSite last)
      (hkey : (outcome (KeyStore.mk dir wrap context.cipher).loadMaster last).1 = .ok key) :
      KeyStore.Holds context.cipher context.settings.keys last key :=
    ⟨_, ofSettings_eq_ok_iff.mpr ⟨dir, wrap, by rw [hlast.dir?, hdir], hwrap, rfl⟩, hkey⟩
  have hpath : context.settings.keys.keyPath? w = some (KeyStore.mk dir wrap context.cipher).keyPath := by
    rw [KeySettings.keyPath?, hdir]
    rfl
  have hhidden : ¬chosen.files.Hides chosen.here (KeyStore.mk dir wrap context.cipher).keyPath := by
    rw [hstored.files, hstored.here]
    exact hsees _ hpath
  rcases cases_of_bind h with ⟨failure, hfail, rfl⟩ | ⟨provider, provided, hprovider, hdone⟩
  · exact ⟨hstored.grown.trans (KeyStore.providerOrNew_cases hlawful hform hhidden hfail).1, nofun⟩
  · obtain ⟨rfl, rfl⟩ := Prod.mk.inj hdone
    obtain ⟨hmade, hload⟩ := KeyStore.providerOrNew_cases hlawful hform hhidden hprovider
    have hgrown := hstored.grown.trans hmade
    obtain ⟨key, hkey, rfl⟩ := hload provider rfl
    exact ⟨hgrown, fun p hp => ⟨key, hholds hgrown.toSharesSite hkey, (Except.ok.inj hp).symm⟩⟩

/-- Where a key is held none is made. -/
theorem protectorOrNew_held (purpose : String) {key : MasterKey} (h : KeyStore.Holds context.cipher context.settings.keys w key) :
    ∃ found, outcome (context.protectorOrNew purpose) w =
        (.ok ((Provider.mk key context.settings.keys.application).protector purpose), found) ∧ w.Undisturbed found := by
  obtain ⟨store, hstore, hload⟩ := h
  have hstored := context.reads_store.undisturbed w
  generalize hchosen : (outcome context.store w).2 = stored at hstored
  have hstoreRun : outcome context.store w = (.ok store, stored) := Prod.ext hstore hchosen
  have hloadStored : (outcome store.loadMaster stored).1 = .ok key :=
    ((KeyStore.reads_loadMaster store).outcome_eq hstored.toLooksLike).trans hload
  have hloaded := (KeyStore.reads_loadMaster store).undisturbed stored
  generalize hlast : (outcome store.loadMaster stored).2 = loaded at hloaded
  have hloadRun : outcome store.loadMaster stored = (.ok key, loaded) := Prod.ext hloadStored hlast
  obtain ⟨text, mode, hstat, -⟩ := KeyStore.loadMaster_eq_ok_iff.mp hloadStored
  have hexists : outcome store.hasMaster stored = (.ok true, stored) := by
    have hrun : outcome store.hasMaster stored = (.ok (stored.stat? store.keyPath).isSome, stored) := rfl
    rw [hrun, World.stat?, hstat]
    rfl
  refine ⟨loaded, ?_, hstored.trans hloaded⟩
  unfold protectorOrNew KeyStore.providerOrNew KeyStore.provider
  rw [outcome_bind_ok hstoreRun, outcome_bind, outcome_bind_ok hexists, if_pos rfl, outcome_bind_ok hloadRun]
  rfl

/-- The key file of the settings under the choices of a command line is that of the settings. -/
theorem keyPath?_chosen (keys : KeySettings) (protection : Option Protection) (identity : Option String) (w : World) :
    (chosen keys protection identity).keyPath? w = keys.keyPath? w := by
  unfold chosen
  cases protection with
  | none => cases identity <;> rfl
  | some protection => cases identity <;> rfl

/-- What is printed of a key that was made, or told of it with or without a warning, is all that happens. -/
theorem yields_notice (asJson : Bool) (answer : Json) (style : Style) (notice warning : String) (bare : Prop) [Decidable bare]
    (u : World) :
    Yields u (if asJson then printJson answer else do style.success notice; if bare then style.warning warning) (.ok ()) := by
  split
  · exact yields_print _ _
  · refine (yields_print _ _).bind_ok ?_
    split
    · exact yields_complain _ _
    · exact yields_pure _ _

/-- What is told behind a run whose result is dropped leaves its files and what it comes to. -/
theorem cases_of_discard {α : Type} {x : Run (StateM World) α} {rest : Run (StateM World) Unit} (hrest : ∀ u, Yields u rest (.ok ()))
    {result : Except Failure Unit} (h : outcome (discard x >>= fun _ => rest) w = (result, after)) :
    ∃ given made, outcome x w = (given, made) ∧ after.files = made.files ∧ given.map (fun _ => ()) = result := by
  refine ⟨(outcome x w).1, (outcome x w).2, rfl, ?_⟩
  rw [outcome_bind, outcome_discard] at h
  cases hx : (outcome x w).1 with
  | error failure =>
    rw [hx] at h
    obtain ⟨rfl, rfl⟩ := Prod.mk.inj h
    exact ⟨rfl, rfl⟩
  | ok a =>
    rw [hx] at h
    obtain ⟨hok, hlook⟩ := hrest (outcome x w).2 _ (.refl _)
    dsimp only [Except.map] at h
    rw [h] at hok hlook
    exact ⟨hlook.files, hok.symm⟩

/-- The settings that a key is made under: those of the command line with its choices for the key. -/
def initSettings (context : Context) (protection : Option Protection) (identity : Option String) : Settings :=
  { context.settings with keys := chosen context.settings.keys protection identity }

/-- Making a key in the store of the settings, once the identity is provided. -/
def makeKey {m : Type → Type} [Host m] (context : Context) (force : Bool) : Run m Unit := do
  let store ← context.store
  inform "creating master key" [Log.inQuotes "store" store.name, Log.plain "location" store.location]
  discard (store.createMaster force)
  if context.asJson then
    printJson (.object [("protection", .string context.settings.keys.protection.name), ("location", .string store.location)])
  else
    context.style.success
      s!"created master key ({context.settings.keys.protection.name}) in {context.style.named store.location}"
    if context.settings.keys.protection = .none then
      context.style.warning "master key is stored unwrapped, use --protection for production"

theorem init_eq {m : Type → Type} [Host m] (context : Context) (protection : Option Protection) (identity : Option String)
    (force : Bool) : (context.init protection identity force : Run m Unit) = (do
      settle .settings (context.initSettings protection identity).validate
      context.provideIdentity (context.initSettings protection identity).keys
      makeKey { context with settings := context.initSettings protection identity } force) := rfl

/-- Making a key comes to what the store comes to, if there is one. -/
theorem makeKey_cases {force : Bool} {result : Except Failure Unit} (h : outcome (context.makeKey force) w = (result, after)) :
    after.files = w.files ∨
      ∃ dir wrap told made master, context.settings.keys.dir? w = some dir ∧ w.Undisturbed told ∧
        outcome ((KeyStore.mk dir wrap context.cipher).createMaster force) told = (master, made) ∧ after.files = made.files ∧
        master.map (fun _ => ()) = result := by
  have hread := (reads_ofSettings context.cipher context.settings.keys).undisturbed w
  unfold makeKey Context.store at h
  rcases cases_of_bind h with ⟨failure, hfail, rfl⟩ | ⟨store, stored, hstore, h⟩
  · rw [hfail] at hread
    exact Or.inl hread.files
  rw [hstore] at hread
  obtain ⟨dir, wrap, hdir, -, rfl⟩ := ofSettings_eq_ok_iff.mp (congrArg Prod.fst hstore)
  obtain ⟨event, htells⟩ := tells_inform "creating master key"
    [Log.inQuotes "store" (KeyStore.mk dir wrap context.cipher).name, Log.plain "location" (KeyStore.mk dir wrap context.cipher).location]
  rw [outcome_bind_ok (htells stored)] at h
  obtain ⟨master, made, hmade, hfiles, hresult⟩ := cases_of_discard (yields_notice _ _ _ _ _ _) h
  exact Or.inr ⟨dir, wrap, stored.tell event, made, master, hdir, hread.trans (stored.undisturbed_tell event), hmade, hfiles, hresult⟩

/-- Making a key writes where the identity is provided and where the store makes the key, if it gets that far; from there on it comes
to what the store comes to. -/
theorem init_cases {protection : Option Protection} {identity : Option String} {force : Bool} {result : Except Failure Unit}
    (h : outcome (context.init protection identity force) w = (result, after)) :
    (∃ fault, (context.initSettings protection identity).validate = .error fault) ∧ after.files = w.files ∨
      (context.initSettings protection identity).validate = .ok () ∧
        ∃ identified provided,
          outcome (context.provideIdentity (context.initSettings protection identity).keys) w = (identified, provided) ∧
          (after.files = provided.files ∨
            ∃ dir wrap told made master, (context.initSettings protection identity).keys.dir? provided = some dir ∧
              provided.Undisturbed told ∧
              outcome ((KeyStore.mk dir wrap context.cipher).createMaster force) told = (master, made) ∧ after.files = made.files ∧
              master.map (fun _ => ()) = result) := by
  rw [init_eq] at h
  cases hvalid : (context.initSettings protection identity).validate with
  | error fault =>
    rw [hvalid] at h
    obtain ⟨-, rfl⟩ := Prod.mk.inj h
    exact Or.inl ⟨⟨fault, rfl⟩, rfl⟩
  | ok =>
    refine Or.inr ⟨rfl, ?_⟩
    rw [hvalid, outcome_bind_ok (outcome_settle _ _ _)] at h
    rcases cases_of_bind h with ⟨failure, hfail, rfl⟩ | ⟨_, provided, hprovided, h⟩
    · exact ⟨_, after, hfail, Or.inl rfl⟩
    · exact ⟨_, provided, hprovided, makeKey_cases h⟩

/-- Making a key and an identity for it, unless it is forced, loses nothing unless a path hides a file. -/
theorem grows_of_init {protection : Option Protection} {identity : Option String}
    (hkey : SeesKey context.settings.keys w)
    (hidentity : ∀ path, (chosen context.settings.keys protection identity).protection = .identity →
      (chosen context.settings.keys protection identity).identity = some path → ¬w.files.Hides w.here path)
    {result : Except Failure Unit} (h : outcome (context.init protection identity false) w = (result, after)) :
    w.files.Grows after.files := by
  rcases init_cases h with ⟨-, heq⟩ | ⟨-, identified, provided, hprovided, hrest⟩
  · rw [heq]
    exact .refl _
  have henlarged := provideIdentity_cases context (fun path hlacks => hidentity path hlacks.protection hlacks.identity) hprovided
  rcases hrest with heq | ⟨dir, wrap, told, made, master, hdir, htold, hmade, heq, -⟩
  · rw [heq]
    exact henlarged.files
  · have hpath : context.settings.keys.keyPath? w = some (KeyStore.mk dir wrap context.cipher).keyPath := by
      rw [← keyPath?_chosen _ protection identity, ← henlarged.toSharesSite.keyPath?]
      exact congrArg (Option.map (FilePath.join · KeyStore.fileName)) hdir
    rw [heq]
    exact (KeyStore.enlarged_of_createMaster (henlarged.trans htold.toLooksLike.enlarged) (hkey _ hpath) hmade).files

end Context

end CommandLine

end SealedConfig
