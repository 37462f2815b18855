import SealedConfig.Proofs.CommandLine.Mishaps
import SealedConfig.Proofs.CommandLine.Session

/-!
# What is left where no key is made

A command that fails to make a master key leaves no more than directories that were missing and the one file that it makes on the way,
an identity to wrap the key for that was not there. The identity comes before the store is looked at, so it is left also where a key
stands already. Only a mishap that strikes the writing of one of the two files leaves the first part of it, and tells so.
-/

namespace SealedConfig

open Run FileTree

namespace CommandLine

variable {w after : World} {settings : Settings} {force : Bool} {cut : Prop} {failure : Failure} {faulty left : FaultyWorld}

/-- A location at the directory of the keys or above it: where making a key may make a directory. -/
def MayHoldKey (keys : KeySettings) (w : World) (location : Location) : Prop :=
  ∃ dir above, keys.dir? w = some dir ∧ FilePath.Above dir above ∧ location = points w.here above

/-- The writing of a file was struck. -/
def CutWriting (failure : Failure) (left : FaultyWorld) : Prop :=
  ∃ mishap, left.JustMet mishap ∧ failure = .store (.unwritable mishap.fault)

/-- What may be left at a location where no key is made under settings, which are valid then: a directory where nothing was, a new
identity for its owner only where nothing was, or the first part of a file whose writing was cut short. A key file in part takes the
place of something only by force. -/
inductive Leftover (settings : Settings) (force : Bool) (cut : Prop) (w : World) : Location → FileNode → Prop where
  | directory {location : Location} (hvalid : settings.validate = .ok ())
      (hmakes : MayHoldKey settings.keys w location ∨ ∃ path, LacksIdentity settings.keys w path ∧ MayHoldIdentity w.here path location)
      (hnone : w.files.get? location = none) : Leftover settings force cut w location (.directory directoryMode)
  | identity {path : String} {moment : Moment} (hvalid : settings.validate = .ok ()) (hlacks : LacksIdentity settings.keys w path)
      (hnow : w.now = some moment) (hnone : w.files.get? (points w.here path) = none) :
      Leftover settings force cut w (points w.here path) (.file (Bytes.ofText (identityText moment ⟨w.draw 32⟩)) privateMode)
  | identityPart {path : String} {moment : Moment} (hcut : cut) (hvalid : settings.validate = .ok ())
      (hlacks : LacksIdentity settings.keys w path) (hnow : w.now = some moment) (hnone : w.files.get? (points w.here path) = none)
      (written : Nat) : Leftover settings force cut w (points w.here path)
        (.file ((Bytes.ofText (identityText moment ⟨w.draw 32⟩)).take written) privateMode)
  | keyPart {path : String} (hcut : cut) (hvalid : settings.validate = .ok ()) (hpath : settings.keys.keyPath? w = some path)
      (hfree : force = true ∨ w.files.get? (points w.here path) = none) (part : Bytes) (mode : Nat) :
      Leftover settings force cut w (points w.here path) (.file part mode)

/-- What stood still stands, but for a key file whose replacing by force was cut short. -/
theorem get?_of_leftovers {files : FileTree} (h : w.files.ChangesOnly (Leftover settings force cut w) files) {location : Location}
    {node : FileNode} (hnode : w.files.get? location = some node) :
    files.get? location = some node ∨
      force = true ∧ cut ∧ ∃ path, settings.keys.keyPath? w = some path ∧ location = points w.here path := by
  have hnot (hnone : w.files.get? location = none) : False := by
    rw [hnode] at hnone
    cases hnone
  rcases h location with heq | ⟨_, -, hleft⟩
  · exact Or.inl (heq.trans hnode)
  · cases hleft with
    | directory _ _ hnone => exact (hnot hnone).elim
    | identity _ _ _ hnone => exact (hnot hnone).elim
    | identityPart _ _ _ _ hnone _ => exact (hnot hnone).elim
    | keyPart hcut _ hpath hfree _ _ => exact Or.inr ⟨hfree.resolve_right hnot, hcut, _, hpath, rfl⟩

/-- Where no identity is to be made, and no key file was cut short, the files are those that were there. -/
theorem file_iff_of_leftovers {files : FileTree} (h : w.files.ChangesOnly (Leftover settings force cut w) files) {location : Location}
    (hidentity : ∀ path, LacksIdentity settings.keys w path → points w.here path ≠ location)
    (hkey : cut → ∀ path, settings.keys.keyPath? w = some path → points w.here path ≠ location) {content : Bytes} {mode : Nat} :
    files.get? location = some (.file content mode) ↔ w.files.get? location = some (.file content mode) := by
  refine h.file_iff ?_ ?_
  · intro other bits hleft
    cases hleft with
    | identity _ hlacks _ _ => exact hidentity _ hlacks rfl
    | identityPart _ _ hlacks _ _ _ => exact hidentity _ hlacks rfl
    | keyPart hcut _ hpath _ _ _ => exact hkey hcut _ hpath rfl
  · intro bits hleft
    cases hleft with
    | directory _ _ hnone => exact hnone

namespace Context

variable {context : Context}

/-- Directories that generating an identity makes may be left. -/
theorem leftovers_of_directories {path : String} {made : FileTree} (hvalid : settings.validate = .ok ())
    (hlacks : LacksIdentity settings.keys w path) (hgains : w.files.GainsDirectories (MayHoldIdentity w.here path) made) :
    w.files.ChangesOnly (Leftover settings force cut w) made :=
  (ChangesOnly.refl _ _).gains hgains fun _ hl hnone => .directory hvalid (Or.inr ⟨path, hlacks, hl⟩) hnone

/-- Providing an identity leaves no more than may be left. -/
theorem leftovers_of_provideIdentity (hvalid : settings.validate = .ok ()) (hsees : SeesIdentity settings.keys w)
    {result : Except Failure Unit} (h : outcome (context.provideIdentity settings.keys) w = (result, after)) :
    w.files.ChangesOnly (Leftover settings force cut w) after.files := by
  rcases provideIdentity_steps context h with ⟨-, rfl⟩ | ⟨path, made, hlacks, hmade, hlook⟩
  · exact .refl _ _
  obtain ⟨grown, hgrown, hgains, hmade⟩ := generateIdentity_steps hmade
  have hdirectories : w.files.ChangesOnly (Leftover settings force cut w) grown.files :=
    leftovers_of_directories hvalid hlacks hgains
  rcases hmade with ⟨-, rfl⟩ | ⟨moment, files, hnow, -, hfiles, hlast⟩
  · rw [hlook.files]
    exact hdirectories
  · rw [hgrown.here] at hfiles
    rw [hlook.files, hlast.files]
    exact hdirectories.write hfiles
      (.identity hvalid hlacks hnow (get?_of_writePrivate hlacks.missing (hsees path hlacks) hgrown.files hfiles))

/-- A mishap that strikes the generating of an identity leaves no more than may be left. -/
theorem leftovers_of_generateStruck {path : String} (hvalid : settings.validate = .ok ()) (hlacks : LacksIdentity settings.keys w path)
    (hsees : SeesIdentity settings.keys w) (h : GenerateStruck path w failure left) :
    w.files.ChangesOnly (Leftover settings force (CutWriting failure left) w) left.world.files := by
  obtain ⟨moment, hnow, hgains | ⟨mishap, grown, hmet, hfailure, hgains, hpart⟩⟩ := h
  · exact leftovers_of_directories hvalid hlacks hgains
  have hnone := get?_of_takesFile hlacks.missing (hsees path hlacks) hgains.grows hpart.takesFile
  -- no directory was made where the file is, so nothing is there yet
  have hnew : grown.get? (points w.here path) = none := by
    rcases hgains (points w.here path) with heq | ⟨-, hmade, -⟩
    · exact heq.trans hnone
    · obtain ⟨place, hplace, -, hnot⟩ := hpart.takesFile
      rw [← location_of_resolve hplace] at hmade
      exact absurd hmade (hnot _)
  refine (leftovers_of_directories hvalid hlacks hgains).writesPart hpart fun written => ?_
  rw [hnew]
  exact .identityPart ⟨mishap, hmet, hfailure⟩ hvalid hlacks hnow hnone written

/-- Where no key is made once the identity is provided there are no more than new directories, or the writing of the key file was cut
short, which has happened to a key file that was found only by force. -/
theorem makeKey_error_cases (h : ending (makeKey { context with settings := settings } force) faulty = (.error failure, left)) :
    left.mishaps = faulty.mishaps ∧
      (faulty.world.files.GainsDirectories (MayHoldKey settings.keys faulty.world) left.world.files ∨
        CutWriting failure left ∧ ∃ path content grown, settings.keys.keyPath? faulty.world = some path ∧
          (force = true ∨ ∀ node, faulty.world.files.stat faulty.world.here path ≠ .ok node) ∧
          faulty.world.files.GainsDirectories (MayHoldKey settings.keys faulty.world) grown ∧
          grown.WritesPart faulty.world.here path content left.world.files) := by
  have hmay {dir : String} {wrap : KeyWrap} (hdir : settings.keys.dir? faulty.world = some dir) {made : FileTree}
      (hgains : faulty.world.files.GainsDirectories ((KeyStore.mk dir wrap context.cipher).MayHold faulty.world.here) made) :
      faulty.world.files.GainsDirectories (MayHoldKey settings.keys faulty.world) made :=
    hgains.mono fun location ⟨above, habove, hl⟩ => ⟨dir, above, hdir, habove, hl⟩
  obtain ⟨hmishaps, hcalm | ⟨dir, wrap, told, hdir, htold, hmake, hallowed⟩⟩ := (follows_makeKey _ force).error h
  · refine ⟨hmishaps, Or.inl ?_⟩
    rw [ending_eq_outcome] at hcalm
    rcases makeKey_cases hcalm with heq | ⟨dir, wrap, told, made, master, hdir, htold, hmade, heq, hmaster⟩
    · rw [heq]
      exact .refl _ _
    · cases master with
      | ok key => cases hmaster
      | error cause =>
        have hgains := KeyStore.gains_of_createMaster hmade
        rw [htold.files, htold.here] at hgains
        rw [heq]
        exact hmay hdir hgains
  · refine ⟨hmishaps, ?_⟩
    rcases hmake.of_looksLike htold.toLooksLike with hgains | ⟨mishap, hmet, hfailure, _, _, _, grown, -, -, hgains, hpart⟩
    · exact Or.inl (hmay hdir hgains)
    · refine Or.inr ⟨⟨mishap, hmet, hfailure⟩, _, _, grown, ?_, ?_, hmay hdir hgains, hpart⟩
      · exact congrArg (Option.map (FilePath.join · KeyStore.fileName)) hdir
      · rw [← htold.files, ← htold.here]
        exact hallowed

/-- Making a key behind what may be left leaves no more than may be left. -/
theorem leftovers_of_makeKey (hvalid : settings.validate = .ok ()) (hsees : SeesKey settings.keys w)
    (henlarged : w.Enlarged faulty.world) (hbefore : w.files.ChangesOnly
      (Leftover settings force (CutWriting failure left) w) faulty.world.files)
    (h : ending (makeKey { context with settings := settings } force) faulty = (.error failure, left)) :
    w.files.ChangesOnly (Leftover settings force (CutWriting failure left) w) left.world.files := by
  have hdirectories {made : FileTree}
      (hgains : faulty.world.files.GainsDirectories (MayHoldKey settings.keys faulty.world) made) :
      w.files.ChangesOnly (Leftover settings force (CutWriting failure left) w) made := by
    refine hbefore.gains hgains fun location ⟨dir, above, hdir, habove, hl⟩ hnone => .directory hvalid (Or.inl ?_) hnone
    exact ⟨dir, above, (henlarged.toSharesSite.dir? _).symm.trans hdir, habove, henlarged.here ▸ hl⟩
  rcases (makeKey_error_cases h).2 with hgains | ⟨hcut, path, content, grown, hpath, hallowed, hgains, hpart⟩
  · exact hdirectories hgains
  rw [henlarged.toSharesSite.keyPath?] at hpath
  rw [henlarged.here] at hpart hallowed
  refine (hdirectories hgains).writesPart hpart fun written => .keyPart hcut hvalid hpath ?_ _ _
  refine hallowed.imp_right fun hnone => ?_
  have hnew : ∀ node, w.files.stat w.here path ≠ .ok node := fun node hnode => hnone node (henlarged.files.stat_eq_ok hnode)
  exact get?_of_takesFile hnew (hsees path hpath) (henlarged.files.trans hgains.grows) hpart.takesFile

/-- Making a key keeps what it finds, but for a key file whose writing is cut short. -/
theorem kept_of_makeKey (h : ending (makeKey { context with settings := settings } force) faulty = (.error failure, left))
    {location : Location} {node : FileNode} (hnode : faulty.world.files.get? location = some node) :
    left.world.files.get? location = some node ∨ CutWriting failure left ∧
      ∃ path, settings.keys.keyPath? faulty.world = some path ∧ location = points faulty.world.here path := by
  rcases (makeKey_error_cases h).2 with hgains | ⟨hcut, path, content, grown, hpath, -, hgains, hpart⟩
  · exact Or.inl (hgains.grows _ _ hnode)
  · by_cases hlocation : location = points faulty.world.here path
    · exact Or.inr ⟨hcut, path, hpath, hlocation⟩
    · exact Or.inl ((hpart.get?.2 location hlocation).trans (hgains.grows _ _ hnode))

/-- A command that fails to make a key has not begun, since its settings are not valid, or has failed to provide the identity, or has
failed behind that. -/
theorem init_error_cases {protection : Option Protection} {identity : Option String}
    (h : ending (context.init protection identity force) faulty = (.error failure, left)) :
    (context.initSettings protection identity).validate ≠ .ok () ∧ left = faulty ∨
      (context.initSettings protection identity).validate = .ok () ∧
        (ending (context.provideIdentity (context.initSettings protection identity).keys) faulty = (.error failure, left) ∨
          ∃ provided, ending (context.provideIdentity (context.initSettings protection identity).keys) faulty = (.ok (), provided) ∧
            ending (makeKey { context with settings := context.initSettings protection identity } force) provided =
              (.error failure, left)) := by
  rw [init_eq] at h
  have hsettled : ending (settle .settings (context.initSettings protection identity).validate) faulty =
      ((context.initSettings protection identity).validate.mapError .settings, faulty) := rfl
  cases hvalid : (context.initSettings protection identity).validate with
  | error fault =>
    rw [hvalid] at h hsettled
    obtain ⟨-, rfl⟩ := Prod.mk.inj ((ending_bind_error hsettled).symm.trans h)
    exact Or.inl ⟨nofun, rfl⟩
  | ok =>
    rw [hvalid] at h hsettled
    rw [ending_bind_ok hsettled] at h
    refine Or.inr ⟨rfl, ?_⟩
    rcases ending_bind_cases h with ⟨cause, hfail, hcause⟩ | ⟨_, provided, hprovided, hmake⟩
    · obtain rfl := Except.error.inj hcause
      exact Or.inl hfail
    · exact Or.inr ⟨provided, hprovided, hmake⟩

/-- An identity that is missing and generated is provided. -/
theorem provideIdentity_of_generated (context : Context) {keys : KeySettings} {path : String} {made : FaultyWorld}
    (hlacks : LacksIdentity keys faulty.world path) (hmade : ending (generateIdentity path) faulty = (.ok (), made)) :
    ∃ shown, ending (context.provideIdentity keys) faulty = (.ok (), { made with world := shown }) ∧ made.world.LooksLike shown := by
  have hmissing : faulty.world.stat? path = none := by
    cases hstat : faulty.world.files.stat faulty.world.here path with
    | ok node => exact absurd hstat (hlacks.missing node)
    | error fault => rw [World.stat?, hstat]
  have hexists : ending (pathExists path) faulty = (.ok false, faulty) := by
    have hrun : ending (pathExists path) faulty = (.ok (faulty.world.stat? path).isSome, faulty) := rfl
    rw [hrun, hmissing]
    rfl
  unfold Context.provideIdentity
  rw [if_pos hlacks.protection, hlacks.identity]
  dsimp only
  rw [ending_bind_ok hexists, Bool.not_false, if_pos rfl, ending_bind_ok hmade]
  exact ⟨_, rfl, rfl, rfl, rfl, rfl⟩

/-- A command that fails to make a key leaves no more than may be left. -/
theorem leftovers_of_init {protection : Option Protection} {identity : Option String}
    (hidentity : SeesIdentity (context.initSettings protection identity).keys faulty.world)
    (hkey : SeesKey (context.initSettings protection identity).keys faulty.world)
    (h : ending (context.init protection identity force) faulty = (.error failure, left)) :
    left.mishaps = faulty.mishaps ∧ faulty.world.files.ChangesOnly
      (Leftover (context.initSettings protection identity) force (CutWriting failure left) faulty.world) left.world.files := by
  rcases init_error_cases h with ⟨-, rfl⟩ | ⟨hvalid, hfail | ⟨provided, hprovided, hmake⟩⟩
  · exact ⟨rfl, .refl _ _⟩
  · obtain ⟨hmishaps, hcalm | ⟨path, hlacks, hstruck⟩⟩ := (context.follows_provideIdentity _).error hfail
    · exact ⟨hmishaps, leftovers_of_provideIdentity hvalid hidentity hcalm⟩
    · exact ⟨hmishaps, leftovers_of_generateStruck hvalid hlacks hidentity hstruck⟩
  · obtain ⟨hmishaps, hcalm⟩ := (context.follows_provideIdentity _).ok hprovided
    refine ⟨(makeKey_error_cases hmake).1.trans hmishaps, ?_⟩
    exact leftovers_of_makeKey hvalid hkey (provideIdentity_cases context hidentity hcalm)
      (leftovers_of_provideIdentity hvalid hidentity hcalm) hmake

/-- An identity that was generated stays where no key is made behind it, but for a key file in its place whose writing was cut short. -/
theorem kept_of_generated {protection : Option Protection} {identity : Option String} {path : String} {made : FaultyWorld}
    (hvalid : (context.initSettings protection identity).validate = .ok ())
    (hlacks : LacksIdentity (context.initSettings protection identity).keys faulty.world path)
    (hsees : SeesIdentity (context.initSettings protection identity).keys faulty.world)
    (hmade : ending (generateIdentity path) faulty = (.ok (), made))
    (h : ending (context.init protection identity force) faulty = (.error failure, left)) {location : Location} {node : FileNode}
    (hnode : made.world.files.get? location = some node) :
    left.world.files.get? location = some node ∨ CutWriting failure left ∧ ∃ path,
      (context.initSettings protection identity).keys.keyPath? faulty.world = some path ∧ location = points faulty.world.here path := by
  obtain ⟨shown, hshown, hlook⟩ := context.provideIdentity_of_generated hlacks hmade
  rcases init_error_cases h with ⟨hnot, -⟩ | ⟨-, hfail | ⟨provided, hprovided, hmake⟩⟩
  · exact absurd hvalid hnot
  · cases hfail.symm.trans hshown
  obtain ⟨-, rfl⟩ := Prod.mk.inj (hprovided.symm.trans hshown)
  rw [← hlook.files] at hnode
  have hsite := (provideIdentity_cases context hsees ((context.follows_provideIdentity _).ok hprovided).2).toSharesSite
  refine (kept_of_makeKey hmake hnode).imp_right fun ⟨hcut, path, hpath, hlocation⟩ => ⟨hcut, path, ?_, ?_⟩
  · rw [← hsite.keyPath?]
    exact hpath
  · rw [← hsite.here]
    exact hlocation

/-- A command that fails to make a key, whatever the reason and whether or not it is forced, leaves all locations as they were but for
new directories, a new identity that it generated for a path at which nothing was found, and a file whose writing a mishap has cut
short. So what stood still stands, but for a key file whose replacing by force was cut short; wherever no new identity was to be, and
no key file was cut short, the files are those that were there; and an identity that was generated stays, unless the key file that was
cut short is in its place. -/
theorem init_error_leaves {protection : Option Protection} {identity : Option String}
    (hidentity : SeesIdentity (context.initSettings protection identity).keys faulty.world)
    (hkey : SeesKey (context.initSettings protection identity).keys faulty.world)
    (h : ending (context.init protection identity force) faulty = (.error failure, left)) :
    left.mishaps = faulty.mishaps ∧
      faulty.world.files.ChangesOnly
        (Leftover (context.initSettings protection identity) force (CutWriting failure left) faulty.world) left.world.files ∧
      (∀ location node, faulty.world.files.get? location = some node → left.world.files.get? location = some node ∨
        force = true ∧ CutWriting failure left ∧ ∃ path,
          (context.initSettings protection identity).keys.keyPath? faulty.world = some path ∧ location = points faulty.world.here path) ∧
      (∀ location,
        (∀ path, LacksIdentity (context.initSettings protection identity).keys faulty.world path →
          points faulty.world.here path ≠ location) →
        (CutWriting failure left → ∀ path, (context.initSettings protection identity).keys.keyPath? faulty.world = some path →
          points faulty.world.here path ≠ location) →
        ∀ content mode, left.world.files.get? location = some (.file content mode) ↔
          faulty.world.files.get? location = some (.file content mode)) ∧
      ∀ path made, (context.initSettings protection identity).validate = .ok () →
        LacksIdentity (context.initSettings protection identity).keys faulty.world path →
        ending (generateIdentity path) faulty = (.ok (), made) →
        ∀ location node, made.world.files.get? location = some node → left.world.files.get? location = some node ∨
          CutWriting failure left ∧ ∃ path,
            (context.initSettings protection identity).keys.keyPath? faulty.world = some path ∧ location = points faulty.world.here path := by
  obtain ⟨hmishaps, hleft⟩ := leftovers_of_init hidentity hkey h
  refine ⟨hmishaps, hleft, ?_, ?_, ?_⟩
  · intro location node hnode
    exact get?_of_leftovers hleft hnode
  · intro location hother hcut content mode
    exact file_iff_of_leftovers hleft hother hcut
  · intro path made hvalid hlacks hmade location node hnode
    exact kept_of_generated hvalid hlacks hidentity hmade h hnode

/-- A key is to be replaced by force by one for a passphrase, and there is none: the key stands as it did. -/
theorem init_error_leaves_key : ∃ left,
    ending (init ⟨sampleSettings, false, openCipher, ⟨false⟩⟩ (some .passphrase) none true) (FaultyWorld.sound sampleHome) =
        (.error (.store (.missingPassphrase "STRONGBOX_KEY_PASSPHRASE")), left) ∧
      left.world.files.get? ["work", "keys", "master.key"] = some (.file (Bytes.ofText (zeroKey.toBase64 ++ "\n")) privateMode) := by
  obtain ⟨left, hfails⟩ : ∃ left,
      ending (init ⟨sampleSettings, false, openCipher, ⟨false⟩⟩ (some .passphrase) none true) (FaultyWorld.sound sampleHome) =
        (.error (.store (.missingPassphrase "STRONGBOX_KEY_PASSPHRASE")), left) := ⟨_, rfl⟩
  have hsees : SeesKey { sampleSettings.keys with protection := .passphrase } sampleHome := by
    rintro path hpath ⟨hnowhere, -⟩
    obtain rfl : "keys/master.key" = path := Option.some.inj hpath
    cases hnowhere
  have hleaves := init_error_leaves (h := hfails)
  obtain ⟨hmishaps, -, hstands, -⟩ := hleaves (fun path hlacks => nomatch hlacks.protection) hsees
  refine ⟨left, hfails, (hstands ["work", "keys", "master.key"] _ (by rfl)).resolve_right ?_⟩
  rintro ⟨-, ⟨mishap, ⟨step, -, hmet⟩, -⟩, -⟩
  rw [hmishaps] at hmet
  cases hmet

/-- A new identity is asked for where a key stands, which is not to be replaced: no key is made, and a file is left where nothing was. On
a full device a key that is to be replaced by force is cut short, and no other one is made. -/
theorem init_error_leaves_files :
    ((outcome (init ⟨sampleSettings, false, openCipher, ⟨false⟩⟩ none (some "id.txt") false) sampleHome).1 =
        .error (.store (.alreadyExists "keys")) ∧
      sampleHome.files.get? ["work", "id.txt"] = none ∧
      (outcome (init ⟨sampleSettings, false, openCipher, ⟨false⟩⟩ none (some "id.txt") false) sampleHome).2.files.get? ["work", "id.txt"] =
        some (.file (Bytes.ofText (identityText ⟨0, 0, 0⟩ ⟨sampleHome.draw 32⟩)) privateMode)) ∧
    (ending (init ⟨sampleSettings, false, openCipher, ⟨false⟩⟩ none none true) (FaultyWorld.full sampleHome 2 4)).1 =
        .error (.store (.unwritable .noSpace)) ∧
      sampleHome.files.get? ["work", "keys", "master.key"] = some (.file (Bytes.ofText (zeroKey.toBase64 ++ "\n")) privateMode) ∧
      (ending (init ⟨sampleSettings, false, openCipher, ⟨false⟩⟩ none none true) (FaultyWorld.full sampleHome 2 4)).2.world.files.get?
          ["work", "keys", "master.key"] = some (.file (Bytes.ofText "AAAA") privateMode) := by
  refine ⟨⟨by rfl, by rfl, by rfl⟩, ?_, by rfl, ?_⟩
  · decide +kernel
  · decide +kernel

end Context

end CommandLine

end SealedConfig
