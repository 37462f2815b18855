import SealedConfig.Proofs.CommandLine.Running

/-!
# Sessions

A session is a row of command lines in one place, under the same settings, none of which replaces the master key by force. The key file
stays as it is from the moment that it is there, it is made by no command that only opens, and what a command has sealed opens for
every later one. All this supposes that no path hides a file at which a command makes a key or an identity.
-/

namespace SealedConfig

open Run FileTree

/-- The file that a path leads to is the same in another tree. -/
def FileTree.KeepsFile (tree tree' : FileTree) (here : Location) (path : String) : Prop :=
  ∀ content mode, tree.stat here path = .ok (.file content mode) → tree'.stat here path = .ok (.file content mode)

namespace CommandLine

/-! ## Turns -/

/-- A command line: the world that it was run in, its words, its exit code, and the world that it left. -/
structure Turn where
  before : World
  words : List String
  code : UInt8
  after : World

namespace Turn

/-- What a command line asks for. -/
def invocation (t : Turn) : Except Stop Invocation := asked t.words t.before

/-- A command line came to what the program comes to. -/
def Ran (cipher : FileCipher) (t : Turn) : Prop := ran cipher t.words t.before = (t.code, t.after)

/-- A command line was run where others were, under the same settings, did not replace the key by force, and no output of a key file was
pointed at the key file or the identity file. -/
structure Fits (settings : Settings) (start : World) (t : Turn) : Prop where
  site : start.SharesSite t.before
  inEffect : ∀ i, t.invocation = .ok i → settingsInEffect i t.before = .ok settings
  unforced : ∀ i, t.invocation = .ok i → i.command.isForced = false
  outputs : ∀ i output path, t.invocation = .ok i → i.command.output? = some output →
    settings.keys.keyPath? start = some path ∨ settings.keys.identity = some path → points start.here output ≠ points start.here path

/-- A command line overlooks a file that a path hides at which it makes a key or an identity. -/
def Overlooks (settings : Settings) (t : Turn) : Prop :=
  ∃ i, t.invocation = .ok i ∧ i.command.Overlooks settings.keys t.before

/-- A command line sealed a value and printed what it was sealed to. -/
def Seals (t : Turn) (value sealed : String) : Prop :=
  ∃ i argument key, t.invocation = .ok i ∧ i.command = .encrypt argument key ∧
    (outcome (readValue argument) t.before).1 = .ok value ∧ t.code = 0 ∧
    t.after.output = t.before.output ++ sealedAnswer i.asJson key sealed

/-- A command line succeeds and prints the value if it is to open what the value was sealed to, blanks around it aside. -/
def Opens (t : Turn) (sealed value : String) : Prop :=
  ∀ i argument key text, t.invocation = .ok i → i.command = .decrypt argument key →
    (outcome (readValue argument) t.before).1 = .ok text → trim text = trim sealed →
    t.code = 0 ∧ t.after.output = t.before.output ++ openedAnswer i.asJson key value

end Turn

/-- Command lines run one behind the other, each on the files that the one before it left. -/
inductive Session (cipher : FileCipher) (settings : Settings) (start : World) : FileTree → List Turn → Prop
  | nil (files : FileTree) : Session cipher settings start files []
  | cons {t : Turn} {turns : List Turn} (ran : t.Ran cipher) (fits : t.Fits settings start)
      (rest : Session cipher settings start t.after.files turns) : Session cipher settings start t.before.files (t :: turns)

/-- The key file stays from the moment that it is there, no command that only opens makes it, and what was sealed opens later. -/
structure Stable (settings : Settings) (start : World) (turns : List Turn) : Prop where
  fromStart : ∀ path, settings.keys.keyPath? start = some path →
    ∀ t ∈ turns, start.files.KeepsFile t.after.files start.here path
  fromTurn : ∀ path, settings.keys.keyPath? start = some path →
    turns.Pairwise fun t later => t.after.files.KeepsFile later.after.files start.here path
  unmade : ∀ path, settings.keys.keyPath? start = some path → ∀ t ∈ turns, ∀ i, t.invocation = .ok i → i.command.opensOnly = true →
    (∀ node, t.before.files.stat start.here path ≠ .ok node) → ∀ node, t.after.files.stat start.here path ≠ .ok node
  opened : turns.Pairwise fun t later => ∀ value sealed, t.Seals value sealed → later.Opens sealed value

/-! ## One turn -/

section

variable {cipher : FileCipher} {settings : Settings} {start : World} {t : Turn} {files : FileTree} {turns : List Turn}

theorem Turn.Fits.looksLike (hfits : t.Fits settings start) : World.LooksLike { start with files := t.before.files } t.before :=
  ⟨rfl, hfits.site.here, hfits.site.environment, hfits.site.fallbackHome⟩

/-- What a command line touches, where no output is that of a key file at the key file or the identity file. -/
theorem Turn.touches (hlawful : cipher.Lawful) (hform : cipher.isEncrypted = Age.Armor.isArmored) (hran : t.Ran cipher)
    (hfits : t.Fits settings start) (hsees : ¬t.Overlooks settings) :
    ∃ context output, context.cipher = cipher ∧ context.settings = settings ∧
      (∀ path written, settings.keys.keyPath? start = some path ∨ settings.keys.identity = some path → output = some written →
        points start.here written ≠ points start.here path) ∧
      Context.Touches context { start with files := t.before.files } output t.after.files := by
  cases hasked : t.invocation with
  | error stop =>
    have hfiles := files_of_ran_error cipher hasked
    rw [hran] at hfiles
    refine ⟨⟨settings, false, cipher, ⟨false⟩⟩, none, rfl, rfl, nofun, ?_⟩
    rw [hfiles]
    exact .grow (.refl _)
  | ok i =>
    obtain ⟨style, begun, result, ended, hbegun, hrun, hfiles, -⟩ := ran_cases hasked (hfits.inEffect i hasked) hran
    have hlook := hfits.looksLike.trans hbegun.toLooksLike
    have hseen : ¬i.command.Overlooks settings.keys begun :=
      fun hoverlooks => hsees ⟨i, hasked, hoverlooks.of_looksLike hbegun.toLooksLike⟩
    refine ⟨⟨settings, i.asJson, cipher, style⟩, i.command.output?, rfl, rfl, ?_, ?_⟩
    · intro path written hpath houtput
      exact hfits.outputs i written path hasked houtput hpath
    · rw [hfiles]
      exact (Context.touches_of_run hlawful hform (hfits.unforced i hasked) hseen hrun).of_looksLike hlook

/-- The key file stays over one command line. -/
theorem Turn.keepsFile {path : String} (hlawful : cipher.Lawful) (hform : cipher.isEncrypted = Age.Armor.isArmored)
    (hran : t.Ran cipher) (hfits : t.Fits settings start) (hsees : ¬t.Overlooks settings)
    (hpath : settings.keys.keyPath? start = some path) :
    t.before.files.KeepsFile t.after.files start.here path := by
  obtain ⟨context, output, rfl, rfl, houtput, htouches⟩ := Turn.touches hlawful hform hran hfits hsees
  intro content mode hstat
  exact htouches.stat_key hform hpath (fun written => houtput path written (Or.inl hpath)) hstat

/-- The store holds the same key over one command line. -/
theorem Turn.holds {master : MasterKey} (hlawful : cipher.Lawful) (hform : cipher.isEncrypted = Age.Armor.isArmored)
    (hran : t.Ran cipher) (hfits : t.Fits settings start) (hsees : ¬t.Overlooks settings)
    (h : KeyStore.Holds cipher settings.keys { start with files := t.before.files } master) :
    KeyStore.Holds cipher settings.keys { start with files := t.after.files } master := by
  obtain ⟨context, output, rfl, rfl, houtput, htouches⟩ := Turn.touches hlawful hform hran hfits hsees
  refine h.kept hform ⟨rfl, rfl, rfl⟩ (fun path hpath => ?_) fun path hpath => ?_
  · exact htouches.keepsText fun written => houtput path written (Or.inl hpath)
  · exact htouches.keepsText fun written => houtput path written (Or.inr hpath)

/-- What was sealed is an envelope of the key that the store holds afterwards. -/
theorem Turn.Seals.exists_holds {value sealed : String} (h : t.Seals value sealed) (hlawful : cipher.Lawful)
    (hform : cipher.isEncrypted = Age.Armor.isArmored) (hran : t.Ran cipher) (hfits : t.Fits settings start)
    (hsees : ¬t.Overlooks settings) :
    ∃ master nonce, KeyStore.Holds cipher settings.keys { start with files := t.after.files } master ∧
      sealed = Envelope.enclose (valueProtector settings master) nonce value := by
  obtain ⟨i, argument, key, hasked, hcommand, hvalue, hcode, hprinted⟩ := h
  obtain ⟨style, begun, result, ended, hbegun, hrun, -, hended⟩ := ran_cases hasked (hfits.inEffect i hasked) hran
  obtain ⟨rfl, rfl⟩ : result = .ok () ∧ t.after = ended := by
    rcases hended with ⟨hok, -, hafter⟩ | ⟨-, hfailed⟩
    · exact ⟨hok, hafter⟩
    · rw [hcode] at hfailed
      cases hfailed
  have hseesKey : SeesKey settings.keys begun := by
    intro path hpath hhides
    refine hsees ⟨i, hasked, Command.Overlooks.of_looksLike ⟨path, ?_, hhides⟩ hbegun.toLooksLike⟩
    rw [hcommand]
    exact hpath
  rw [hcommand] at hrun
  obtain ⟨found, master, nonce, hfound, hsite, hheld, houtput⟩ := Context.encrypt_ok hlawful hform hseesKey hrun
  obtain rfl : found = value := by
    rw [Context.outcome_readValue hbegun.input, hvalue] at hfound
    exact (Except.ok.inj hfound).symm
  rw [houtput, hbegun.output] at hprinted
  obtain rfl := sealedAnswer_injective (String.append_right_inj _ |>.mp hprinted)
  have hlook : t.after.LooksLike { start with files := t.after.files } := by
    have hall := (hfits.site.trans hbegun.toLooksLike.sharesSite).trans hsite
    exact ⟨rfl, hall.here.symm, hall.environment.symm, hall.fallbackHome.symm⟩
  exact ⟨master, nonce, hheld.of_looksLike hlook, rfl⟩

/-- Where the store holds a key, a value is sealed for it, and no file changes. -/
theorem Turn.seals_of_holds {master : MasterKey} {i : Invocation} {argument : Option String} {key value : String}
    (hran : t.Ran cipher) (hfits : t.Fits settings start) (hasked : t.invocation = .ok i) (hcommand : i.command = .encrypt argument key)
    (hvalue : (outcome (readValue argument) t.before).1 = .ok value)
    (h : KeyStore.Holds cipher settings.keys { start with files := t.before.files } master) :
    t.after.files = t.before.files ∧ ∃ nonce, t.Seals value (Envelope.enclose (valueProtector settings master) nonce value) := by
  obtain ⟨style, begun, result, ended, hbegun, hrun, -, hended⟩ := ran_cases hasked (hfits.inEffect i hasked) hran
  have hheld : KeyStore.Holds cipher settings.keys begun master := h.of_looksLike (hfits.looksLike.trans hbegun.toLooksLike)
  have hfound : (outcome (readValue argument) begun).1 = .ok value := (Context.outcome_readValue hbegun.input).trans hvalue
  rw [hcommand] at hrun
  obtain ⟨nonce, printed, hsealed, hfiles, houtput⟩ : ∃ nonce after,
      outcome (Context.encrypt ⟨settings, i.asJson, cipher, style⟩ argument key) begun = (.ok (), after) ∧
        after.files = begun.files ∧ after.output = begun.output ++
          sealedAnswer i.asJson key (Envelope.enclose (valueProtector settings master) nonce value) := Context.encrypt_held hheld hfound
  obtain ⟨rfl, rfl⟩ := Prod.mk.inj (hsealed.symm.trans hrun)
  rcases hended with ⟨-, hcode, rfl⟩ | ⟨⟨failure, hfail⟩, -⟩
  · refine ⟨hfiles.trans hbegun.files, nonce, i, argument, key, hasked, hcommand, hvalue, hcode, ?_⟩
    rw [houtput, hbegun.output]
  · cases hfail

/-- An envelope of the key that the store holds opens. -/
theorem Turn.opens {master : MasterKey} {nonce : Nonce} {value : String} (hran : t.Ran cipher) (hfits : t.Fits settings start)
    (h : KeyStore.Holds cipher settings.keys { start with files := t.before.files } master) :
    t.Opens (Envelope.enclose (valueProtector settings master) nonce value) value := by
  intro i argument key text hasked hcommand htext htrim
  obtain ⟨style, begun, result, ended, hbegun, hrun, -, hended⟩ := ran_cases hasked (hfits.inEffect i hasked) hran
  have hheld : KeyStore.Holds cipher settings.keys begun master := h.of_looksLike (hfits.looksLike.trans hbegun.toLooksLike)
  rw [hcommand] at hrun
  rw [← Context.outcome_readValue hbegun.input] at htext
  obtain ⟨printed, hopened, houtput⟩ : ∃ after, outcome (Context.decrypt ⟨settings, i.asJson, cipher, style⟩ argument key) begun =
      (.ok (), after) ∧ after.output = begun.output ++ openedAnswer i.asJson key value := Context.decrypt_ok hheld htext htrim
  obtain ⟨rfl, rfl⟩ := Prod.mk.inj (hopened.symm.trans hrun)
  rcases hended with ⟨-, hcode, rfl⟩ | ⟨⟨failure, hfail⟩, -⟩
  · refine ⟨hcode, ?_⟩
    rw [houtput, hbegun.output]
  · cases hfail

/-! ## Sessions, turn by turn -/

/-- A file at the path of the key file stays over a session. -/
theorem Session.keepsFile {path : String} (h : Session cipher settings start files turns) (hlawful : cipher.Lawful)
    (hform : cipher.isEncrypted = Age.Armor.isArmored) (hsees : ∀ t ∈ turns, ¬t.Overlooks settings)
    (hpath : settings.keys.keyPath? start = some path) : ∀ t ∈ turns, files.KeepsFile t.after.files start.here path := by
  induction h with
  | nil files =>
    intro t ht
    cases ht
  | cons ran fits rest ih =>
    rename_i first turns
    have hfirst := Turn.keepsFile hlawful hform ran fits (hsees first List.mem_cons_self) hpath
    intro t ht content mode hstat
    rcases List.mem_cons.mp ht with rfl | ht
    · exact hfirst content mode hstat
    · exact ih (fun t ht => hsees t (List.mem_cons_of_mem _ ht)) t ht content mode (hfirst content mode hstat)

/-- A key that the store holds is held by the store before every command line of a session. -/
theorem Session.holds {master : MasterKey} (h : Session cipher settings start files turns) (hlawful : cipher.Lawful)
    (hform : cipher.isEncrypted = Age.Armor.isArmored) (hsees : ∀ t ∈ turns, ¬t.Overlooks settings)
    (hheld : KeyStore.Holds cipher settings.keys { start with files := files } master) :
    ∀ t ∈ turns, KeyStore.Holds cipher settings.keys { start with files := t.before.files } master := by
  induction h with
  | nil files =>
    intro t ht
    cases ht
  | cons ran fits rest ih =>
    rename_i first turns
    intro t ht
    rcases List.mem_cons.mp ht with rfl | ht
    · exact hheld
    · exact ih (fun t ht => hsees t (List.mem_cons_of_mem _ ht))
        (Turn.holds hlawful hform ran fits (hsees first List.mem_cons_self) hheld) t ht

/-- Each command line of a session came to what the program comes to, under the settings of the session. -/
theorem Session.ran_fits (h : Session cipher settings start files turns) :
    ∀ t ∈ turns, t.Ran cipher ∧ t.Fits settings start := by
  induction h with
  | nil files =>
    intro t ht
    cases ht
  | cons ran fits rest ih =>
    intro t ht
    rcases List.mem_cons.mp ht with rfl | ht
    · exact ⟨ran, fits⟩
    · exact ih t ht

/-- Two command lines of a session, one before the other, are related when a command line is to all that follow it. -/
theorem Session.pairwise {R : Turn → Turn → Prop} (h : Session cipher settings start files turns)
    (hsees : ∀ t ∈ turns, ¬t.Overlooks settings)
    (hR : ∀ t later, t.Ran cipher → t.Fits settings start → ¬t.Overlooks settings →
      Session cipher settings start t.after.files later → (∀ t ∈ later, ¬t.Overlooks settings) → ∀ next ∈ later, R t next) :
    turns.Pairwise R := by
  induction h with
  | nil files => exact .nil
  | cons ran fits rest ih =>
    rename_i first turns
    have hrest : ∀ t ∈ turns, ¬t.Overlooks settings := fun t ht => hsees t (List.mem_cons_of_mem _ ht)
    exact .cons (hR first turns ran fits (hsees first List.mem_cons_self) rest hrest) (ih hrest)

/-- A session in which no path hides a file at which a key or an identity is made is stable: the key file stays, is made by no command
that only opens, and what was sealed opens. -/
theorem stable_of_session (hlawful : cipher.Lawful) (hform : cipher.isEncrypted = Age.Armor.isArmored)
    (h : Session cipher settings start start.files turns) (hsees : ∀ t ∈ turns, ¬t.Overlooks settings) :
    Stable settings start turns where
  fromStart := by
    intro path hpath
    exact h.keepsFile hlawful hform hsees hpath
  fromTurn := by
    intro path hpath
    exact h.pairwise hsees fun t later _ _ _ hlater hsees => hlater.keepsFile hlawful hform hsees hpath
  unmade := by
    intro path hpath t ht i hasked hopens hnone
    obtain ⟨hran, hfits⟩ := h.ran_fits t ht
    obtain ⟨style, begun, result, ended, hbegun, hrun, hfiles, -⟩ := ran_cases hasked (hfits.inEffect i hasked) hran
    have hlook := hfits.looksLike.trans hbegun.toLooksLike
    have hsame : ended.files = begun.files := by
      refine Context.files_of_run_missing hform hopens (fun path' hpath' node => ?_) hrun
      rw [hlook.sharesSite.keyPath?] at hpath'
      obtain rfl : path = path' := Option.some.inj (hpath.symm.trans hpath')
      rw [hlook.files, hlook.here]
      exact hnone node
    intro node
    rw [hfiles, hsame, hlook.files]
    exact hnone node
  opened := by
    refine h.pairwise hsees fun t later hran hfits hsees hlater hall next hnext value sealed hseals => ?_
    obtain ⟨master, nonce, hheld, rfl⟩ := hseals.exists_holds hlawful hform hran hfits hsees
    obtain ⟨hnextRan, hnextFits⟩ := hlater.ran_fits next hnext
    exact Turn.opens hnextRan hnextFits (hlater.holds hlawful hform hall hheld next hnext)

end

/-! ## A sample -/

/-- A format that only tells for whom it was made: behind the head of an armored file stands a letter for the kind of key, and behind that
the content in base 64. -/
def openCipher : FileCipher where
  isEncrypted := Age.Armor.isArmored
  needsPassphrase text := .ok ((text.toList.drop Age.Armor.opening.length).head? == some 'p')
  randomSize _ := 0
  encrypt key _ content :=
    Age.Armor.opening ++ ((match key with | .passphrase _ => "p" | .identity _ => "i") ++ Base64.standard.encode content)
  decrypt _ text :=
    (Base64.standard.decode (String.ofList (text.toList.drop (Age.Armor.opening.length + 1)))).mapError fun _ => .content

theorem openCipher_lawful : openCipher.Lawful := by
  have hbehind (text : String) : (Age.Armor.opening ++ text).toList.drop Age.Armor.opening.length = text.toList := by
    rw [String.toList_append, List.drop_left' String.length_toList]
  refine ⟨?_, ?_, ?_, ?_⟩
  · intro key random content _
    have hdecrypt : openCipher.decrypt key (openCipher.encrypt key random content) =
        (Base64.standard.decode (Base64.standard.encode content)).mapError fun _ => .content := by
      unfold openCipher
      dsimp only
      rw [← List.drop_drop, hbehind, String.toList_append, List.drop_left', String.ofList_toList]
      cases key with
      | passphrase text => exact (by decide : "p".toList.length = 1)
      | identity identity => exact (by decide : "i".toList.length = 1)
    rw [hdecrypt, Base64.Variant.decode_encode Base64.isLawful_standard]
    rfl
  · intro key random content
    unfold openCipher Age.Armor.isArmored
    dsimp only
    rw [String.toList_append, trimStart, dropWhile_isBlank_eq_self, List.isPrefixOf_iff_prefix]
    · exact List.prefix_append _ _
    · intro c hc
      obtain rfl : '-' = c := Option.some.inj hc
      decide
  · intro text random content _
    unfold openCipher
    dsimp only
    rw [hbehind, String.toList_append]
    rfl
  · intro identity random content _
    unfold openCipher
    dsimp only
    rw [hbehind, String.toList_append]
    rfl

/-- A master key of zeros. -/
def zeroKey : MasterKey := ⟨Vector.replicate 32 0⟩

/-- A world with a bare key file and nothing else. -/
def sampleHome : World where
  files := ⟨[(["work"], .directory 0o755), (["work", "keys"], .directory 0o700),
    (["work", "keys", "master.key"], .file (Bytes.ofText (zeroKey.toBase64 ++ "\n")) 0o600)]⟩
  here := ["work"]
  environment := []
  fallbackHome := none
  now := some ⟨0, 0, 0⟩
  ticks := 0
  randomness _ := 0
  drawn := 0
  input := []
  output := ""
  complaints := ""
  filter := .silent

/-- The default settings with the keys kept beside the document. -/
def sampleSettings : Settings := { keys := { dir := some "keys" } }

/-- A command line run in a world. -/
def turnOf (w : World) (words : List String) : Turn := ⟨w, words, (ran openCipher words w).1, (ran openCipher words w).2⟩

theorem turnOf_ran (w : World) (words : List String) : (turnOf w words).Ran openCipher := rfl

/-- A value given as an argument, to be sealed. -/
def sampleEncrypt : Turn := turnOf sampleHome ["--key-dir", "keys", "encrypt", "hello"]

/-- An envelope given on standard input, to be opened. -/
def sampleDecrypt (sealed : String) : Turn :=
  turnOf { sampleHome with input := Bytes.ofText sealed } ["--key-dir", "keys", "decrypt"]

theorem asked_sampleHome (words : List String) (input : Bytes) :
    asked words { sampleHome with input := input } = Invocation.ofWords words none none := rfl

theorem sampleEncrypt_asked :
    sampleEncrypt.invocation = .ok ⟨.encrypt (some "hello") "value", false, none, some "keys", false⟩ := by
  have hwords : Invocation.ofWords ["--key-dir", "keys", "encrypt", "hello"] none none =
      .ok ⟨.encrypt (some "hello") "value", false, none, some "keys", false⟩ := by cbv
  exact (asked_sampleHome _ []).trans hwords

theorem sampleDecrypt_asked (sealed : String) :
    (sampleDecrypt sealed).invocation = .ok ⟨.decrypt none "value", false, none, some "keys", false⟩ := by
  have hwords : Invocation.ofWords ["--key-dir", "keys", "decrypt"] none none =
      .ok ⟨.decrypt none "value", false, none, some "keys", false⟩ := by cbv
  exact (asked_sampleHome _ (Bytes.ofText sealed)).trans hwords

/-- Where the bare key file stands the key of zeros is held. -/
theorem zeroKey_holds {w : World} {mode : Nat}
    (hfile : w.files.stat w.here "keys/master.key" = .ok (.file (Bytes.ofText (zeroKey.toBase64 ++ "\n")) mode)) :
    KeyStore.Holds openCipher sampleSettings.keys w zeroKey := by
  refine ⟨⟨"keys", .bare, openCipher⟩, ofSettings_eq_ok_iff.mpr ⟨"keys", .bare, rfl, rfl, rfl⟩, ?_⟩
  refine KeyStore.loadMaster_eq_ok_iff.mpr ⟨zeroKey.toBase64 ++ "\n", mode, hfile, ?_⟩
  refine KeyStore.unwrap_eq_ok_iff.mpr ⟨?_, none, rfl, zeroKey.ofBase64_line⟩
  have hbare : openCipher.isEncrypted (zeroKey.toBase64 ++ "\n") = false := isArmored_toBase64 zeroKey
  unfold KeyStore.detect
  rw [hbare]
  rfl

theorem sampleHome_holds : KeyStore.Holds openCipher sampleSettings.keys sampleHome zeroKey := zeroKey_holds rfl

/-- A command line that was run in the sample world, whatever the input, under the settings of the sample. -/
theorem turnOf_fits {words : List String} {input : Bytes} {i : Invocation}
    (hasked : Invocation.ofWords words none none = .ok i) (hin : settingsInEffect i { sampleHome with input := input } = .ok sampleSettings)
    (hforce : i.command.isForced = false) (houtput : i.command.output? = none) :
    (turnOf { sampleHome with input := input } words).Fits sampleSettings sampleHome := by
  have hsame {other : Invocation} (h : (turnOf { sampleHome with input := input } words).invocation = .ok other) : other = i :=
    Except.ok.inj (h.symm.trans hasked)
  refine ⟨⟨rfl, rfl, rfl⟩, ?_, ?_, ?_⟩
  · intro other h
    rw [hsame h]
    exact hin
  · intro other h
    rw [hsame h]
    exact hforce
  · intro other output path h hother
    rw [hsame h, houtput] at hother
    cases hother

/-- A value that was sealed with the key that is there opens in the next command line, which is given the envelope on standard input. -/
theorem stable_of_session_sample :
    ∃ sealed, sampleEncrypt.Seals "hello" sealed ∧
      Session openCipher sampleSettings sampleHome sampleHome.files [sampleEncrypt, sampleDecrypt sealed] ∧
      (sampleDecrypt sealed).code = 0 ∧ (sampleDecrypt sealed).after.output = "hello\n" := by
  have hencrypt : sampleEncrypt.Fits sampleSettings sampleHome := turnOf_fits sampleEncrypt_asked rfl rfl rfl
  have hran : sampleEncrypt.Ran openCipher := turnOf_ran _ _
  obtain ⟨hfiles, nonce, hseals⟩ := Turn.seals_of_holds hran hencrypt sampleEncrypt_asked rfl rfl sampleHome_holds
  have hblank : ∀ c ∈ (Envelope.enclose (valueProtector sampleSettings zeroKey) nonce "hello").toList, isBlank c = false :=
    fun c hc => Envelope.isBlank_of_mem_enclose _ nonce hc
  generalize Envelope.enclose (valueProtector sampleSettings zeroKey) nonce "hello" = sealed at hseals hblank
  have hdecrypt : (sampleDecrypt sealed).Fits sampleSettings sampleHome := turnOf_fits (sampleDecrypt_asked sealed) rfl rfl rfl
  have hsession : Session openCipher sampleSettings sampleHome sampleHome.files [sampleEncrypt, sampleDecrypt sealed] := by
    have hrest : Session openCipher sampleSettings sampleHome sampleEncrypt.after.files [sampleDecrypt sealed] := by
      rw [hfiles]
      exact Session.cons (turnOf_ran _ _) hdecrypt (Session.nil _)
    exact Session.cons hran hencrypt hrest
  have hsees : ∀ t ∈ [sampleEncrypt, sampleDecrypt sealed], ¬t.Overlooks sampleSettings := by
    rintro t ht ⟨i, hasked, path, hmakes, hhides, -⟩
    rcases List.mem_pair.mp ht with rfl | rfl
    · obtain rfl := Except.ok.inj (sampleEncrypt_asked.symm.trans hasked)
      obtain rfl : "keys/master.key" = path := Option.some.inj hmakes
      cases hhides
    · obtain rfl := Except.ok.inj ((sampleDecrypt_asked sealed).symm.trans hasked)
      exact hmakes
  have hpairs := (stable_of_session openCipher_lawful rfl hsession hsees).opened
  have hopens := (List.pairwise_cons.mp hpairs).1 _ List.mem_cons_self "hello" sealed hseals
  obtain ⟨hcode, houtput⟩ := hopens _ _ _ sealed (sampleDecrypt_asked sealed) rfl (Context.outcome_readValue_input rfl hblank) rfl
  exact ⟨sealed, hseals, hsession, hcode, houtput⟩

/-- A new identity at a path that goes through a directory that is not there and comes back to the key file. -/
def sampleHidden : Turn := turnOf sampleHome ["--key-dir", "keys", "init", "--identity", "nodir/../keys/master.key"]

/-- The tree of the sample with the missing directory. -/
def widenedTree : FileTree := sampleHome.files.set ["work", "nodir"] (.directory FileTree.directoryMode)

/-- The tree of the sample with the missing directory and another key file. -/
def overwrittenTree (content : Bytes) : FileTree := widenedTree.set ["work", "keys", "master.key"] (.file content FileTree.privateMode)

theorem stat_overwrittenTree (content : Bytes) :
    (overwrittenTree content).stat ["work"] "keys/master.key" = .ok (.file content FileTree.privateMode) := rfl

theorem sampleHidden_asked : sampleHidden.invocation =
    .ok ⟨.init none (some "nodir/../keys/master.key") false, false, none, some "keys", false⟩ := by
  have hwords : Invocation.ofWords ["--key-dir", "keys", "init", "--identity", "nodir/../keys/master.key"] none none =
      .ok ⟨.init none (some "nodir/../keys/master.key") false, false, none, some "keys", false⟩ := by decide +kernel
  exact (asked_sampleHome _ []).trans hwords

theorem head?_identityText (moment : Moment) (identity : Age.Identity) :
    (identityText moment identity).toList.head? = some '#' := by
  have hopening : (toString "# created: ").toList.head? = some '#' := rfl
  unfold identityText
  simp [String.toList_append, List.head?_append, hopening]

/-- The identity that is made there takes the place of the key file. -/
theorem files_of_sampleHidden : ∃ text, text.toList.head? = some '#' ∧
    sampleHidden.after.files = overwrittenTree (Bytes.ofText text) := by
  have hran : sampleHidden.Ran openCipher := turnOf_ran _ _
  have hsettings : settingsInEffect ⟨.init none (some "nodir/../keys/master.key") false, false, none, some "keys", false⟩
      sampleHidden.before = .ok sampleSettings := by rfl
  obtain ⟨style, begun, result, ended, hbegun, hrun, hfiles, -⟩ := ran_cases sampleHidden_asked hsettings hran
  have hbegunFiles : begun.files = sampleHome.files := hbegun.files
  have hbegunHere : begun.here = ["work"] := hbegun.here
  have hgrown : begun.files.createDirectories begun.here ("nodir/../keys".length + 1) "nodir/../keys" = .ok widenedTree := by
    rw [hbegunFiles, hbegunHere]
    rfl
  have hwrite (content : Bytes) : widenedTree.writePrivate begun.here "nodir/../keys/master.key" content =
      .ok (overwrittenTree content) := by
    rw [hbegunHere]
    rfl
  obtain ⟨made, hmade, hlook⟩ := generateIdentity_ok hbegun.now rfl hgrown (hwrite _)
  refine ⟨identityText ⟨0, 0, 0⟩ ⟨begun.draw 32⟩, head?_identityText _ _, ?_⟩
  have hnone : begun.stat? "nodir/../keys/master.key" = none := by
    rw [World.stat?, hbegunFiles, hbegunHere]
    rfl
  have hvalid : Settings.validate { sampleSettings with keys := chosen sampleSettings.keys none (some "nodir/../keys/master.key") } =
      .ok () := by rfl
  rcases Context.init_cases hrun with ⟨⟨fault, hfault⟩, -⟩ | ⟨-, identified, provided, hprovided, hrest⟩
  · cases hfault.symm.trans hvalid
  have hprotection : (chosen sampleSettings.keys none (some "nodir/../keys/master.key")).protection = .identity := rfl
  obtain ⟨provided', hidentified, hsame⟩ :=
    provideIdentity_ok ⟨sampleSettings, false, openCipher, style⟩ hprotection rfl hnone hmade
  obtain ⟨rfl, rfl⟩ := Prod.mk.inj (hidentified.symm.trans hprovided)
  rcases hrest with heq | ⟨dir, wrap, told, last, master, hdir, htold, hcreate, heq, -⟩
  · rw [hfiles, heq, hsame.files, hlook.files]
  · obtain rfl : "keys" = dir := Option.some.inj hdir
    rcases KeyStore.createMaster_cases hcreate with ⟨-, rfl⟩ | ⟨hnew, -⟩
    · rw [hfiles, heq, htold.files, hsame.files, hlook.files]
    · refine absurd ?_ (hnew rfl (.file (Bytes.ofText (identityText ⟨0, 0, 0⟩ ⟨begun.draw 32⟩)) FileTree.privateMode))
      rw [htold.files, hsame.files, hlook.files, htold.here, hsame.here, hlook.here]
      have hpath : (KeyStore.mk "keys" wrap openCipher).keyPath = "keys/master.key" :=
        (by decide : FilePath.join "keys" KeyStore.fileName = "keys/master.key")
      rw [hbegunHere, hpath]
      exact stat_overwrittenTree _

/-- A session in which a path hides the key file at which an identity is made loses the key, though nothing is forced. -/
theorem stable_of_session_hidden :
    openCipher.Lawful ∧ openCipher.isEncrypted = Age.Armor.isArmored ∧
      Session openCipher sampleSettings sampleHome sampleHome.files [sampleHidden] ∧ ¬Stable sampleSettings sampleHome [sampleHidden] := by
  have hfits : sampleHidden.Fits sampleSettings sampleHome := turnOf_fits sampleHidden_asked rfl rfl rfl
  refine ⟨openCipher_lawful, rfl, Session.cons (turnOf_ran _ _) hfits (Session.nil _), fun hstable => ?_⟩
  obtain ⟨text, hhead, hfiles⟩ := files_of_sampleHidden
  have hkept := hstable.fromStart "keys/master.key" rfl sampleHidden List.mem_cons_self _ _ rfl
  rw [hfiles] at hkept
  have hsame := Bytes.ofText_injective (FileNode.file.inj (Except.ok.inj ((stat_overwrittenTree _).symm.trans hkept))).1
  have hkey : (zeroKey.toBase64 ++ "\n").toList.head? = some 'A' := by cbv
  rw [hsame, hkey] at hhead
  cases hhead

end CommandLine

end SealedConfig
