import SealedConfig.CommandLine.Program
import SealedConfig.Proofs.CommandLine.Protecting

/-!
# What a command can do to the files

A command lets the files grow at most, until it holds the master key: then it may update a document, or write the output of a key
file. So the key file stays, which is never a document with secrets, and so does every identity file, unless the output of a key file
is pointed at them.
-/

namespace SealedConfig.CommandLine

open Run FileTree

/-! ## Commands and their paths -/

namespace Command

/-- The path that a command on key files writes to. -/
def output? : Command → Option String
  | .encryptKeyFile _ output => some output
  | .decryptKeyFile _ output => some output
  | _ => none

/-- A command makes a file at a path if none is found there: that of the master key, or of an identity. -/
def Makes (keys : KeySettings) (w : World) (path : String) : Command → Prop
  | .init protection identity _ =>
    keys.keyPath? w = some path ∨
      (chosen keys protection identity).protection = .identity ∧ (chosen keys protection identity).identity = some path
  | .encrypt _ _ => keys.keyPath? w = some path
  | .encryptFile _ => keys.keyPath? w = some path
  | .encryptKeyFile _ _ => keys.keyPath? w = some path
  | _ => False

/-- A command overlooks a file that a path hides at which it makes one. -/
def Overlooks (keys : KeySettings) (w : World) (command : Command) : Prop :=
  ∃ path, command.Makes keys w path ∧ w.files.Hides w.here path

/-- A command overlooks nothing more in a world that looks the same. -/
theorem Overlooks.of_looksLike {keys : KeySettings} {w other : World} {command : Command} (h : command.Overlooks keys other)
    (hw : w.LooksLike other) : command.Overlooks keys w := by
  obtain ⟨path, hmakes, hhides⟩ := h
  rw [hw.files, hw.here] at hhides
  refine ⟨path, ?_, hhides⟩
  unfold Makes at hmakes ⊢
  rw [hw.sharesSite.keyPath?] at hmakes
  exact hmakes

/-- Whether a command needs no more than to open what is sealed, or not even that. -/
def opensOnly : Command → Bool
  | .init _ _ _ => false
  | .encrypt _ _ => false
  | .encryptFile _ => false
  | .encryptKeyFile _ _ => false
  | _ => true

/-- Whether a command replaces the master key by force. -/
def isForced : Command → Bool
  | .init _ _ force => force
  | _ => false

end Command

/-! ## What is touched -/

namespace Context

variable {context : Context} {w after : World} {path : String} {command : Command} {result : Except Failure Unit}

/-- A run lets the files grow, or, once the key is held, updates a document or writes the output of a key file. -/
inductive Touches (context : Context) (w : World) (output : Option String) (files : FileTree) : Prop
  | grow (grows : w.files.Grows files)
  | update {key : MasterKey} {middle updated : World} {p : Protector} {operation : Operation} {confirmed : Bool}
      {cancelAfter : Option Nat} {document : String} {result : Except Failure Report} (enlarged : w.Enlarged middle)
      (holds : KeyStore.Holds context.cipher context.settings.keys middle key)
      (run : outcome (Bulk.update p operation confirmed cancelAfter document) middle = (result, updated))
      (eq : files = updated.files)
  | write {key : MasterKey} {middle : World} {path : String} {content : Bytes} (enlarged : w.Enlarged middle)
      (holds : KeyStore.Holds context.cipher context.settings.keys middle key) (names : output = some path)
      (written : middle.files.writePrivate middle.here path content = .ok files)

/-- A run touches in a world what it touches in one that looks the same. -/
theorem Touches.of_looksLike {other : World} {output : Option String} {files : FileTree} (h : Touches context other output files)
    (hw : w.LooksLike other) : Touches context w output files := by
  cases h with
  | grow grows =>
    rw [hw.files] at grows
    exact .grow grows
  | update henlarged holds run eq => exact .update (hw.enlarged.trans henlarged) holds run eq
  | write henlarged holds names written => exact .write (hw.enlarged.trans henlarged) holds names written

theorem spares_printCompletions (shell : String) : Spares (outcome (printCompletions shell)) := fun _ => rfl

/-- A run that spares the files touches none. -/
theorem touches_of_spares {output : Option String} {x : Run (StateM World) Unit} (hx : Spares (outcome x))
    (h : outcome x w = (result, after)) : Touches context w output after.files := by
  have hfiles : after.files = w.files := by rw [← hx w, h]
  rw [hfiles]
  exact .grow (.refl _)

/-- A run with a key that is made if there is none touches what it touches once the key is held. -/
theorem touches_of_protectorOrNew {rest : Protector → Run (StateM World) Unit} {purpose : String} {output : Option String}
    (hlawful : context.cipher.Lawful) (hform : context.cipher.isEncrypted = Age.Armor.isArmored)
    (hsees : SeesKey context.settings.keys w)
    (h : outcome (context.protectorOrNew purpose >>= rest) w = (result, after))
    (hrest : ∀ (key : MasterKey) (middle : World) (p : Protector), w.Enlarged middle →
      KeyStore.Holds context.cipher context.settings.keys middle key → outcome (rest p) middle = (result, after) →
      Touches context w output after.files) : Touches context w output after.files := by
  rcases cases_of_bind h with ⟨failure, hfail, -⟩ | ⟨p, middle, hp, h⟩
  · exact .grow (protectorOrNew_cases hlawful hform hsees hfail).1.files
  · obtain ⟨hgrown, hheld⟩ := protectorOrNew_cases hlawful hform hsees hp
    obtain ⟨key, hkey, -⟩ := hheld p rfl
    exact hrest key middle p hgrown.toEnlarged hkey h

/-- A run with the key that there is touches what it touches once the key is held. -/
theorem touches_of_protector {looked : World} {rest : Protector → Run (StateM World) Unit} {purpose : String}
    {output : Option String} (hlooked : w.LooksLike looked)
    (h : outcome (context.protector purpose >>= rest) looked = (result, after))
    (hrest : ∀ (key : MasterKey) (middle : World) (p : Protector), w.Enlarged middle →
      KeyStore.Holds context.cipher context.settings.keys middle key → outcome (rest p) middle = (result, after) →
      Touches context w output after.files) : Touches context w output after.files := by
  have hread := (context.reads_protector purpose).undisturbed looked
  rcases cases_of_bind h with ⟨failure, hfail, -⟩ | ⟨p, middle, hp, h⟩
  · rw [hfail] at hread
    exact .grow (hlooked.trans hread.toLooksLike).enlarged.files
  · rw [hp] at hread
    obtain ⟨key, hkey, -⟩ := protector_eq_ok_iff.mp (congrArg Prod.fst hp)
    exact hrest key middle p (hlooked.trans hread.toLooksLike).enlarged (hkey.of_looksLike hread.toLooksLike) h

/-- An update, once the key is held, whose report is answered. -/
theorem touches_of_update {middle : World} {key : MasterKey} {p : Protector} {operation : Operation} {confirmed : Bool}
    {document : String} {output : Option String} {advice : Run (StateM World) Unit} (hmiddle : w.Enlarged middle)
    (hkey : KeyStore.Holds context.cipher context.settings.keys middle key) (hadvice : Spares (outcome advice))
    (h : outcome (do
      let report ← Bulk.update p operation confirmed none document
      context.answerReport report advice) middle = (result, after)) : Touches context w output after.files := by
  rcases cases_of_bind h with ⟨failure, hfail, -⟩ | ⟨report, updated, hupdate, h⟩
  · exact .update hmiddle hkey hfail rfl
  · refine .update hmiddle hkey hupdate ?_
    rw [← spares_answerReport context report hadvice updated, h]

/-- The output of a key file, once the key is held, behind which something is told on the streams. -/
theorem touches_of_write {middle : World} {key : MasterKey} {path : String} {x : Run (StateM World) Unit}
    {rest : Unit → Run (StateM World) Unit} (hmiddle : w.Enlarged middle)
    (hkey : KeyStore.Holds context.cipher context.settings.keys middle key) (hrest : ∀ u, Spares (outcome (rest u)))
    (hx : ∀ {last : World} {result : Except Failure Unit}, outcome x middle = (result, last) →
      last.files = middle.files ∨ ∃ content, middle.files.writePrivate middle.here path content = .ok last.files)
    (h : outcome (x >>= rest) middle = (result, after)) : Touches context w (some path) after.files := by
  have htouched {last : World} {result : Except Failure Unit} (hlast : outcome x middle = (result, last)) :
      Touches context w (some path) last.files := by
    rcases hx hlast with heq | ⟨content, hwritten⟩
    · rw [heq]
      exact .grow hmiddle.files
    · exact .write hmiddle hkey rfl hwritten
  rcases cases_of_bind h with ⟨failure, hfail, -⟩ | ⟨u, last, hlast, h⟩
  · exact htouched hfail
  · have hfiles : after.files = last.files := by rw [← hrest u last, h]
    rw [hfiles]
    exact htouched hlast

/-! ## What a command touches -/

/-- Reading a value takes no more than the input. -/
theorem looksLike_of_readValue {argument : Option String} {read : World} {result : Except Failure String}
    (h : outcome (readValue argument) w = (result, read)) : w.LooksLike read ∧ read.output = w.output := by
  unfold readValue at h
  cases argument with
  | some value =>
    obtain ⟨-, rfl⟩ := Prod.mk.inj h
    exact ⟨.refl w, rfl⟩
  | none =>
    have hinput : outcome (attempt .file Host.input) w = (.ok w.input, { w with input := [] }) := rfl
    dsimp only at h
    rw [outcome_bind_ok hinput] at h
    split at h
    · obtain ⟨-, rfl⟩ := Prod.mk.inj h
      exact ⟨⟨rfl, rfl, rfl, rfl⟩, rfl⟩
    · obtain ⟨-, rfl⟩ := Prod.mk.inj h
      exact ⟨⟨rfl, rfl, rfl, rfl⟩, rfl⟩

/-- Sealing a value and printing what it is sealed to spares the files. -/
theorem spares_seal (p : Protector) (value key : String) : Spares (outcome (do
    let sealed ← Run.enclose p value
    Run.inform "encrypted value" [Log.plain "key" key]
    if context.asJson then printJson (Service.Sealed.mk key sealed).toJson else Run.print (sealed ++ "\n"))) := by
  have henclose : Spares (outcome (Run.enclose p value)) := fun w => (KeyFile.undisturbed_enclose p value w).files
  refine henclose.bind fun sealed => (tells_inform _ _).reads.spares.bind fun _ => ?_
  split
  · exact spares_print _
  · exact spares_print _

theorem touches_encrypt {argument : Option String} {key : String} (hlawful : context.cipher.Lawful)
    (hform : context.cipher.isEncrypted = Age.Armor.isArmored)
    (hsees : SeesKey context.settings.keys w)
    (h : outcome (context.encrypt argument key) w = (result, after)) : Touches context w none after.files := by
  unfold encrypt at h
  rcases cases_of_bind h with ⟨failure, hfail, -⟩ | ⟨value, read, hvalue, h⟩
  · exact .grow (looksLike_of_readValue hfail).1.enlarged.files
  have hread := (looksLike_of_readValue hvalue).1
  have hseesRead := hsees.of_looksLike hread
  rcases cases_of_bind h with ⟨failure, hfail, -⟩ | ⟨p, middle, hp, h⟩
  · exact .grow (hread.enlarged.trans (protectorOrNew_cases hlawful hform hseesRead hfail).1.toEnlarged).files
  · have hmiddle := hread.enlarged.trans (protectorOrNew_cases hlawful hform hseesRead hp).1.toEnlarged
    have hfiles : after.files = middle.files := by rw [← spares_seal p value key middle, h]
    rw [hfiles]
    exact .grow hmiddle.files

theorem touches_encryptFile {path : Option String} (hlawful : context.cipher.Lawful)
    (hform : context.cipher.isEncrypted = Age.Armor.isArmored)
    (hsees : SeesKey context.settings.keys w)
    (h : outcome (context.encryptFile path) w = (result, after)) : Touches context w none after.files := by
  unfold encryptFile at h
  refine touches_of_protectorOrNew hlawful hform hsees h fun key middle p hmiddle hkey h => ?_
  exact touches_of_update hmiddle hkey (spares_complain _) h

/-- Opening a document goes no further than reading it, or goes on with the key that there is. -/
theorem decryptFile_cases {path : Option String} {confirmed : Bool}
    (h : outcome (context.decryptFile path confirmed) w = (result, after)) :
    w.LooksLike after ∨ ∃ looked, w.LooksLike looked ∧ outcome (do
      let p ← context.protector Protector.configSecrets
      let report ← Bulk.update p .decrypt confirmed none (context.documentPath path)
      context.answerReport report
        (context.style.warning "secrets are now in plain text, re-encrypt before committing")) looked = (result, after) := by
  unfold decryptFile at h
  dsimp only at h
  split at h
  · have hscan : Reads (discard (Scan.load (m := StateM World) (context.documentPath path))) :=
      (reads_scan (context.documentPath path)).bind fun scan => reads_pure _
    have hread := hscan.undisturbed w
    rcases cases_of_bind h with ⟨failure, hfail, -⟩ | ⟨_, looked, hlooked, h⟩
    · rw [hfail] at hread
      exact Or.inl hread.toLooksLike
    · rw [hlooked] at hread
      exact Or.inr ⟨looked, hread.toLooksLike, h⟩
  · exact Or.inr ⟨w, .refl w, h⟩

theorem touches_decryptFile {path : Option String} {confirmed : Bool}
    (h : outcome (context.decryptFile path confirmed) w = (result, after)) : Touches context w none after.files := by
  rcases decryptFile_cases h with hlook | ⟨looked, hlooked, h⟩
  · exact .grow hlook.enlarged.files
  · refine touches_of_protector hlooked h fun key middle p hmiddle hkey h => ?_
    exact touches_of_update hmiddle hkey (spares_complain _) h

theorem touches_encryptKeyFile {input output : String} (hlawful : context.cipher.Lawful)
    (hform : context.cipher.isEncrypted = Age.Armor.isArmored)
    (hsees : SeesKey context.settings.keys w)
    (h : outcome (context.encryptKeyFile input output) w = (result, after)) : Touches context w (some output) after.files := by
  unfold encryptKeyFile at h
  refine touches_of_protectorOrNew hlawful hform hsees h fun key middle p hmiddle hkey h => ?_
  refine touches_of_write hmiddle hkey (fun _ => ?_) KeyFile.encrypt_cases h
  refine (spares_print _).bind fun _ => ?_
  split
  · exact spares_complain _
  · exact fun w => rfl

theorem touches_decryptKeyFile {input output : String} (h : outcome (context.decryptKeyFile input output) w = (result, after)) :
    Touches context w (some output) after.files := by
  unfold decryptKeyFile at h
  refine touches_of_protector (.refl w) h fun key middle p hmiddle hkey h => ?_
  refine touches_of_write hmiddle hkey (fun _ => ?_) KeyFile.decrypt_cases h
  exact (spares_print _).bind fun _ => spares_complain _

/-- What a command touches that is not forced and overlooks nothing. -/
theorem touches_of_run (hlawful : context.cipher.Lawful) (hform : context.cipher.isEncrypted = Age.Armor.isArmored)
    (hforce : command.isForced = false) (hsees : ¬command.Overlooks context.settings.keys w)
    (h : outcome (context.run command) w = (result, after)) : Touches context w command.output? after.files := by
  have hfree {path : String} (hmakes : command.Makes context.settings.keys w path) : ¬w.files.Hides w.here path :=
    fun hhides => hsees ⟨path, hmakes, hhides⟩
  cases command with
  | init protection identity force =>
    obtain rfl : force = false := hforce
    exact .grow (grows_of_init (fun path hpath => hfree (Or.inl hpath))
      (fun path hprotection hidentity => hfree (Or.inr ⟨hprotection, hidentity⟩)) h)
  | encrypt value key => exact touches_encrypt hlawful hform (fun path hpath => hfree hpath) h
  | decrypt value key => exact touches_of_spares (context.spares_decrypt value key) h
  | encryptFile path => exact touches_encryptFile hlawful hform (fun path hpath => hfree hpath) h
  | decryptFile path yes => exact touches_decryptFile h
  | list path => exact touches_of_spares (context.spares_list path) h
  | get key file => exact touches_of_spares (context.spares_get key file) h
  | check path => exact touches_of_spares (context.spares_check path) h
  | credential kind => exact touches_of_spares (context.spares_credential kind) h
  | encryptKeyFile input output => exact touches_encryptKeyFile hlawful hform (fun path hpath => hfree hpath) h
  | decryptKeyFile input output => exact touches_decryptKeyFile h
  | completions shell => exact touches_of_spares (spares_printCompletions shell) h

/-! ## What stays -/

/-- The key file stays, whatever is in it, unless an output is pointed at it. -/
theorem Touches.stat_key {output : Option String} {files : FileTree} (h : Touches context w output files)
    (hform : context.cipher.isEncrypted = Age.Armor.isArmored) {path : String} {content : Bytes} {mode : Nat}
    (hpath : context.settings.keys.keyPath? w = some path)
    (houtput : ∀ written, output = some written → points w.here written ≠ points w.here path)
    (hs : w.files.stat w.here path = .ok (.file content mode)) : files.stat w.here path = .ok (.file content mode) := by
  cases h with
  | grow grows => exact grows.stat_eq_ok hs
  | update henlarged holds run eq =>
    -- the key was read from the file, so its text is no document with secrets
    obtain ⟨path', text, mode', hpath', hstat, ho⟩ := holds.exists_text hform
    rw [henlarged.toSharesSite.keyPath?, hpath] at hpath'
    obtain rfl := Option.some.inj hpath'
    have hmiddle := henlarged.stat_eq_ok hs
    rw [← henlarged.here] at hmiddle ⊢
    obtain ⟨rfl, rfl⟩ := FileNode.file.inj (Except.ok.inj (hmiddle.symm.trans hstat))
    rw [eq]
    exact Bulk.stat_of_update run hstat ho
  | write henlarged holds names written =>
    have hmiddle := henlarged.stat_eq_ok hs
    rw [henlarged.here] at written
    exact stat_writePrivate_other written (houtput _ names) hmiddle

/-- A text that opens no object stays, unless an output is pointed at it. -/
theorem Touches.keepsText {output : Option String} (h : Touches context w output after.files)
    (houtput : ∀ written, output = some written → points w.here written ≠ points w.here path) : w.KeepsText after path := by
  intro text mode hs ho
  cases h with
  | grow grows => exact grows.stat_eq_ok hs
  | update henlarged holds run eq =>
    have hmiddle := henlarged.stat_eq_ok hs
    rw [← henlarged.here] at hmiddle ⊢
    rw [eq]
    exact Bulk.stat_of_update run hmiddle ho
  | write henlarged holds names written =>
    have hmiddle := henlarged.stat_eq_ok hs
    rw [henlarged.here] at written
    exact stat_writePrivate_other written (houtput _ names) hmiddle

/-- Where there is no master key, a command that needs no more than to open what is sealed changes no file, so it makes none. -/
theorem files_of_run_missing (hform : context.cipher.isEncrypted = Age.Armor.isArmored) (hopens : command.opensOnly = true)
    (hnone : ∀ path, context.settings.keys.keyPath? w = some path → ∀ node, w.files.stat w.here path ≠ .ok node)
    (h : outcome (context.run command) w = (result, after)) : after.files = w.files := by
  have hnot {looked : World} {key : MasterKey} (hlooked : w.LooksLike looked) :
      ¬KeyStore.Holds context.cipher context.settings.keys looked key := by
    intro hkey
    obtain ⟨path, text, mode, hpath, hstat, -⟩ := (hkey.of_looksLike hlooked.symm).exists_text hform
    exact hnone path hpath _ hstat
  have hprotector {looked : World} {purpose : String} {rest : Protector → Run (StateM World) Unit} (hlooked : w.LooksLike looked)
      (h : outcome (context.protector purpose >>= rest) looked = (result, after)) : after.files = w.files := by
    have hread := (context.reads_protector purpose).undisturbed looked
    rcases cases_of_bind h with ⟨failure, hfail, -⟩ | ⟨p, middle, hp, -⟩
    · rw [hfail] at hread
      exact hread.files.trans hlooked.files
    · obtain ⟨key, hkey, -⟩ := protector_eq_ok_iff.mp (congrArg Prod.fst hp)
      exact absurd hkey (hnot hlooked)
  have hspares (hx : Spares (outcome (context.run command))) : after.files = w.files := by rw [← hx w, h]
  cases command with
  | init protection identity force => cases hopens
  | encrypt value key => cases hopens
  | encryptFile path => cases hopens
  | encryptKeyFile input output => cases hopens
  | decrypt value key => exact hspares (context.spares_decrypt value key)
  | list path => exact hspares (context.spares_list path)
  | get key file => exact hspares (context.spares_get key file)
  | check path => exact hspares (context.spares_check path)
  | credential kind => exact hspares (context.spares_credential kind)
  | completions shell => exact hspares (spares_printCompletions shell)
  | decryptKeyFile input output => exact hprotector (.refl w) h
  | decryptFile path yes =>
    rcases decryptFile_cases h with hlook | ⟨looked, hlooked, h⟩
    · exact hlook.files
    · exact hprotector hlooked h

end Context

end SealedConfig.CommandLine
