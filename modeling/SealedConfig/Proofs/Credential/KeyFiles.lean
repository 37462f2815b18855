import SealedConfig.Proofs.Credential.Agreeing
import SealedConfig.Proofs.KeyStore.Holding

/-!
# Key files that are encrypted

What encrypting a key file writes is a line with the envelope of the file's text, and this line is taken for protected and opens to the
text, by whichever way it is read: whoever decrypts the file gets the text back as it was, blanks and line ends included, and so does a
resolver that opens key files. When a key file cannot be read, is encrypted already or does not open, nothing is written.
-/

namespace SealedConfig

open Run FileTree

namespace KeyFile

/-- What encrypting a key file writes: a line with the envelope of its text. -/
def line (p : Protector) (nonce : Nonce) (text : String) : String := Envelope.enclose p nonce text ++ "\n"

variable {p : Protector} {nonce : Nonce} {text content input output : String} {w after : World}

/-! ## The line -/

@[simp] theorem trim_line (p : Protector) (nonce : Nonce) (text : String) : trim (line p nonce text) = Envelope.enclose p nonce text :=
  SealedConfig.trim_line fun _ hc => Envelope.isBlank_of_mem_enclose p nonce hc

/-- The line opens to the text; that of the empty text is blank, and a blank content opens to the empty text. -/
theorem disclose_line (p : Protector) (nonce : Nonce) (text : String) : disclose p (line p nonce text) = .ok text := by
  rw [disclose, trim_line]
  by_cases hempty : text = ""
  · subst hempty
    rfl
  · rw [if_pos (Envelope.isMarked_enclose p nonce hempty), Envelope.disclose_enclose]

/-- The line looks protected, that of the empty text too. -/
theorem looksProtected_line (p : Protector) (nonce : Nonce) (text : String) : looksProtected (line p nonce text) = true := by
  rw [looksProtected, trim_line]
  by_cases hempty : text = ""
  · subst hempty
    rfl
  · rw [Envelope.isMarked_enclose p nonce hempty, Bool.true_or]

/-! ## Encrypting and decrypting -/

theorem outcome_read (path : String) (w : World) :
    outcome (read path) w = ((w.files.readText w.here path).mapError fun fault => .credential (.unreadable what path fault), w) := by
  rw [read, outcome_attempt, readText_eq]

theorem outcome_read_ok (hread : w.files.readText w.here input = .ok text) : outcome (read input) w = (.ok text, w) := by
  rw [outcome_read, hread]
  rfl

/-- What is written and told of is written. -/
theorem outcome_write {bytes : Bytes} {written : FileTree} (hwritten : w.files.writePrivate w.here output bytes = .ok written)
    {told : Run (StateM World) Unit} (ht : Tells told) :
    ∃ after, outcome (do
      attempt .file (Host.writePrivate output bytes)
      told) w = (.ok (), after) ∧ w.Changes written after := by
  obtain ⟨event, ht⟩ := ht
  have hwrite : outcome (attempt .file (Host.writePrivate output bytes)) w = (.ok (), { w with files := written }) := by
    rw [outcome_writePrivate, hwritten]
    rfl
  rw [outcome_bind_ok hwrite, ht]
  exact ⟨_, rfl, (World.Changes.set w written).trans (World.agrees_tell _ event)⟩

/-- Encrypting a key file that is not encrypted yet writes the line of its text. -/
theorem encrypt_succeeds (p : Protector) (hread : w.files.readText w.here input = .ok text)
    (hplain : Envelope.isMarked (trim text) = false) (hout : w.files.TakesFile w.here output) :
    ∃ nonce written after, w.files.writePrivate w.here output (Bytes.ofText (line p nonce text)) = .ok written ∧
      outcome (encrypt p input output) w = (.ok (), after) ∧ w.Changes written after := by
  obtain ⟨nonce, enclosed, henclose, hagree⟩ := Bulk.outcome_enclose p text w
  obtain ⟨written, hwritten⟩ := hout.exists_written (Bytes.ofText (line p nonce text))
  have hwritten' : enclosed.files.writePrivate enclosed.here output (Bytes.ofText (line p nonce text)) = .ok written := by
    rw [hagree.files, hagree.here, hwritten]
  obtain ⟨after, hwrite, hafter⟩ := outcome_write hwritten' (tells_inform "encrypted key file"
    [Log.plain "input" input, Log.plain "output" output])
  refine ⟨nonce, written, after, hwritten, ?_, hagree.change hafter⟩
  rw [encrypt, outcome_bind_ok (outcome_read_ok hread), hplain, if_neg Bool.false_ne_true, outcome_bind_ok henclose]
  exact hwrite

/-- Decrypting a key file that opens writes what it opens to. -/
theorem decrypt_succeeds (hread : w.files.readText w.here input = .ok content) (hopen : disclose p content = .ok text)
    (hout : w.files.TakesFile w.here output) :
    ∃ written after, w.files.writePrivate w.here output (Bytes.ofText text) = .ok written ∧
      outcome (decrypt p input output) w = (.ok (), after) ∧ w.Changes written after := by
  obtain ⟨written, hwritten⟩ := hout.exists_written (Bytes.ofText text)
  obtain ⟨after, hwrite, hafter⟩ := outcome_write hwritten (tells_inform "decrypted key file"
    [Log.plain "input" input, Log.plain "output" output])
  refine ⟨written, after, hwritten, ?_, hafter⟩
  rw [decrypt, outcome_bind_ok (outcome_read_ok hread), hopen]
  exact hwrite

/-! ## What becomes of a key file -/

/-- A file at a path gives back a text: decrypting writes it as it is, and a resolver that opens key files under the provider finds it
when it comes upon the file first. -/
structure GivesBack (provider : Provider) (text path : String) (w : World) : Prop where
  decrypted : ∀ target, w.files.TakesFile w.here target →
    ∃ after, outcome (decrypt (provider.protector Protector.keyFiles) path target) w = (.ok (), after) ∧
      after.files.stat after.here target = .ok (.file (Bytes.ofText text) privateMode)
  found : ∀ (resolver : Resolver) (kind : CredentialKind), resolver.provider = some provider →
    resolver.settings.encryptKeyFiles = true → resolver.NamesFile kind w path →
      (outcome (resolver.find kind) w).1 = .ok ⟨kind, .encryptedFile path, text⟩

/-- Encrypting and decrypting that fail before they write leave all as it was. -/
structure FailsUntouched (p : Protector) (input output : String) (w : World) : Prop where
  unreadable : ∀ fault, w.files.readText w.here input = .error fault →
    outcome (encrypt p input output) w = (.error (.credential (.unreadable what input fault)), w) ∧
      outcome (decrypt p input output) w = (.error (.credential (.unreadable what input fault)), w)
  marked : ∀ text, w.files.readText w.here input = .ok text → Envelope.isMarked (trim text) = true →
    outcome (encrypt p input output) w = (.error (.alreadyEncrypted input), w)
  closed : ∀ content fault, w.files.readText w.here input = .ok content → disclose p content = .error fault →
    outcome (decrypt p input output) w = (.error (.credential (.undecipherable what input (.envelope fault))), w)

theorem failsUntouched (p : Protector) (input output : String) (w : World) : FailsUntouched p input output w where
  unreadable := by
    intro fault hread
    have hfails : outcome (read input) w = (.error (.credential (.unreadable what input fault)), w) := by
      rw [outcome_read, hread]
      rfl
    constructor
    · rw [encrypt, outcome_bind, hfails]
    · rw [decrypt, outcome_bind, hfails]
  marked := by
    intro text hread hmarked
    rw [encrypt, outcome_bind_ok (outcome_read_ok hread), if_pos hmarked]
    rfl
  closed := by
    intro content fault hread hopen
    rw [decrypt, outcome_bind_ok (outcome_read_ok hread), hopen]
    rfl

/-- The line of a text gives back the text. -/
theorem givesBack_of_line (provider : Provider) {path : String} {mode : Nat}
    (hs : w.files.stat w.here path =
      .ok (.file (Bytes.ofText (line (provider.protector Protector.keyFiles) nonce text)) mode)) :
    GivesBack provider text path w where
  decrypted := by
    intro target htarget
    obtain ⟨written, after, hwritten, hrun, hafter⟩ :=
      decrypt_succeeds (readText_eq_ok_iff.mpr ⟨mode, hs⟩) (disclose_line _ nonce text) htarget
    refine ⟨after, hrun, ?_⟩
    rw [hafter.files, hafter.here]
    exact stat_of_writePrivate hwritten
  found := by
    intro resolver kind hprovider hset hnames
    have hopen : resolver.openFile (line (provider.protector Protector.keyFiles) nonce text) = .ok text := by
      rw [Resolver.openFile, Resolver.protector, hprovider]
      dsimp only
      rw [disclose_line]
      rfl
    rw [hnames.find_eq (readText_eq_ok_iff.mpr ⟨mode, hs⟩), Resolver.Hit.credential, hset, hprovider, looksProtected_line, hopen]
    rfl

/-- A key file survives its encryption, wherever that is written to: in whatever world what was written still stands, it gives back the
text that was encrypted, whatever text this was that is no envelope. What fails before it writes leaves all as it was. -/
theorem encrypt_survives (provider : Provider) (input output : String) (w : World) :
    (∀ text, w.files.readText w.here input = .ok text → Envelope.isMarked (trim text) = false → w.files.TakesFile w.here output →
      ∃ nonce after, outcome (encrypt (provider.protector Protector.keyFiles) input output) w = (.ok (), after) ∧
        after.files.stat after.here output =
          .ok (.file (Bytes.ofText (line (provider.protector Protector.keyFiles) nonce text)) privateMode) ∧
        ∀ (later : World) (mode : Nat), later.files.stat later.here output =
            .ok (.file (Bytes.ofText (line (provider.protector Protector.keyFiles) nonce text)) mode) →
          GivesBack provider text output later) ∧
      FailsUntouched (provider.protector Protector.keyFiles) input output w := by
  refine ⟨fun text hread hplain hout => ?_, failsUntouched _ input output w⟩
  obtain ⟨nonce, written, after, hwritten, hrun, hafter⟩ :=
    encrypt_succeeds (provider.protector Protector.keyFiles) hread hplain hout
  refine ⟨nonce, after, hrun, ?_, fun later mode hs => givesBack_of_line provider hs⟩
  rw [hafter.files, hafter.here]
  exact stat_of_writePrivate hwritten

/-- A key file that is encrypted in its place is found there, and decrypting it in its place restores it. -/
theorem encrypt_survives_mounted :
    ∃ after last, outcome (encrypt (Bulk.sampleProvider.protector Protector.keyFiles) "k.pem" "k.pem") Bulk.mountedWorld =
        (.ok (), after) ∧
      (outcome (Resolver.namesKey.find .privateKey) after).1 = .ok ⟨.privateKey, .encryptedFile "k.pem", Bulk.mountedKey⟩ ∧
      outcome (decrypt (Bulk.sampleProvider.protector Protector.keyFiles) "k.pem" "k.pem") after = (.ok (), last) ∧
      last.files.stat last.here "k.pem" = .ok (.file (Bytes.ofText Bulk.mountedKey) privateMode) := by
  have hstands : Bulk.mountedWorld.files.stat Bulk.mountedWorld.here "k.pem" = .ok (.file (Bytes.ofText Bulk.mountedKey) 0o600) := rfl
  obtain ⟨hencrypt, -⟩ := encrypt_survives Bulk.sampleProvider "k.pem" "k.pem" Bulk.mountedWorld
  obtain ⟨nonce, after, hrun, hs, hgives⟩ :=
    hencrypt Bulk.mountedKey (readText_eq_ok_iff.mpr ⟨_, hstands⟩) (by decide) (takesFile_of_stat hstands)
  have hback := hgives after privateMode hs
  obtain ⟨last, hdecrypt, hlast⟩ := hback.decrypted "k.pem" (takesFile_of_stat hs)
  exact ⟨after, last, hrun, hback.found Resolver.namesKey .privateKey rfl rfl ⟨rfl, rfl, _, rfl, rfl⟩, hdecrypt, hlast⟩

end KeyFile

end SealedConfig
