import SealedConfig.Proofs.Cipher.Envelope
import SealedConfig.Proofs.CommandLine.Touching
import SealedConfig.Proofs.Json.Literal

/-!
# Sealing and opening values

What a value was sealed to is printed, and opens to the value as long as the store holds the key that sealed it.
-/

namespace SealedConfig

open Run FileTree

/-! ## Answers -/

namespace Json

/-- The literal of a text tells the text. -/
theorem literal_injective {value value' : String} (h : literal value = literal value') : value = value' := by
  rw [← Literal.text_written, ← Literal.text_written] at h
  have hread := congrArg literalValue? h
  rw [Literal.literalValue?_text, Literal.literalValue?_text] at hread
  exact Option.some.inj hread

end Json

namespace CommandLine

/-- What is printed when a value has been sealed. -/
def sealedAnswer (asJson : Bool) (key sealed : String) : String :=
  if asJson then (Service.Sealed.mk key sealed).toJson.pretty ++ "\n" else sealed ++ "\n"

/-- What is printed when a value has been opened. -/
def openedAnswer (asJson : Bool) (key plain : String) : String :=
  if asJson then (Service.Opened.mk key plain).toJson.pretty ++ "\n" else plain ++ "\n"

/-- What a value was sealed to can be told from the answer. -/
theorem sealedAnswer_injective {asJson : Bool} {key sealed sealed' : String}
    (h : sealedAnswer asJson key sealed = sealedAnswer asJson key sealed') : sealed = sealed' := by
  unfold sealedAnswer at h
  rw [← String.toList_inj] at h
  cases asJson with
  | false =>
    rw [← String.toList_inj]
    simpa using h
  | true =>
    -- all but the literal of what was sealed is the same in both answers
    refine Json.literal_injective ?_
    simpa [Service.Sealed.toJson, Json.pretty, Json.render, Json.renderMembers] using h

/-- The protector of single values under settings and a master key. -/
def valueProtector (settings : Settings) (master : MasterKey) : Protector :=
  (Provider.mk master settings.keys.application).protector Protector.configSecrets

namespace Context

variable {context : Context} {w after : World} {argument : Option String} {key : String}

theorem outcome_enclose (p : Protector) (value : String) (w : World) :
    ∃ nonce enclosed, outcome (Run.enclose p value) w = (.ok (Envelope.enclose p nonce value), enclosed) ∧ w.Undisturbed enclosed := by
  unfold Run.enclose
  by_cases hempty : value = ""
  · rw [if_pos hempty, hempty]
    exact ⟨Vector.replicate 12 0, w, rfl, .refl w⟩
  · rw [if_neg hempty]
    exact ⟨w.draw 12, { w with drawn := w.drawn + 12 }, rfl, ⟨rfl, rfl, rfl, rfl⟩, rfl, rfl, rfl⟩

/-- The value that is read depends on the argument and the input only. -/
theorem outcome_readValue {other : World} (h : other.input = w.input) :
    (outcome (readValue argument) other).1 = (outcome (readValue argument) w).1 := by
  unfold readValue
  cases argument with
  | some value => rfl
  | none =>
    have hinput (w : World) : outcome (attempt .file Host.input) w = (.ok w.input, { w with input := [] }) := rfl
    dsimp only
    rw [outcome_bind_ok (hinput other), outcome_bind_ok (hinput w), h]
    split <;> rfl

/-- A text without blanks is read from the input as it is. -/
theorem outcome_readValue_input {text : String} (hinput : w.input = Bytes.ofText text)
    (h : ∀ c ∈ text.toList, isBlank c = false) : (outcome (readValue none) w).1 = .ok text := by
  have hrun : outcome (attempt .file Host.input) w = (.ok w.input, { w with input := [] }) := rfl
  have hkept : dropLineEnds text = text := by
    unfold dropLineEnds
    have hends : (text.toList.reverse.dropWhile fun c => c == '\r' || c == '\n') = text.toList.reverse := by
      refine List.dropWhile_eq_self_iff.mpr fun hpos => ?_
      have hblank := h _ (List.mem_reverse.mp (List.getElem_mem hpos))
      intro hend
      rw [Bool.or_eq_true, beq_iff_eq, beq_iff_eq] at hend
      rcases hend with hend | hend
      · rw [hend] at hblank
        exact absurd hblank (by decide)
      · rw [hend] at hblank
        exact absurd hblank (by decide)
    rw [hends, List.reverse_reverse, String.ofList_toList]
  unfold readValue
  dsimp only
  rw [outcome_bind_ok hrun, hinput, Bytes.toText?_ofText]
  exact congrArg Except.ok hkept

/-- Printing a tree or a line, as the form of answers has it. -/
theorem outcome_answer (asJson : Bool) (tree : Json) (line : String) (w : World) :
    outcome (if asJson then printJson tree else Run.print (line ++ "\n")) w =
      (.ok (), { w with output := w.output ++ if asJson then tree.pretty ++ "\n" else line ++ "\n" }) := by
  cases asJson with
  | false => rfl
  | true => rfl

/-- A value that is sealed is printed in an envelope of the key that is held from then on. -/
theorem encrypt_ok (hlawful : context.cipher.Lawful) (hform : context.cipher.isEncrypted = Age.Armor.isArmored)
    (hsees : SeesKey context.settings.keys w)
    (h : outcome (context.encrypt argument key) w = (.ok (), after)) :
    ∃ value master nonce, (outcome (readValue argument) w).1 = .ok value ∧ w.SharesSite after ∧
      KeyStore.Holds context.cipher context.settings.keys after master ∧
      after.output = w.output ++ sealedAnswer context.asJson key (Envelope.enclose (valueProtector context.settings master) nonce value) := by
  unfold encrypt at h
  rcases cases_of_bind h with ⟨failure, -, hfail⟩ | ⟨value, read, hvalue, h⟩
  · cases hfail
  obtain ⟨hread, houtput⟩ := looksLike_of_readValue hvalue
  have hseesRead := hsees.of_looksLike hread
  rcases cases_of_bind h with ⟨failure, -, hfail⟩ | ⟨p, middle, hp, h⟩
  · cases hfail
  obtain ⟨hgrown, hheld⟩ := protectorOrNew_cases hlawful hform hseesRead hp
  obtain ⟨master, hmaster, rfl⟩ := hheld p rfl
  obtain ⟨nonce, enclosed, henclose, hundisturbed⟩ := outcome_enclose (valueProtector context.settings master) value middle
  obtain ⟨event, htells⟩ := tells_inform "encrypted value" [Log.plain "key" key]
  unfold valueProtector at henclose
  rw [outcome_bind_ok henclose, outcome_bind_ok (htells enclosed), outcome_answer] at h
  have htold : middle.Undisturbed (enclosed.tell event) := hundisturbed.trans (enclosed.undisturbed_tell event)
  obtain ⟨-, rfl⟩ := Prod.mk.inj h
  refine ⟨value, master, nonce, by rw [hvalue], ?_, hmaster.of_looksLike ⟨htold.files, htold.here, htold.environment, htold.fallbackHome⟩, ?_⟩
  · have hsite := (hread.sharesSite.trans hgrown.toSharesSite).trans htold.sharesSite
    exact ⟨hsite.here, hsite.environment, hsite.fallbackHome⟩
  · rw [← houtput, ← hgrown.output, ← htold.output]
    rfl

/-- Where a key is held a value is sealed for it, and no file changes. -/
theorem encrypt_held {master : MasterKey} {value : String}
    (hmaster : KeyStore.Holds context.cipher context.settings.keys w master)
    (hvalue : (outcome (readValue argument) w).1 = .ok value) :
    ∃ nonce after, outcome (context.encrypt argument key) w = (.ok (), after) ∧ after.files = w.files ∧
      after.output = w.output ++
        sealedAnswer context.asJson key (Envelope.enclose (valueProtector context.settings master) nonce value) := by
  rcases hread : outcome (readValue argument) w with ⟨result, read⟩
  rw [hread] at hvalue
  obtain rfl : result = .ok value := hvalue
  obtain ⟨hlook, houtput⟩ := looksLike_of_readValue hread
  obtain ⟨found, hp, hfound⟩ := protectorOrNew_held Protector.configSecrets (hmaster.of_looksLike hlook)
  obtain ⟨nonce, enclosed, henclose, hundisturbed⟩ := outcome_enclose (valueProtector context.settings master) value found
  obtain ⟨event, htells⟩ := tells_inform "encrypted value" [Log.plain "key" key]
  have htold := (hfound.trans hundisturbed).trans (enclosed.undisturbed_tell event)
  unfold valueProtector at henclose
  unfold encrypt
  rw [outcome_bind_ok hread, outcome_bind_ok hp, outcome_bind_ok henclose, outcome_bind_ok (htells enclosed), outcome_answer]
  refine ⟨nonce, _, rfl, htold.files.trans hlook.files, ?_⟩
  rw [← houtput, ← htold.output]
  rfl

/-- An envelope opens to the value that was sealed as long as the key is held, blanks around it aside. -/
theorem decrypt_ok {master : MasterKey} {nonce : Nonce} {value text : String}
    (hmaster : KeyStore.Holds context.cipher context.settings.keys w master)
    (htext : (outcome (readValue argument) w).1 = .ok text)
    (htrim : trim text = trim (Envelope.enclose (valueProtector context.settings master) nonce value)) :
    ∃ after, outcome (context.decrypt argument key) w = (.ok (), after) ∧
      after.output = w.output ++ openedAnswer context.asJson key value := by
  rcases hread : outcome (readValue argument) w with ⟨result, read⟩
  rw [hread] at htext
  obtain rfl : result = .ok text := htext
  obtain ⟨hlook, houtput⟩ := looksLike_of_readValue hread
  have hp : (outcome (context.protector Protector.configSecrets) read).1 = .ok (valueProtector context.settings master) :=
    protector_eq_ok_iff.mpr ⟨master, hmaster.of_looksLike hlook, rfl⟩
  have hundisturbed := (context.reads_protector Protector.configSecrets).undisturbed read
  obtain ⟨event, htells⟩ := tells_inform "decrypted value" [Log.plain "key" key]
  unfold decrypt
  rw [outcome_bind_ok hread, outcome_bind_ok (Prod.ext hp rfl), htrim, Envelope.trim_enclose, Run.disclose, Envelope.disclose_enclose]
  have hsettled (v : World) : outcome (settle (m := StateM World) .envelope (Except.ok value)) v = (.ok value, v) := rfl
  rw [outcome_bind_ok (hsettled _), outcome_bind_ok (htells _), outcome_answer]
  have htold := hundisturbed.trans (World.undisturbed_tell _ event)
  refine ⟨_, rfl, ?_⟩
  rw [← houtput, ← htold.output]
  rfl

end Context

end CommandLine

end SealedConfig
