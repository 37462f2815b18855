import SealedConfig.Proofs.Cipher.Canonical
import SealedConfig.Proofs.Cipher.Envelope

/-!
# Nothing opens but what was sealed

Each stage of opening undoes its stage of sealing in both directions. A text spells a byte string only as writing does, a ciphertext
decrypts only if it is the encryption of what it decrypts to, and bytes are read as a text only if they are its bytes. So a protected
text opens to a text exactly when it is, blanks around it apart, one of the spellings of a sealing of that text.
-/

namespace SealedConfig

namespace Gcm

open Aes (Block)

variable {nonce associated sealed text : Bytes}

/-- What decrypts is the encryption of its text, whatever the block cipher is. -/
theorem eq_encryptWith_of_decryptWith? {cipher : Block → Block} (h : decryptWith? cipher nonce associated sealed = some text) :
    sealed = encryptWith cipher nonce associated text := by
  rw [decryptWith?] at h
  split at h
  · rename_i hverified
    obtain rfl := Option.some.inj h
    rw [encryptWith, mask_mask, ← hverified.2, List.take_append_drop]
  · cases h

/-- A byte string decrypts to a text exactly when it is the encryption of the text under that key, nonce and associated data. -/
theorem decrypt?_eq_some_iff {key : Bytes} :
    decrypt? key nonce associated sealed = some text ↔ sealed = encrypt key nonce associated text := by
  constructor
  · intro h
    exact eq_encryptWith_of_decryptWith? h
  · rintro rfl
    exact decrypt?_encrypt nonce key associated text

end Gcm

namespace Protector

variable {p : Protector}

/-- A written text is a sealing of a text: nonce, ciphertext and tag in the alphabet for file names, without padding, where the
ciphertext and its tag are what encrypts the text under the key and that nonce, the purpose being authenticated with it. -/
def Seals (p : Protector) (written text : String) : Prop :=
  ∃ nonce : Nonce, written = Base64.urlSafe.encode
    (nonce.toList ++ Gcm.encrypt p.key nonce.toList (Bytes.ofText p.purpose) (Bytes.ofText text))

/-- Bytes open to a text exactly when they are sealed from it. -/
theorem openBytes_eq_ok_iff {raw : Bytes} {text : String} :
    p.openBytes raw = .ok text ↔ ∃ nonce, raw = p.sealBytes nonce (Bytes.ofText text) := by
  constructor
  · intro h
    rw [openBytes] at h
    split at h
    · cases h
    · rename_i hsize
      split at h
      · cases h
      · rename_i plain hplain
        split at h
        · cases h
        · rename_i text' htext
          obtain rfl := Except.ok.inj h
          -- the nonce is what stands in front of the sealed bytes
          have hnonce : (raw.take Gcm.nonceSize).length = 12 := by
            simp only [Gcm.nonceSize, Gcm.tagSize] at hsize ⊢
            rw [List.length_take]
            omega
          refine ⟨Bytes.toVector (raw.take Gcm.nonceSize) hnonce, ?_⟩
          have hlist : (Bytes.toVector (raw.take Gcm.nonceSize) hnonce).toList = raw.take Gcm.nonceSize := rfl
          rw [sealBytes, hlist, Bytes.ofText_of_toText? htext, ← Gcm.decrypt?_eq_some_iff.mp hplain, List.take_append_drop]
  · rintro ⟨nonce, rfl⟩
    exact openBytes_sealBytes p nonce text

/-- A text that is not empty opens exactly when it spells bytes that open. -/
theorem unprotect_eq_ok_iff_openBytes {ciphertext text : String} (hne : ciphertext ≠ "") :
    p.unprotect ciphertext = .ok text ↔ ∃ raw, Base64.urlSafe.decode (trim ciphertext) = .ok raw ∧ p.openBytes raw = .ok text := by
  rw [unprotect, if_neg hne]
  constructor
  · intro h
    split at h
    · cases h
    · rename_i raw hraw
      split at h
      · cases h
      · rename_i text' htext
        obtain rfl := Except.ok.inj h
        exact ⟨raw, hraw, htext⟩
  · rintro ⟨raw, hraw, htext⟩
    rw [hraw]
    dsimp only
    rw [htext]

/-- No sealing is empty. -/
theorem Seals.ne_empty {written text : String} (h : p.Seals written text) : written ≠ "" := by
  obtain ⟨nonce, rfl⟩ := h
  exact p.encode_sealBytes_ne_empty nonce (Bytes.ofText text)

/-- A text opens to a text exactly when both are empty or it is, blanks around it apart, a sealing of the text. -/
theorem unprotect_eq_ok_iff {ciphertext text : String} :
    p.unprotect ciphertext = .ok text ↔ (ciphertext = "" ∧ text = "") ∨ p.Seals (trim ciphertext) text := by
  by_cases hne : ciphertext = ""
  · subst hne
    constructor
    · intro h
      exact Or.inl ⟨rfl, (Except.ok.inj h).symm⟩
    · rintro (⟨-, rfl⟩ | hseals)
      · rfl
      · exact absurd rfl hseals.ne_empty
  · rw [unprotect_eq_ok_iff_openBytes hne]
    constructor
    · rintro ⟨raw, hraw, htext⟩
      obtain ⟨nonce, rfl⟩ := openBytes_eq_ok_iff.mp htext
      exact Or.inr ⟨nonce, (Base64.Variant.decode_eq_ok_iff Base64.isLawful_urlSafe).mp hraw⟩
    · rintro (⟨hempty, -⟩ | ⟨nonce, hwritten⟩)
      · exact absurd hempty hne
      · exact ⟨_, (Base64.Variant.decode_eq_ok_iff Base64.isLawful_urlSafe).mpr hwritten, openBytes_eq_ok_iff.mpr ⟨nonce, rfl⟩⟩

/-- What fails to open fails under its purpose. -/
theorem purpose_of_unprotect {ciphertext : String} {fault : Fault} (h : p.unprotect ciphertext = .error fault) :
    fault.purpose = p.purpose := by
  rw [unprotect] at h
  split at h
  · cases h
  split at h
  · obtain rfl := Except.error.inj h
    rfl
  split at h
  · obtain rfl := Except.error.inj h
    rfl
  · cases h

/-- The symbols of the alphabet for file names are letters, digits, hyphen and underscore. -/
theorem isAlphanum_symbol : ∀ n < 64, (Char.ofNat (Base64.urlSafe.symbol n).toNat).isAlphanum = true ∨
    Char.ofNat (Base64.urlSafe.symbol n).toNat = '-' ∨ Char.ofNat (Base64.urlSafe.symbol n).toNat = '_' := by decide

/-- A protected text is made of letters, digits, hyphen and underscore. -/
theorem isAlphanum_of_mem_protect {nonce : Nonce} {text : String} {c : Char} (h : c ∈ (p.protect nonce text).toList) :
    c.isAlphanum = true ∨ c = '-' ∨ c = '_' := by
  rw [protect] at h
  split at h
  · cases h
  · rw [Base64.Variant.encode, String.toList_ofList] at h
    obtain ⟨b, hb, rfl⟩ := List.mem_map.mp h
    rcases Base64.Variant.RoundTripAux.isWritten_of_mem hb with ⟨hpadded, -⟩ | ⟨n, hn, rfl⟩
    · cases hpadded
    · exact isAlphanum_symbol n hn

/-- Protecting and opening are inverse to each other, for every master key, application and purpose. A protected text opens to the
text that was protected under whatever nonce, it is empty only for the empty text, and it is made of letters, digits, hyphen and
underscore. A text opens to a text exactly when both are empty or it is, blanks around it apart, a sealing of the text, and it fails
to decrypt under the purpose in every other case. -/
theorem unprotect_inverts (provider : Provider) (purpose : String) :
    (∀ nonce text, (provider.protector purpose).unprotect ((provider.protector purpose).protect nonce text) = .ok text) ∧
    (∀ nonce text, ((provider.protector purpose).protect nonce text = "" ↔ text = "") ∧
      ∀ c ∈ ((provider.protector purpose).protect nonce text).toList, c.isAlphanum = true ∨ c = '-' ∨ c = '_') ∧
    (∀ ciphertext text, (provider.protector purpose).unprotect ciphertext = .ok text ↔
      (ciphertext = "" ∧ text = "") ∨ (provider.protector purpose).Seals (trim ciphertext) text) ∧
    ∀ ciphertext, (¬∃ text, (ciphertext = "" ∧ text = "") ∨ (provider.protector purpose).Seals (trim ciphertext) text) →
      ∃ reason, (provider.protector purpose).unprotect ciphertext = .error ⟨purpose, reason⟩ := by
  refine ⟨fun nonce text => unprotect_protect _ nonce text, fun nonce text => ⟨⟨?_, ?_⟩, ?_⟩, ?_, ?_⟩
  · intro hempty
    exact Decidable.byContradiction fun hne => protect_ne_empty _ nonce hne hempty
  · rintro rfl
    rfl
  · intro c hc
    exact isAlphanum_of_mem_protect hc
  · intro ciphertext text
    exact unprotect_eq_ok_iff
  · intro ciphertext hnone
    cases hopen : (provider.protector purpose).unprotect ciphertext with
    | error fault =>
      have hpurpose : fault.purpose = purpose := purpose_of_unprotect hopen
      exact ⟨fault.reason, by rw [← hpurpose]⟩
    | ok text => exact absurd ⟨text, unprotect_eq_ok_iff.mp hopen⟩ hnone

end Protector

/-! ## Envelopes -/

namespace Envelope

variable {p : Protector} {value text : String}

/-- Behind the marker of a value stands, blanks around it apart, a sealing of a text. -/
def Authenticates (p : Protector) (value text : String) : Prop :=
  ∃ ciphertext, value = mark ciphertext ∧ p.Seals (trim ciphertext) text

/-- A value is taken for a text: it authenticates the text, or it is the bare marker and the text is empty. -/
def Accepts (p : Protector) (value text : String) : Prop := Authenticates p value text ∨ value = marker ∧ text = ""

/-- Different texts make different marked texts. -/
theorem mark_injective {first second : String} (h : mark first = mark second) : first = second := by
  have hunmark : some first = some second := by
    rw [← unmark?_mark, h, unmark?_mark]
  exact Option.some.inj hunmark

/-- The marker is what marks the empty text. -/
theorem mark_empty : mark "" = marker := String.append_empty

/-- The bare marker authenticates nothing. -/
theorem not_authenticates_marker : ¬Authenticates p marker text := by
  rintro ⟨ciphertext, hmark, hseals⟩
  obtain rfl : "" = ciphertext := mark_injective (mark_empty.trans hmark)
  exact hseals.ne_empty rfl

/-- A marked value discloses a text exactly when it is taken for it. -/
theorem disclose_eq_ok_iff (hm : isMarked value = true) : disclose p value = .ok text ↔ Accepts p value text := by
  obtain ⟨ciphertext, rfl⟩ := exists_of_isMarked hm
  have hopen : disclose p (mark ciphertext) = .ok text ↔ p.unprotect ciphertext = .ok text := by
    rw [disclose, if_neg (ne_empty_of_isMarked hm), unmark?_mark]
    dsimp only
    cases p.unprotect ciphertext with
    | error fault =>
      constructor
      · intro h
        cases h
      · intro h
        cases h
    | ok plain => exact ⟨fun h => congrArg Except.ok (Except.ok.inj h), fun h => congrArg Except.ok (Except.ok.inj h)⟩
  rw [hopen, Protector.unprotect_eq_ok_iff]
  constructor
  · rintro (⟨rfl, rfl⟩ | hseals)
    · exact Or.inr ⟨mark_empty, rfl⟩
    · exact Or.inl ⟨ciphertext, rfl, hseals⟩
  · rintro (⟨ciphertext', hmark, hseals⟩ | ⟨hmark, rfl⟩)
    · obtain rfl := mark_injective hmark
      exact Or.inr hseals
    · exact Or.inl ⟨mark_injective (hmark.trans mark_empty.symm), rfl⟩

end Envelope

end SealedConfig
