import SealedConfig.Envelope
import SealedConfig.Proofs.Cipher.Base64
import SealedConfig.Proofs.Cipher.Gcm
import SealedConfig.Proofs.Text.Blank

/-!
# What is enclosed is disclosed

A protected text opens under its protector to the text that was protected, and an envelope discloses what was enclosed. The text in
an envelope is always shorter than the envelope, so disclosing a marked value changes it.
-/

namespace SealedConfig

open Outcome

/-! ## Texts without blanks -/

/-- The symbols of the alphabet for file names are not blank. -/
theorem isBlank_symbol : ∀ n < 64, isBlank (Char.ofNat (Base64.urlSafe.symbol n).toNat) = false := by decide

/-- A text written in the alphabet for file names is not trimmed. -/
theorem trim_encode (bytes : Bytes) : trim (Base64.urlSafe.encode bytes) = Base64.urlSafe.encode bytes :=
  trim_eq_self fun _ hc => Base64.Variant.isBlank_of_mem_encode isBlank_symbol hc

namespace Protector

variable (p : Protector) (nonce : Nonce)

/-- Sealed bytes open to the text that was sealed. -/
theorem openBytes_sealBytes (text : String) : p.openBytes (p.sealBytes nonce (Bytes.ofText text)) = .ok text := by
  have hlen : nonce.toList.length = Gcm.nonceSize := Vector.length_toList
  have hsize : ¬(p.sealBytes nonce (Bytes.ofText text)).length < Gcm.nonceSize + Gcm.tagSize := by
    rw [sealBytes, Gcm.encrypt, List.length_append, Gcm.length_encryptWith, hlen]
    omega
  rw [openBytes, if_neg hsize, sealBytes, List.take_left' hlen, List.drop_left' hlen, Gcm.decrypt?_encrypt]
  dsimp only
  rw [Bytes.toText?_ofText]

/-- What is written for sealed bytes is not empty, for a nonce comes first. -/
theorem encode_sealBytes_ne_empty (content : Bytes) : Base64.urlSafe.encode (p.sealBytes nonce content) ≠ "" := by
  intro hp
  have hread := Base64.Variant.decode_encode Base64.isLawful_urlSafe (p.sealBytes nonce content)
  rw [hp] at hread
  have hnil : p.sealBytes nonce content = [] := Except.ok.inj (hread.symm.trans rfl)
  have hlen := congrArg List.length hnil
  simp [sealBytes] at hlen

/-- What protects a text that is not empty is not empty. -/
theorem protect_ne_empty {text : String} (h : text ≠ "") : p.protect nonce text ≠ "" := by
  rw [protect, if_neg h]
  exact p.encode_sealBytes_ne_empty nonce (Bytes.ofText text)

/-- A protected text opens to the text that was protected. -/
theorem unprotect_protect (text : String) : p.unprotect (p.protect nonce text) = .ok text := by
  by_cases h : text = ""
  · subst h
    rfl
  · rw [unprotect, if_neg (p.protect_ne_empty nonce h), protect, if_neg h, trim_encode,
      Base64.Variant.decode_encode Base64.isLawful_urlSafe]
    dsimp only
    rw [openBytes_sealBytes]

end Protector

namespace Envelope

variable (p : Protector) (nonce : Nonce)

/-- What is marked carries the marker. -/
@[simp] theorem isMarked_mark (ciphertext : String) : isMarked (mark ciphertext) = true := by
  rw [isMarked, mark, String.toList_append, List.isPrefixOf_iff_prefix]
  exact List.prefix_append _ _

/-- Behind the marker of what is marked stands what was marked. -/
@[simp] theorem unmark?_mark (ciphertext : String) : unmark? (mark ciphertext) = some ciphertext := by
  have hdrop : (mark ciphertext).toList.drop marker.length = ciphertext.toList := by
    rw [mark, String.toList_append, List.drop_left' String.length_toList]
  rw [unmark?, if_pos (isMarked_mark ciphertext), hdrop, String.ofList_toList]

/-- What carries the marker is a marked text. -/
theorem exists_of_isMarked {value : String} (h : isMarked value = true) : ∃ ciphertext, value = mark ciphertext := by
  rw [isMarked, List.isPrefixOf_iff_prefix] at h
  obtain ⟨rest, hrest⟩ := h
  exact ⟨String.ofList rest, by rw [mark, ← String.toList_inj, String.toList_append, String.toList_ofList, hrest]⟩

/-- The empty text carries no marker. -/
theorem ne_empty_of_isMarked {value : String} (h : isMarked value = true) : value ≠ "" := by
  rintro rfl
  exact absurd h (by decide)

/-- The envelope of a text that is not empty is marked. -/
theorem isMarked_enclose {text : String} (h : text ≠ "") : isMarked (enclose p nonce text) = true := by
  rw [enclose, if_neg h, isMarked_mark]

/-- An envelope discloses the text that was enclosed. -/
theorem disclose_enclose (text : String) : disclose p (enclose p nonce text) = .ok text := by
  by_cases h : text = ""
  · subst h
    rfl
  · rw [disclose, if_neg (ne_empty_of_isMarked (isMarked_enclose p nonce h)), enclose, if_neg h, unmark?_mark]
    dsimp only
    rw [Protector.unprotect_protect]

/-- An envelope has no blanks. -/
theorem isBlank_of_mem_enclose {text : String} {c : Char} (hc : c ∈ (enclose p nonce text).toList) : isBlank c = false := by
  unfold enclose at hc
  split at hc
  · cases hc
  · rename_i hne
    rw [mark, String.toList_append, List.mem_append, Protector.protect, if_neg hne] at hc
    rcases hc with hmarker | hencoded
    · have hletters : marker.toList.any isBlank = false := by decide
      rw [List.any_eq_false] at hletters
      exact Bool.eq_false_iff.mpr (hletters c hmarker)
    · exact Base64.Variant.isBlank_of_mem_encode isBlank_symbol hencoded

/-- An envelope is not trimmed. -/
theorem trim_enclose (text : String) : trim (enclose p nonce text) = enclose p nonce text :=
  trim_eq_self fun _ hc => isBlank_of_mem_enclose p nonce hc

/-! ## What is disclosed is shorter -/

end Envelope

/-- Some characters at the ends of a text are trimmed, and nothing else. -/
theorem trim_sublist (cs : List Char) : (trimEnd (trimStart cs)).Sublist cs := by
  have hend : (trimEnd (trimStart cs)).Sublist (trimStart cs) := by
    have h : ((trimStart cs).reverse.dropWhile isBlank).Sublist (trimStart cs).reverse := List.dropWhile_sublist isBlank
    have hr := h.reverse
    rwa [List.reverse_reverse] at hr
  exact hend.trans (List.dropWhile_sublist isBlank)

namespace Gcm

/-- What decrypts is as much longer than its text as a tag is. -/
theorem length_of_decrypt? {key nonce associated sealed text : Bytes} (h : decrypt? key nonce associated sealed = some text) :
    text.length + tagSize = sealed.length := by
  rw [decrypt?, decryptWith?] at h
  split at h
  · rename_i hc
    obtain rfl := Option.some.inj h
    rw [length_mask, List.length_take]
    omega
  · cases h

end Gcm

namespace Protector

variable {p : Protector}

/-- The text of sealed bytes is shorter than they are by a nonce and a tag. -/
theorem length_of_openBytes {raw : Bytes} {text : String} (h : p.openBytes raw = .ok text) :
    (Bytes.ofText text).length + Gcm.nonceSize + Gcm.tagSize = raw.length := by
  rw [openBytes] at h
  split at h
  · cases h
  · rename_i hsize
    split at h
    · cases h
    · rename_i plain hplain
      split at h
      · cases h
      · rename_i text' htext
        obtain rfl := Except.ok.inj h
        have hlen := Gcm.length_of_decrypt? hplain
        rw [Bytes.ofText_of_toText? htext]
        rw [List.length_drop] at hlen
        omega

/-- The text of a protected text that is not empty is shorter. -/
theorem length_of_unprotect {ciphertext text : String} (hne : ciphertext ≠ "") (h : p.unprotect ciphertext = .ok text) :
    (Bytes.ofText text).length < (Bytes.ofText ciphertext).length := by
  rw [unprotect, if_neg hne] at h
  split at h
  · cases h
  · rename_i raw hraw
    split at h
    · cases h
    · rename_i text' htext
      obtain rfl := Except.ok.inj h
      have hopen := length_of_openBytes htext
      have hdecode := Base64.Variant.length_le_of_decode hraw
      have htrim : (Bytes.ofText (trim ciphertext)).length ≤ (Bytes.ofText ciphertext).length :=
        Bytes.length_ofText_le (trim_sublist ciphertext.toList)
      simp only [Gcm.nonceSize, Gcm.tagSize] at hopen
      omega

end Protector

namespace Envelope

/-- The text in the envelope of a marked value is shorter than the value. -/
theorem length_of_disclose {p : Protector} {value text : String} (hm : isMarked value = true) (h : disclose p value = .ok text) :
    (Bytes.ofText text).length < (Bytes.ofText value).length := by
  obtain ⟨ciphertext, rfl⟩ := exists_of_isMarked hm
  rw [disclose, if_neg (ne_empty_of_isMarked hm), unmark?_mark] at h
  dsimp only at h
  split at h
  · cases h
  · rename_i plain hplain
    obtain rfl := Except.ok.inj h
    have hmarker : (Bytes.ofText (mark ciphertext)).length = 10 + (Bytes.ofText ciphertext).length := by
      rw [mark, Bytes.ofText_append, List.length_append]
      rfl
    by_cases hne : ciphertext = ""
    · subst hne
      obtain rfl : "" = plain := Except.ok.inj hplain
      omega
    · have := Protector.length_of_unprotect hne hplain
      omega

end Envelope

end SealedConfig
