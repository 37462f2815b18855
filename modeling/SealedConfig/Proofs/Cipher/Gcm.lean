import SealedConfig.Crypto.Gcm
import SealedConfig.Proofs.Cipher.Bytes

/-!
# What is encrypted decrypts

The key stream masks a text piece by piece. Masking twice gives the text back, whatever the block cipher is, and a tag verifies the
ciphertext that it was made for; so a text is what its encryption decrypts to.
-/

namespace SealedConfig.Gcm

open Aes (Block)

variable (cipher : Block → Block) (nonce : Bytes)

namespace MaskAux

/-- The enciphered block of a counter. -/
abbrev stream (counter : Nat) : Bytes := (cipher (counterBlock nonce counter)).toList

/-- A text is masked by its first piece and the rest. -/
theorem maskAux_succ (counter room : Nat) {bytes : Bytes} (h : bytes ≠ []) :
    maskAux cipher nonce counter (Bytes.piecesAux 15 (room + 1) bytes) =
      Bytes.xor (bytes.take 16) (stream cipher nonce counter) ++
        maskAux cipher nonce (counter + 1) (Bytes.piecesAux 15 room (bytes.drop 16)) := by
  cases bytes with
  | nil => exact absurd rfl h
  | cons b bytes => rfl

@[simp] theorem maskAux_nil (counter room : Nat) :
    maskAux cipher nonce counter (Bytes.piecesAux 15 room []) = [] := by
  cases room <;> rfl

/-- A masked text is as long as the text. -/
theorem length_maskAux (counter room : Nat) (bytes : Bytes) (h : bytes.length ≤ room) :
    (maskAux cipher nonce counter (Bytes.piecesAux 15 room bytes)).length = bytes.length := by
  induction room generalizing counter bytes with
  | zero =>
    obtain rfl := List.length_eq_zero_iff.mp (Nat.le_zero.mp h)
    rfl
  | succ room ih =>
    by_cases hne : bytes = []
    · simp [hne]
    · have hpos := List.length_pos_iff.mpr hne
      have hrest : (bytes.drop 16).length ≤ room := by
        rw [List.length_drop]
        omega
      rw [maskAux_succ cipher nonce counter room hne, List.length_append, ih _ _ hrest]
      simp only [Bytes.length_xor, List.length_take, List.length_drop, Vector.length_toList]
      omega

/-- Only the last piece of a text is short. -/
theorem take_drop_pieces {front back : Bytes} (hle : front.length ≤ 16) (h : front.length < 16 → back = []) :
    (front ++ back).take 16 = front ∧ (front ++ back).drop 16 = back := by
  by_cases hlt : front.length < 16
  · rw [h hlt, List.append_nil]
    exact ⟨List.take_of_length_le hle, List.drop_of_length_le hle⟩
  · have heq : front.length = 16 := by omega
    exact ⟨List.take_left' heq, List.drop_left' heq⟩

/-- Masking twice gives the text back. -/
theorem maskAux_maskAux (counter room room' : Nat) (bytes : Bytes) (h : bytes.length ≤ room) (h' : bytes.length ≤ room') :
    maskAux cipher nonce counter (Bytes.piecesAux 15 room'
      (maskAux cipher nonce counter (Bytes.piecesAux 15 room bytes))) = bytes := by
  induction room generalizing counter bytes room' with
  | zero =>
    obtain rfl := List.length_eq_zero_iff.mp (Nat.le_zero.mp h)
    exact maskAux_nil cipher nonce counter room'
  | succ room ih =>
    by_cases hne : bytes = []
    · simp [hne]
    · have hpos := List.length_pos_iff.mpr hne
      obtain ⟨room', rfl⟩ : ∃ r, room' = r + 1 := ⟨room' - 1, by omega⟩
      have hfront : (bytes.take 16).length ≤ (stream cipher nonce counter).length := by
        rw [List.length_take, Vector.length_toList]
        omega
      have hlen : (Bytes.xor (bytes.take 16) (stream cipher nonce counter)).length = min 16 bytes.length := by
        rw [Bytes.length_xor, Nat.min_eq_left hfront, List.length_take]
      have hback : (Bytes.xor (bytes.take 16) (stream cipher nonce counter)).length < 16 →
          maskAux cipher nonce (counter + 1) (Bytes.piecesAux 15 room (bytes.drop 16)) = [] := by
        intro hlt
        rw [List.drop_of_length_le (by omega), maskAux_nil]
      obtain ⟨htake, hdrop⟩ := take_drop_pieces (by omega) hback
      rw [maskAux_succ cipher nonce counter room hne, maskAux_succ cipher nonce counter room', htake, hdrop,
        Bytes.xor_xor hfront, ih _ _ _ (by rw [List.length_drop]; omega) (by rw [List.length_drop]; omega),
        List.take_append_drop]
      refine List.ne_nil_of_length_pos ?_
      rw [List.length_append]
      omega

end MaskAux

open MaskAux

/-- A masked text is as long as the text. -/
@[simp] theorem length_mask (text : Bytes) : (mask cipher nonce text).length = text.length :=
  length_maskAux cipher nonce 2 text.length text (Nat.le_refl _)

/-- Masking twice gives the text back. -/
@[simp] theorem mask_mask (text : Bytes) : mask cipher nonce (mask cipher nonce text) = text := by
  have hlen : (mask cipher nonce text).length = text.length := length_mask cipher nonce text
  exact maskAux_maskAux cipher nonce 2 text.length (mask cipher nonce text).length text (Nat.le_refl _) (by omega)

@[simp] theorem length_tag (associated ciphertext : Bytes) : (tag cipher nonce associated ciphertext).length = tagSize := by
  simp [tag, tagSize]

@[simp] theorem length_encryptWith (associated text : Bytes) :
    (encryptWith cipher nonce associated text).length = text.length + tagSize := by
  simp [encryptWith]

/-- What is encrypted decrypts to the text, whatever the block cipher is. -/
theorem decryptWith?_encryptWith (associated text : Bytes) :
    decryptWith? cipher nonce associated (encryptWith cipher nonce associated text) = some text := by
  have hsize : (encryptWith cipher nonce associated text).length - tagSize = (mask cipher nonce text).length := by simp
  rw [decryptWith?, hsize, encryptWith, List.take_left, List.drop_left, if_pos ⟨by simp, rfl⟩, mask_mask]

/-- What is encrypted decrypts to the text under the same key, nonce and associated data. -/
theorem decrypt?_encrypt (key associated text : Bytes) :
    decrypt? key nonce associated (encrypt key nonce associated text) = some text :=
  decryptWith?_encryptWith _ nonce associated text

end SealedConfig.Gcm
