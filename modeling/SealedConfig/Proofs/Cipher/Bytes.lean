import SealedConfig.Bytes

/-!
# Texts and their bytes

A text is read back from its bytes, the bytes of a text of ASCII characters are their codes, and masking bytes twice by one key
stream gives them back.
-/

namespace SealedConfig

namespace Bytes

/-! ## UTF-8 -/

/-- A text is read back from its bytes. -/
@[simp] theorem toText?_ofText (text : String) : toText? (ofText text) = some text := by
  have h : (⟨(ofText text).toArray⟩ : ByteArray) = text.toByteArray := by simp [ofText]
  rw [toText?, h, String.fromUTF8?, dif_pos text.isValidUTF8]
  rfl

/-- Different texts have different bytes. -/
theorem ofText_injective {first second : String} (h : ofText first = ofText second) : first = second := by
  have hread : some first = some second := by
    rw [← toText?_ofText, h, toText?_ofText]
  exact Option.some.inj hread

/-- The bytes of two texts in a row. -/
@[simp] theorem ofText_append (first second : String) : ofText (first ++ second) = ofText first ++ ofText second := by
  simp [ofText]

/-- The bytes of a text that was read are those it was read from. -/
theorem ofText_of_toText? {bytes : Bytes} {text : String} (h : toText? bytes = some text) : ofText text = bytes := by
  rw [toText?, String.fromUTF8?] at h
  split at h
  · obtain rfl := Option.some.inj h
    rfl
  · cases h

/-- The bytes of a text are those of its characters. -/
theorem ofText_ofList (cs : List Char) : ofText (String.ofList cs) = cs.flatMap String.utf8EncodeChar := by
  simp [ofText, List.utf8Encode]

/-- Some characters of a text take at most its bytes. -/
theorem length_ofText_le {cs : List Char} {text : String} (h : cs.Sublist text.toList) :
    (ofText (String.ofList cs)).length ≤ (ofText text).length := by
  have htext : ofText text = text.toList.flatMap String.utf8EncodeChar := by
    rw [← ofText_ofList, String.ofList_toList]
  rw [ofText_ofList, htext]
  generalize text.toList = ds at h
  induction h with
  | slnil => exact Nat.le_refl _
  | cons c _ ih =>
    rw [List.flatMap_cons, List.length_append]
    omega
  | cons_cons c _ ih =>
    rw [List.flatMap_cons, List.flatMap_cons, List.length_append, List.length_append]
    omega

/-- An ASCII character takes one byte, its code. -/
theorem utf8EncodeChar_ascii : ∀ n < 128, String.utf8EncodeChar (Char.ofNat n) = [UInt8.ofNat n] := by decide

/-- The bytes of a text of ASCII characters are their codes. -/
theorem ofText_ascii {bytes : Bytes} (h : ∀ b ∈ bytes, b < 128) :
    ofText (String.ofList (bytes.map fun b => Char.ofNat b.toNat)) = bytes := by
  rw [ofText_ofList, List.flatMap_map]
  induction bytes with
  | nil => rfl
  | cons b bytes ih =>
    have hb : b.toNat < 128 := h b List.mem_cons_self
    rw [List.flatMap_cons, utf8EncodeChar_ascii _ hb, ih fun x hx => h x (List.mem_cons_of_mem _ hx), UInt8.ofNat_toNat]
    rfl

/-! ## Exclusive or -/

@[simp] theorem length_xor (a b : Bytes) : (xor a b).length = min a.length b.length := List.length_zipWith

/-- Masking twice by one key stream gives the bytes back. -/
theorem xor_xor {bytes stream : Bytes} (h : bytes.length ≤ stream.length) : xor (xor bytes stream) stream = bytes := by
  induction bytes generalizing stream with
  | nil => rfl
  | cons b bytes ih =>
    rcases stream with _ | ⟨s, stream⟩
    · cases h
    · have hb : b ^^^ s ^^^ s = b := by rw [UInt8.xor_assoc, UInt8.xor_self, UInt8.xor_zero]
      simp only [xor, List.zipWith_cons_cons, hb]
      exact congrArg _ (ih (Nat.le_of_succ_le_succ h))

end Bytes

end SealedConfig
