import SealedConfig.MasterKey
import SealedConfig.Proofs.Cipher.Canonical
import SealedConfig.Proofs.Text.Blank

/-!
# The text form of a master key

A key has one spelling, which may stand between blanks. Of all other texts it can be told why they spell no key: either they spell
no bytes, or they spell another number of bytes than a key has.
-/

namespace SealedConfig.MasterKey

open Outcome

variable {text : String}

/-! ## The bytes of a key -/

/-- The bytes of a key are those of the key. -/
theorem ofBytes_toBytes (key : MasterKey) : ofBytes key.toBytes = .ok key := by
  have hlen : key.toBytes.length = 32 := Vector.length_toList
  unfold ofBytes
  rw [dif_pos hlen]
  rfl

/-- A byte string is a key just when it is that of the key. -/
theorem ofBytes_eq_ok_iff {bytes : Bytes} {key : MasterKey} : ofBytes bytes = .ok key ↔ bytes = key.toBytes := by
  constructor
  · intro h
    unfold ofBytes at h
    split at h
    · obtain rfl := Except.ok.inj h
      rfl
    · cases h
  · rintro rfl
    exact key.ofBytes_toBytes

/-- A byte string is no key just when it has not the size of one. -/
theorem ofBytes_eq_error_iff {bytes : Bytes} {fault : Fault} :
    ofBytes bytes = .error fault ↔ bytes.length ≠ size ∧ fault = .size bytes.length := by
  unfold ofBytes
  split
  · rename_i hlen
    exact iff_of_false nofun fun h => h.1 hlen
  · rename_i hlen
    rw [Except.error.injEq, eq_comm]
    exact (and_iff_right hlen).symm

/-! ## Reading texts -/

/-- A text is read as the bytes that it spells between blanks. -/
theorem ofBase64_of_spelled {bytes : Bytes} (h : trim text = Base64.standard.encode bytes) : ofBase64 text = ofBytes bytes := by
  unfold ofBase64
  rw [h, Base64.Variant.decode_encode Base64.isLawful_standard]

/-- A text that spells no bytes between blanks is refused for its spelling. -/
theorem ofBase64_of_not_spelled (h : ∀ bytes, trim text ≠ Base64.standard.encode bytes) :
    ∃ fault, ofBase64 text = .error (.spelling fault) := by
  unfold ofBase64
  cases hread : Base64.standard.decode (trim text) with
  | ok bytes => exact absurd ((Base64.Variant.decode_eq_ok_iff Base64.isLawful_standard).mp hread) (h bytes)
  | error fault => exact ⟨fault, rfl⟩

/-- A text is read as a key just when trimming leaves the written text of the key. -/
theorem ofBase64_eq_ok_iff {key : MasterKey} : ofBase64 text = .ok key ↔ trim text = key.toBase64 := by
  rcases exists_or_forall_not fun bytes => trim text = Base64.standard.encode bytes with ⟨bytes, hbytes⟩ | hnone
  · rw [ofBase64_of_spelled hbytes, ofBytes_eq_ok_iff, hbytes, toBase64]
    exact ⟨congrArg _, Base64.Variant.encode_injective Base64.isLawful_standard⟩
  · obtain ⟨fault, hfault⟩ := ofBase64_of_not_spelled hnone
    rw [hfault]
    exact iff_of_false nofun (hnone key.toBytes)

/-! ## The written text of a key -/

theorem isBlank_symbol : ∀ n < 64, isBlank (Char.ofNat (Base64.standard.symbol n).toNat) = false := by decide

/-- The written symbols of a key are not blank. -/
theorem isBlank_toBase64 (key : MasterKey) {c : Char} (hc : c ∈ key.toBase64.toList) : isBlank c = false :=
  Base64.Variant.isBlank_of_mem_encode isBlank_symbol hc

/-- The written text of a key spells it. -/
theorem ofBase64_toBase64 (key : MasterKey) : ofBase64 key.toBase64 = .ok key :=
  ofBase64_eq_ok_iff.mpr (trim_eq_self fun _ hc => key.isBlank_toBase64 hc)

/-- A line with the written text of a key spells it. -/
theorem ofBase64_line (key : MasterKey) : ofBase64 (key.toBase64 ++ "\n") = .ok key :=
  ofBase64_eq_ok_iff.mpr (trim_line fun _ hc => key.isBlank_toBase64 hc)

theorem ofTextBytes_toBase64 (key : MasterKey) : ofTextBytes (Bytes.ofText key.toBase64) = .ok key := by
  unfold ofTextBytes
  rw [Bytes.toText?_ofText]
  exact key.ofBase64_toBase64

/-! ## One spelling -/

/-- A text is refused for its size just when it spells that many bytes, and a key has not so many. -/
theorem ofBase64_eq_size_iff {count : Nat} :
    ofBase64 text = .error (.size count) ↔
      count ≠ size ∧ ∃ bytes : Bytes, bytes.length = count ∧ trim text = Base64.standard.encode bytes := by
  rcases exists_or_forall_not fun bytes => trim text = Base64.standard.encode bytes with ⟨bytes, hbytes⟩ | hnone
  · rw [ofBase64_of_spelled hbytes, ofBytes_eq_error_iff, hbytes]
    constructor
    · rintro ⟨hlen, hsize⟩
      obtain rfl := Fault.size.inj hsize
      exact ⟨hlen, bytes, rfl, rfl⟩
    · rintro ⟨hlen, other, rfl, hother⟩
      rw [Base64.Variant.encode_injective Base64.isLawful_standard hother]
      exact ⟨hlen, rfl⟩
  · obtain ⟨fault, hfault⟩ := ofBase64_of_not_spelled hnone
    rw [hfault]
    exact iff_of_false nofun fun ⟨_, bytes, _, hbytes⟩ => hnone bytes hbytes

/-- A text is refused for its spelling just when it spells no bytes at all. -/
theorem ofBase64_eq_spelling_iff :
    (∃ fault, ofBase64 text = .error (.spelling fault)) ↔ ∀ bytes, trim text ≠ Base64.standard.encode bytes := by
  rcases exists_or_forall_not fun bytes => trim text = Base64.standard.encode bytes with ⟨bytes, hbytes⟩ | hnone
  · refine iff_of_false ?_ fun h => h bytes hbytes
    rintro ⟨fault, hfault⟩
    rw [ofBase64_of_spelled hbytes, ofBytes_eq_error_iff] at hfault
    cases hfault.2
  · exact iff_of_true (ofBase64_of_not_spelled hnone) hnone

/-- A key has one spelling, and every other text is refused. A text is read as a key exactly when trimming the blanks at its ends leaves
what is written for the key, which then stands in it between blanks; it is refused exactly when trimming leaves the written text of no
key. A refusal is for the size if the text spells bytes, but not as many as a key has, and for the spelling if it spells none: symbols
of no value, padding that is wrong or missing, spare bits that are not zero and blanks between the symbols are all of that kind. -/
theorem ofBase64_spells (text : String) :
    (∀ key : MasterKey, (ofBase64 text = .ok key ↔ trim text = key.toBase64) ∧
        (trim text = key.toBase64 ↔ IsPadded key.toBase64 text)) ∧
      ((∃ fault, ofBase64 text = .error fault) ↔ ∀ key : MasterKey, trim text ≠ key.toBase64) ∧
      (∀ count, ofBase64 text = .error (.size count) ↔
        count ≠ size ∧ ∃ bytes : Bytes, bytes.length = count ∧ trim text = Base64.standard.encode bytes) ∧
      ((∃ fault, ofBase64 text = .error (.spelling fault)) ↔ ∀ bytes, trim text ≠ Base64.standard.encode bytes) := by
  refine ⟨fun key => ⟨ofBase64_eq_ok_iff, trim_eq_iff fun c hc => key.isBlank_toBase64 hc⟩, ?_,
    fun count => ofBase64_eq_size_iff, ofBase64_eq_spelling_iff⟩
  constructor
  · rintro ⟨fault, hfault⟩ key hkey
    rw [ofBase64_eq_ok_iff.mpr hkey] at hfault
    cases hfault
  · intro hnone
    cases hread : ofBase64 text with
    | ok key => exact absurd (ofBase64_eq_ok_iff.mp hread) (hnone key)
    | error fault => exact ⟨fault, rfl⟩

end SealedConfig.MasterKey
