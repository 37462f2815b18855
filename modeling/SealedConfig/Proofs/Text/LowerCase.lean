import SealedConfig.Text.LowerCase

/-!
# Lower case and ASCII letters

The lower-case form of a text does not show the case of its ASCII letters. They have their plain lower-case forms wherever they stand,
and to the letters around them, of which a capital sigma looks at its neighbours, a small one is as good as a capital one.
-/

namespace SealedConfig.LowerCase

/-! ## One character -/

/-- An ASCII capital goes to the letter 32 places on, and any other character to itself. -/
theorem toLower_cases (c : Char) :
    (0x41 ≤ c.toNat ∧ c.toNat ≤ 0x5a ∧ c.toLower.toNat = c.toNat + 32) ∨ (¬(0x41 ≤ c.toNat ∧ c.toNat ≤ 0x5a) ∧ c.toLower = c) := by
  by_cases h : c.val ≥ 'A'.val ∧ c.val ≤ 'Z'.val
  · have hlow : c.toLower.val = c.val + ('a'.val - 'A'.val) := congrArg Char.val (dif_pos h)
    obtain ⟨hA, hZ⟩ := h
    have hA' : 0x41 ≤ c.val.toNat := hA
    have hZ' : c.val.toNat ≤ 0x5a := hZ
    refine Or.inl ⟨hA', hZ', ?_⟩
    rw [Char.toNat, hlow, UInt32.toNat_add]
    change (c.val.toNat + 32) % 2 ^ 32 = c.val.toNat + 32
    omega
  · exact Or.inr ⟨h, dif_neg h⟩

/-- An ASCII letter, small or capital. -/
def IsLetter (c : Char) : Prop := (0x41 ≤ c.toNat ∧ c.toNat ≤ 0x5a) ∨ (0x61 ≤ c.toNat ∧ c.toNat ≤ 0x7a)

/-- Letters go to letters, and only letters go to others. -/
theorem isLetter_or_toLower_eq (c : Char) : (IsLetter c ∧ IsLetter c.toLower) ∨ c.toLower = c := by
  rcases toLower_cases c with ⟨hA, hZ, hlow⟩ | ⟨-, hself⟩
  · exact Or.inl ⟨Or.inl ⟨hA, hZ⟩, Or.inr (by omega)⟩
  · exact Or.inr hself

/-- Of the ASCII characters only the capitals have a lower-case form of their own. -/
theorem simple_eq_toLower {c : Char} (h : c.toNat < 0x80) : simple c = c.toLower := by
  have hbeyond : ∀ r ∈ shifts.tail, 0x80 ≤ r.1 := by decide +kernel
  have hnone : shifts.tail.find? (fun r => r.1 ≤ c.toNat && c.toNat ≤ r.2.1 && (c.toNat - r.1) % r.2.2.1 == 0) = none := by
    rw [List.find?_eq_none]
    intro r hr
    have hr := hbeyond r hr
    have : ¬r.1 ≤ c.toNat := by omega
    simp [this]
  rw [simple, show shifts = (0x41, 0x5a, 1, 32) :: shifts.tail from rfl]
  rcases toLower_cases c with ⟨hA, hZ, hlow⟩ | ⟨hcapital, hself⟩
  · rw [List.find?_cons_of_pos (by simp [hA, hZ, Nat.mod_one])]
    change Char.ofNat (c.toNat + 32) = _
    rw [← hlow, Char.ofNat_toNat]
  · rw [List.find?_cons_of_neg (by simpa [Nat.mod_one] using hcapital), hnone, hself]

/-- The lower-case form of a character does not show the case of an ASCII letter. -/
theorem simple_toLower (c : Char) : simple c.toLower = simple c := by
  rcases toLower_cases c with ⟨hA, hZ, hlow⟩ | ⟨-, hself⟩
  · rw [simple_eq_toLower (c := c) (by omega), simple_eq_toLower (by omega)]
    rcases toLower_cases c.toLower with ⟨hA', hZ', -⟩ | ⟨-, hself⟩
    · omega
    · exact hself
  · rw [hself]

/-! ## The letters around a sigma -/

/-- All ASCII letters are cased. -/
theorem within_cased {c : Char} (h : IsLetter c) : within cased c = true := by
  rw [within, List.any_eq_true]
  rcases h with ⟨h, h'⟩ | ⟨h, h'⟩
  · exact ⟨(0x41, 0x5a), by decide, by simp [h, h']⟩
  · exact ⟨(0x61, 0x7a), by decide, by simp [h, h']⟩

/-- No ASCII letter is skipped. -/
theorem within_skipped {c : Char} (h : IsLetter c) : within skipped c = false := by
  have hapart : ∀ r ∈ skipped, (r.2 < 0x41 ∨ 0x5a < r.1) ∧ (r.2 < 0x61 ∨ 0x7a < r.1) := by decide +kernel
  rw [within, List.any_eq_false]
  intro r hr
  have hr := hapart r hr
  rw [Bool.and_eq_true, decide_eq_true_eq, decide_eq_true_eq]
  unfold IsLetter at h
  omega

/-- Whether characters lead to a cased letter does not depend on the case of ASCII letters among them. -/
theorem meetsCased_toLower (cs : List Char) : meetsCased (cs.map Char.toLower) = meetsCased cs := by
  have hskipped : ((fun c => !within skipped c) ∘ Char.toLower) = fun c => !within skipped c := by
    funext c
    rcases isLetter_or_toLower_eq c with ⟨h, h'⟩ | h
    · rw [Function.comp_apply, within_skipped h, within_skipped h']
    · rw [Function.comp_apply, h]
  rw [meetsCased, meetsCased, List.find?_map, hskipped]
  cases cs.find? fun c => !within skipped c with
  | none => rfl
  | some c =>
    rcases isLetter_or_toLower_eq c with ⟨h, h'⟩ | h
    · exact (within_cased h').trans (within_cased h).symm
    · exact congrArg (within cased) h

/-! ## Texts -/

/-- The lower-case form of a character among others does not show the case of ASCII letters. -/
theorem ofChar_toLower (before : List Char) (c : Char) (after : List Char) :
    ofChar (before.map Char.toLower) c.toLower (after.map Char.toLower) = ofChar before c after := by
  have hkeeps : ∀ d : Char, ¬IsLetter d → (c.toLower = d ↔ c = d) := by
    intro d hd
    rcases isLetter_or_toLower_eq c with ⟨h, h'⟩ | h
    · exact iff_of_false (fun heq => hd (heq ▸ h')) (fun heq => hd (heq ▸ h))
    · rw [h]
  simp only [ofChar, hkeeps '\u03a3' (by unfold IsLetter; decide), hkeeps '\u0130' (by unfold IsLetter; decide), meetsCased_toLower,
    simple_toLower]

theorem ofChars_toLower (before cs : List Char) :
    ofChars (before.map Char.toLower) (cs.map Char.toLower) = ofChars before cs := by
  induction cs generalizing before with
  | nil => rfl
  | cons c after ih => rw [List.map_cons, ofChars, ofChars, ofChar_toLower, ← ih (c :: before), List.map_cons]

/-- The first part of a text has a form that depends on the rest, and the rest is taken up behind it. -/
theorem ofChars_append (before cs after : List Char) :
    ∃ front, ofChars before (cs ++ after) = front ++ ofChars (cs.reverse ++ before) after := by
  induction cs generalizing before with
  | nil => exact ⟨[], rfl⟩
  | cons c cs ih =>
    obtain ⟨front, h⟩ := ih (c :: before)
    exact ⟨ofChar before c (cs ++ after) ++ front, by simp [ofChars, h]⟩

/-- A run of ASCII characters is put in lower case letter by letter, whatever stands around it. -/
theorem ofChars_append_of_ascii {word : List Char} (h : ∀ c ∈ word, c.toNat < 0x80) (before after : List Char) :
    ofChars before (word ++ after) = word.map Char.toLower ++ ofChars (word.reverse ++ before) after := by
  induction word generalizing before with
  | nil => rfl
  | cons c word ih =>
    obtain ⟨hc, hword⟩ := List.forall_mem_cons.mp h
    have hne : ∀ d : Char, 0x80 ≤ d.toNat → c ≠ d := by
      rintro d hd rfl
      omega
    rw [List.cons_append, ofChars, ofChar, if_neg (hne _ (by decide)), if_neg (hne _ (by decide)), simple_eq_toLower hc,
      ih hword (c :: before)]
    simp

end SealedConfig.LowerCase

namespace SealedConfig

open LowerCase

/-- Two texts that differ only in the case of ASCII letters have one lower-case form. -/
theorem lowerCase_congr {text other : String} (h : text.toList.map Char.toLower = other.toList.map Char.toLower) :
    lowerCase text = lowerCase other := by
  rw [lowerCase, lowerCase, ← ofChars_toLower [] text.toList, h, ofChars_toLower [] other.toList]

/-- The lower-case form of a text holds that of every run of ASCII characters in the text. -/
theorem infix_lowerCase {word : String} (h : ∀ c ∈ word.toList, c.toNat < 0x80) (before after : String) :
    word.toList.map Char.toLower <:+: (lowerCase (before ++ word ++ after)).toList := by
  rw [lowerCase, String.toList_ofList, String.toList_append, String.toList_append, List.append_assoc]
  obtain ⟨front, hfront⟩ := ofChars_append [] before.toList (word.toList ++ after.toList)
  rw [hfront, ofChars_append_of_ascii h]
  exact ⟨front, _, List.append_assoc _ _ _⟩

end SealedConfig
