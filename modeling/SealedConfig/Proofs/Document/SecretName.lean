import SealedConfig.Document.SecretName
import SealedConfig.Proofs.Document.Casing
import SealedConfig.Proofs.Text.LowerCase

/-!
# Names of secrets in any case

Whether a name is that of a secret does not depend on the case of its ASCII letters. The words that decide it are found in whatever case
they are written, and whatever letters of other alphabets stand around them.
-/

namespace SealedConfig

open Json (sameIgnoringCase sameIgnoringCase_iff)

namespace SecretName

/-- A word occurs in a text that has it as a part. -/
theorem occurs_iff {word text : List Char} : occurs word text = true ↔ word <:+: text := by
  induction text with
  | nil => rw [occurs, List.isEmpty_iff, List.infix_nil]
  | cons c rest ih => rw [occurs, Bool.or_eq_true, List.isPrefixOf_iff_prefix, ih, List.infix_cons_iff]

/-- The words that decide are small ASCII letters. -/
def IsPlain (word : String) : Prop := word.toList.map Char.toLower = word.toList ∧ ∀ c ∈ word.toList, c.toNat < 0x80

-- the instance for members of a list is named, since otherwise all characters could be gone through
instance (word : String) : Decidable (IsPlain word) := @instDecidableAnd _ _ _ (List.decidableBAll _ _)

theorem isPlain_of_mem_words : ∀ word ∈ words, IsPlain word := by decide

theorem isPlain_pathWord : IsPlain pathWord := by decide

/-- A word in whatever case is found in the lower-case form of every text around it. -/
theorem IsPlain.infix_lowerCase {pattern word : String} (h : IsPlain pattern) (hword : sameIgnoringCase word pattern = true)
    (before after : String) : pattern.toList <:+: (lowerCase (before ++ word ++ after)).toList := by
  obtain ⟨hlow, hascii⟩ := h
  have hsame : word.toList.map Char.toLower = pattern.toList := (sameIgnoringCase_iff.mp hword).trans hlow
  have hall : ∀ c ∈ word.toList, c.toNat < 0x80 := by
    intro c hc
    have hmem : c.toLower ∈ pattern.toList := hsame ▸ List.mem_map_of_mem hc
    have hlt := hascii _ hmem
    rcases LowerCase.toLower_cases c with ⟨-, hZ, -⟩ | ⟨-, hself⟩
    · omega
    · rwa [hself] at hlt
  rw [← hsame]
  exact SealedConfig.infix_lowerCase hall before after

end SecretName

open SecretName

/-- The name of a secret has one of the words in its lower-case form and has not the one for a path. -/
theorem isSecretName_iff (name : String) :
    isSecretName name = true ↔
      ¬pathWord.toList <:+: (lowerCase name).toList ∧ ∃ word ∈ words, word.toList <:+: (lowerCase name).toList := by
  simp only [isSecretName, Bool.and_eq_true, Bool.not_eq_true', ← Bool.not_eq_true, occurs_iff, List.any_eq_true]

/-- The case of ASCII letters never counts in a name, whatever stands around them. A name that has the word for a path in any case is not
that of a secret. A name that has one of the words for secrets in any case is, unless the lower-case form of the whole has the word for
a path. And two names that differ in the case of ASCII letters only are both names of secrets or neither is. -/
theorem isSecretName_ignoresCase :
    (∀ before word after : String, sameIgnoringCase word pathWord = true → isSecretName (before ++ word ++ after) = false) ∧
      (∀ before word after : String, ∀ pattern ∈ words, sameIgnoringCase word pattern = true →
        (isSecretName (before ++ word ++ after) = true ↔
          ¬pathWord.toList <:+: (lowerCase (before ++ word ++ after)).toList)) ∧
      ∀ name other : String, sameIgnoringCase name other = true → isSecretName name = isSecretName other := by
  refine ⟨?_, ?_, ?_⟩
  · intro before word after hword
    rw [← Bool.not_eq_true, isSecretName_iff, not_and]
    intro hpath
    exact absurd (isPlain_pathWord.infix_lowerCase hword before after) hpath
  · intro before word after pattern hpattern hword
    rw [isSecretName_iff, and_iff_left]
    exact ⟨pattern, hpattern, (isPlain_of_mem_words pattern hpattern).infix_lowerCase hword before after⟩
  · intro name other hsame
    rw [isSecretName, isSecretName, lowerCase_congr (sameIgnoringCase_iff.mp hsame)]

/-- Between a capital sigma, whose lower-case form depends on its neighbours, and a dotted capital I, which becomes two characters, the
words are found in mixed case. -/
theorem isSecretName_ignoresCase_sigma :
    (sameIgnoringCase "PaTh" "path" = true ∧ isSecretName ("Key\u03a3" ++ "PaTh" ++ "\u0130") = false) ∧
      ("token" ∈ words ∧ sameIgnoringCase "ToKeN" "token" = true ∧ isSecretName ("\u0391\u03a3" ++ "ToKeN" ++ "\u0130") = true) ∧
      sameIgnoringCase "\u03a3pAssPHRAse" "\u03a3Passphrase" = true ∧
        isSecretName "\u03a3pAssPHRAse" = isSecretName "\u03a3Passphrase" := by
  obtain ⟨hpath, hword, hsame⟩ := isSecretName_ignoresCase
  have hnone : occurs pathWord.toList (lowerCase ("\u0391\u03a3" ++ "ToKeN" ++ "\u0130")).toList = false := by decide +kernel
  refine ⟨⟨by decide, hpath _ _ _ (by decide)⟩, ⟨by decide, by decide, ?_⟩, by decide, hsame _ _ (by decide)⟩
  refine (hword _ _ _ "token" (by decide) (by decide)).mpr ?_
  rw [← occurs_iff, hnone]
  exact nofun

end SealedConfig
