import Mathlib.Data.List.TakeWhile
import SealedConfig.Text.Blank

/-!
# Texts between blanks

Every text is what trimming leaves of it between blank characters. A text without blanks is what trimming leaves exactly of the
texts in which it stands between blanks.
-/

namespace SealedConfig

variable {text word : String}

/-! ## Blanks that are dropped -/

/-- Behind the blanks that are dropped stands a character that is not blank. -/
theorem isBlank_of_head?_dropWhile {cs : List Char} {c : Char} (h : (cs.dropWhile isBlank).head? = some c) : isBlank c = false := by
  have hhead := List.head?_dropWhile_not isBlank cs
  rw [h] at hhead
  exact hhead

/-- No blanks are dropped in front of a character that is not blank. -/
theorem dropWhile_isBlank_eq_self {cs : List Char} (h : ∀ c, cs.head? = some c → isBlank c = false) : cs.dropWhile isBlank = cs := by
  cases cs with
  | nil => rfl
  | cons c cs =>
    rw [List.dropWhile_cons, h c rfl]
    rfl

theorem exists_trimStart (cs : List Char) : ∃ before, (∀ c ∈ before, isBlank c = true) ∧ cs = before ++ trimStart cs :=
  ⟨cs.takeWhile isBlank, fun _ hc => List.mem_takeWhile_imp hc, List.takeWhile_append_dropWhile.symm⟩

theorem exists_trimEnd (cs : List Char) : ∃ after, (∀ c ∈ after, isBlank c = true) ∧ cs = trimEnd cs ++ after := by
  obtain ⟨before, hblank, hcs⟩ := exists_trimStart cs.reverse
  refine ⟨before.reverse, fun c hc => hblank c (List.mem_reverse.mp hc), ?_⟩
  rw [← List.reverse_inj, List.reverse_append, List.reverse_reverse, trimEnd, List.reverse_reverse]
  exact hcs

/-! ## Trimming -/

/-- A word stands in a text between blanks. -/
def IsPadded (word text : String) : Prop :=
  ∃ before after, (∀ c ∈ before, isBlank c = true) ∧ (∀ c ∈ after, isBlank c = true) ∧ text.toList = before ++ word.toList ++ after

theorem isPadded_self (word : String) : IsPadded word word :=
  ⟨[], [], nofun, nofun, by rw [List.nil_append, List.append_nil]⟩

/-- What trimming leaves of a text stands in it between blanks. -/
theorem isPadded_trim (text : String) : IsPadded (trim text) text := by
  obtain ⟨before, hbefore, hstart⟩ := exists_trimStart text.toList
  obtain ⟨after, hafter, hend⟩ := exists_trimEnd (trimStart text.toList)
  refine ⟨before, after, hbefore, hafter, ?_⟩
  rw [trim, String.toList_ofList, List.append_assoc, ← hend, ← hstart]

/-- A word that neither begins nor ends with a blank is what trimming leaves of a text in which it stands between blanks. -/
theorem trim_of_isPadded (h : IsPadded word text) (hhead : ∀ c, word.toList.head? = some c → isBlank c = false)
    (hlast : ∀ c, word.toList.getLast? = some c → isBlank c = false) : trim text = word := by
  obtain ⟨before, after, hbefore, hafter, htext⟩ := h
  have hafter' : ∀ c ∈ after.reverse, isBlank c = true := fun c hc => hafter c (List.mem_reverse.mp hc)
  have hstart : trimStart (before ++ word.toList ++ after) = trimStart (word.toList ++ after) := by
    rw [List.append_assoc, trimStart, List.dropWhile_append_of_pos hbefore, trimStart]
  have hend : trimEnd (trimStart (word.toList ++ after)) = word.toList := by
    cases hcs : word.toList with
    | nil =>
      -- of blanks alone nothing is left
      rw [List.nil_append, trimStart, List.dropWhile_eq_nil_iff.mpr hafter]
      rfl
    | cons c cs =>
      have hkept : trimStart (c :: cs ++ after) = c :: cs ++ after := by
        refine dropWhile_isBlank_eq_self fun d hd => hhead d ?_
        rw [hcs]
        exact hd
      rw [hkept, trimEnd, List.reverse_append, List.dropWhile_append_of_pos hafter', ← hcs,
        dropWhile_isBlank_eq_self fun d hd => hlast d (List.head?_reverse.symm.trans hd), List.reverse_reverse]
  rw [trim, htext, hstart, hend, String.ofList_toList]

/-- A trimmed text is not trimmed any further. -/
theorem trim_trim (text : String) : trim (trim text) = trim text := by
  refine trim_of_isPadded (isPadded_self _) (fun c hc => ?_) fun c hc => ?_
  · rw [trim, String.toList_ofList] at hc
    obtain ⟨after, -, hend⟩ := exists_trimEnd (trimStart text.toList)
    have hhead : (trimStart text.toList).head? = some c := by
      rw [hend, List.head?_append, hc]
      rfl
    exact isBlank_of_head?_dropWhile hhead
  · rw [trim, String.toList_ofList, trimEnd, List.getLast?_reverse] at hc
    exact isBlank_of_head?_dropWhile hc

section

variable (h : ∀ c ∈ word.toList, isBlank c = false)
include h

/-- A word without blanks is what trimming leaves exactly of the texts in which it stands between blanks. -/
theorem trim_eq_iff : trim text = word ↔ IsPadded word text := by
  constructor
  · rintro rfl
    exact isPadded_trim text
  · intro hpadded
    exact trim_of_isPadded hpadded (fun c hc => h c (List.mem_of_mem_head? hc)) fun c hc => h c (List.mem_of_getLast? hc)

/-- A word without blanks is not trimmed. -/
theorem trim_eq_self : trim word = word := (trim_eq_iff h).mpr (isPadded_self word)

/-- Of a line with a word without blanks only the end of the line is trimmed. -/
theorem trim_line : trim (word ++ "\n") = word := by
  refine (trim_eq_iff h).mpr ⟨[], ['\n'], nofun, List.forall_mem_singleton.mpr rfl, ?_⟩
  rw [String.toList_append]
  rfl

end

end SealedConfig
