import Mathlib.Data.List.TakeWhile
import SealedConfig.Age.Armor
import SealedConfig.Age.Identity
import SealedConfig.Proofs.Cipher.Canonical
import SealedConfig.Proofs.Cipher.Envelope
import SealedConfig.Proofs.Document.Scan
import SealedConfig.Proofs.Document.Spelling

/-!
# Texts of keys and identities

A document with secrets is an object, so it begins with a brace, blanks and a byte order mark aside. The text of a master key, an
armored file and the text of an identity each begin with another character: none of them is a document that has secrets.
-/

namespace SealedConfig

/-- The first character of a text that is not blank. -/
def firstMark? (text : String) : Option Char := (trimStart text.toList).head?

/-- A text that begins, blanks aside, neither with a brace nor with a byte order mark. -/
def OpensNoObject (text : String) : Prop := ∃ c, firstMark? text = some c ∧ c ≠ '\x7b' ∧ c ≠ byteOrderMark

/-! ## Documents -/

namespace ContentAux

/-- Blanks of a document are blank. -/
theorem isBlank_of_jsonBlank {c : Char} (h : Json.isBlank c = true) : isBlank c = true := by
  unfold Json.isBlank at h
  simp only [Bool.or_eq_true, beq_iff_eq] at h
  rcases h with ((rfl | rfl) | rfl) | rfl <;> decide

/-- Only an object that is not empty has secrets. -/
theorem exists_fields_of_ofTree {src : Json.Source} (h : Scan.ofTree src.tree ≠ []) : ∃ fields, src = .object fields := by
  cases src with
  | atom atom =>
    have hatomic := atom.atomic
    refine absurd ?_ h
    rw [Json.Source.tree]
    cases hvalue : atom.value with
    | object members =>
      rw [hvalue] at hatomic
      cases members with
      | nil => rfl
      | cons member members => exact hatomic.elim
    | null => rfl
    | bool b => rfl
    | number n => rfl
    | string s => rfl
    | array items => rfl
  | string literal => exact absurd rfl h
  | array items => exact absurd rfl h
  | object fields => exact ⟨fields, rfl⟩

end ContentAux

open ContentAux

/-- A text that opens no object is that of no document with secrets. -/
theorem ofDocument_eq_nil {doc : Document} (h : OpensNoObject doc.raw) : Scan.ofDocument doc = [] := by
  obtain ⟨c, hfirst, hbrace, hmark⟩ := h
  obtain ⟨sp, hraw, htree⟩ := Spelling.exists_of_readTree doc.readTree_raw
  refine Decidable.byContradiction fun hsome => ?_
  obtain ⟨fields, hsrc⟩ : ∃ fields, sp.src = .object fields := by
    refine exists_fields_of_ofTree ?_
    rw [htree]
    exact hsome
  have htext : doc.raw.toList = sp.mark ++ (sp.before.text ++ ('\x7b' :: fields.text ++ ['\x7d'] ++ sp.after.text)) := by
    rw [← hraw, Spelling.raw, String.toList_ofList, Spelling.inside, hsrc, Json.Source.text]
    simp only [List.append_assoc]
  have hblank : ∀ d ∈ sp.before.text, isBlank d = true := fun d hd => isBlank_of_jsonBlank (sp.before.blank d hd)
  unfold firstMark? trimStart at hfirst
  rw [htext] at hfirst
  rcases sp.isMark with hnone | hsome
  · rw [hnone, List.nil_append, List.dropWhile_append_of_pos hblank] at hfirst
    exact hbrace (Option.some.inj hfirst).symm
  · rw [hsome] at hfirst
    exact hmark (Option.some.inj hfirst).symm

/-! ## Master keys and armored files -/

namespace ContentAux

/-- A text that is not blank keeps its first character when it is trimmed. -/
theorem head?_trimEnd {c : Char} (hc : isBlank c = false) (rest : List Char) : trimEnd (c :: rest) = c :: trimEnd rest := by
  unfold trimEnd
  rw [List.reverse_cons, List.dropWhile_append]
  split
  · rename_i hempty
    rw [List.isEmpty_iff.mp hempty, List.dropWhile_cons, hc]
    rfl
  · rw [List.reverse_append]
    rfl

/-- Trimming leaves the first character that is not blank. -/
theorem head?_trim (text : String) : (trim text).toList.head? = firstMark? text := by
  unfold trim firstMark?
  rw [String.toList_ofList]
  cases htrimmed : trimStart text.toList with
  | nil => rfl
  | cons c rest =>
    have hc : isBlank c = false := by
      refine @isBlank_of_head?_dropWhile text.toList _ ?_
      unfold trimStart at htrimmed
      rw [htrimmed]
      rfl
    rw [head?_trimEnd hc]
    rfl

/-- What the written text of a key may begin with: no brace, no mark, no dash and no blank. -/
def IsKeyHead (c : Char) : Prop := c ≠ '\x7b' ∧ c ≠ byteOrderMark ∧ c ≠ '-' ∧ isBlank c = false

theorem isKeyHead_symbol : ∀ n < 64, IsKeyHead (Char.ofNat (Base64.standard.symbol n).toNat) := by
  unfold IsKeyHead
  decide

/-- What is written for bytes begins with a symbol or with padding. -/
theorem exists_head_encode {bytes : Bytes} (hne : bytes ≠ []) :
    ∃ c rest, (Base64.standard.encode bytes).toList = c :: rest ∧ IsKeyHead c := by
  cases hbytes : Base64.standard.encodeBytes bytes with
  | nil => exact absurd hbytes (Base64.Variant.RoundTripAux.encodeBytes_ne_nil hne)
  | cons b rest =>
    have hmem : b ∈ Base64.standard.encodeBytes bytes := by
      rw [hbytes]
      exact List.mem_cons_self
    refine ⟨Char.ofNat b.toNat, rest.map fun b => Char.ofNat b.toNat, ?_, ?_⟩
    · rw [Base64.Variant.encode, String.toList_ofList, hbytes]
      rfl
    · rcases Base64.Variant.RoundTripAux.isWritten_of_mem hmem with ⟨-, rfl⟩ | ⟨n, hn, rfl⟩
      · unfold IsKeyHead
        decide
      · exact isKeyHead_symbol n hn

end ContentAux

/-- The text of a master key opens no object. -/
theorem opensNoObject_of_ofBase64 {text : String} {key : MasterKey} (h : MasterKey.ofBase64 text = .ok key) : OpensNoObject text := by
  unfold MasterKey.ofBase64 at h
  split at h
  · cases h
  · rename_i bytes hdecode
    have htext : trim text = Base64.standard.encode bytes :=
      (Base64.Variant.decode_eq_ok_iff Base64.isLawful_standard).mp hdecode
    have hne : bytes ≠ [] := by
      rintro rfl
      cases h
    obtain ⟨c, rest, hlist, hbrace, hmark, -, -⟩ := exists_head_encode hne
    refine ⟨c, ?_, hbrace, hmark⟩
    rw [← head?_trim, htext, hlist]
    rfl

/-- An armored file opens no object. -/
theorem opensNoObject_of_isArmored {text : String} (h : Age.Armor.isArmored text = true) : OpensNoObject text := by
  unfold Age.Armor.isArmored at h
  obtain ⟨rest, hrest⟩ := List.isPrefixOf_iff_prefix.mp h
  refine ⟨'-', ?_, by decide, by decide⟩
  unfold firstMark?
  rw [← hrest]
  rfl

/-- The written text of a master key does not look armored. -/
theorem isArmored_toBase64 (key : MasterKey) : Age.Armor.isArmored (key.toBase64 ++ "\n") = false := by
  have hne : key.toBytes ≠ [] := by
    intro hnil
    have hlen := congrArg List.length hnil
    rw [MasterKey.toBytes, Vector.length_toList] at hlen
    cases hlen
  obtain ⟨c, rest, hlist, -, -, hdash, hblank⟩ := exists_head_encode hne
  have hstart : trimStart (key.toBase64 ++ "\n").toList = c :: (rest ++ ['\n']) := by
    unfold trimStart MasterKey.toBase64
    rw [String.toList_append, hlist, List.cons_append, List.dropWhile_cons, hblank]
    rfl
  unfold Age.Armor.isArmored
  rw [hstart, Bool.eq_false_iff]
  intro hprefix
  obtain ⟨behind, hbehind⟩ := List.isPrefixOf_iff_prefix.mp hprefix
  exact hdash (List.cons.inj hbehind).1.symm

/-! ## Identities -/

namespace ContentAux

/-- The first line of a text, and the lines behind its line feed if it has one. -/
theorem lines_cases {cs line : List Char} {more : List (List Char)} (h : lines cs = line :: more) :
    (more = [] ∧ cs = line) ∨ ∃ rest, cs = line ++ '\n' :: rest ∧ lines rest = more := by
  induction cs generalizing line more with
  | nil =>
    obtain ⟨rfl, rfl⟩ := List.cons.inj h
    exact Or.inl ⟨rfl, rfl⟩
  | cons c cs ih =>
    unfold lines at h
    split at h
    · rename_i hc
      obtain ⟨rfl, rfl⟩ := List.cons.inj h
      exact Or.inr ⟨cs, by rw [hc]; rfl, rfl⟩
    · split at h
      · rename_i hnone
        obtain ⟨rfl, rfl⟩ := List.cons.inj h
        cases cs with
        | nil => cases hnone
        | cons d cs =>
          unfold lines at hnone
          split at hnone
          · cases hnone
          · split at hnone <;> cases hnone
      · rename_i first others hfirst
        obtain ⟨rfl, rfl⟩ := List.cons.inj h
        rcases ih hfirst with ⟨rfl, rfl⟩ | ⟨rest, rfl, hrest⟩
        · exact Or.inl ⟨rfl, rfl⟩
        · exact Or.inr ⟨rest, rfl, hrest⟩

/-- Blanks before a text are passed over with the blank line that they fill. -/
theorem trimStart_blankLine {line rest : List Char} (h : ∀ c ∈ line, isBlank c = true) :
    trimStart (line ++ '\n' :: rest) = trimStart rest := by
  unfold trimStart
  rw [List.dropWhile_append_of_pos h]
  exact List.dropWhile_cons_of_pos (by decide)

/-- A text begins as its first line does, if that is not blank. -/
theorem head?_trimStart_of_lines {cs line rest : List Char} {more : List (List Char)} {c : Char} (hlines : lines cs = line :: more)
    (hline : trimStart line = c :: rest) : (trimStart cs).head? = some c := by
  rcases lines_cases hlines with ⟨-, rfl⟩ | ⟨behind, rfl, -⟩
  · rw [hline]
    rfl
  · unfold trimStart at hline ⊢
    rw [List.dropWhile_append, hline]
    rfl

/-- The line that a text is read from begins like the text, unless a remark does. -/
theorem firstMark?_of_find? {pieces : List (List Char)} {cs : List Char} {found : String} (hlines : lines cs = pieces)
    (h : (pieces.map fun line => trim (String.ofList line)).find?
      (fun line => line != "" && line.toList.head? != some '#') = some found) :
    ∃ c, (trimStart cs).head? = some c ∧ (c = '#' ∨ found.toList.head? = some c) := by
  induction pieces generalizing cs with
  | nil => cases h
  | cons line more ih =>
    have hfirst : (trim (String.ofList line)).toList.head? = (trimStart line).head? := by
      rw [head?_trim, firstMark?, String.toList_ofList]
    cases hline : trimStart line with
    | nil =>
      -- a blank line is passed over
      have hempty : trim (String.ofList line) = "" := by
        rw [trim, String.toList_ofList, hline]
        rfl
      rw [List.map_cons, hempty] at h
      rcases lines_cases hlines with ⟨rfl, -⟩ | ⟨rest, rfl, hrest⟩
      · cases h
      · rw [trimStart_blankLine (List.dropWhile_eq_nil_iff.mp hline)]
        exact ih hrest h
    | cons c rest =>
      rw [hline, List.head?_cons] at hfirst
      refine ⟨c, head?_trimStart_of_lines hlines hline, ?_⟩
      by_cases hremark : c = '#'
      · exact Or.inl hremark
      · -- a line that is no remark is the one that is read
        have htaken : ((trim (String.ofList line)) != "" && (trim (String.ofList line)).toList.head? != some '#') = true := by
          rw [Bool.and_eq_true, bne_iff_ne, bne_iff_ne, hfirst]
          refine ⟨?_, fun heq => hremark (Option.some.inj heq)⟩
          intro hempty
          rw [hempty] at hfirst
          cases hfirst
        rw [List.map_cons, List.find?_cons, htaken] at h
        rw [← Option.some.inj h, hfirst]
        exact Or.inr rfl

/-- The word of an identity begins with a letter, small or capital. -/
theorem head?_of_ofWord? {word : String} {identity : Age.Identity} (h : Age.Identity.ofWord? word = some identity) :
    ∃ c, word.toList.head? = some c ∧ c.toLower = 'a' := by
  unfold Age.Identity.ofWord? at h
  split at h
  · rename_i label bytes hdecode
    split at h
    · rename_i hlabel
      subst hlabel
      -- only the cut of the word and the label that is read of it matter
      obtain ⟨_, -, hdecode⟩ := Option.bind_eq_some_iff.mp hdecode
      obtain ⟨_, -, hdecode⟩ := Option.bind_eq_some_iff.mp hdecode
      obtain ⟨⟨name, symbols⟩, hsplit, hdecode⟩ := Option.bind_eq_some_iff.mp hdecode
      obtain ⟨_, -, hdecode⟩ := Option.bind_eq_some_iff.mp hdecode
      obtain ⟨values, -, hdecode⟩ := Option.bind_eq_some_iff.mp hdecode
      obtain ⟨_, -, hdecode⟩ := Option.bind_eq_some_iff.mp hdecode
      obtain ⟨read, -, hread⟩ := Option.bind_eq_some_iff.mp hdecode
      have hname : String.ofList name = Age.Identity.secretLabel := (Prod.mk.inj (Option.some.inj hread)).1
      have hlist : name = Age.Identity.secretLabel.toList := by
        rw [← hname, String.toList_ofList]
      have hfirst : name.head? = some 'a' := by
        rw [hlist]
        rfl
      unfold Bech32.split? at hsplit
      dsimp only at hsplit
      split at hsplit
      · have htake := (Prod.mk.inj (Option.some.inj hsplit)).1
        rw [← htake, List.head?_take] at hfirst
        split at hfirst
        · cases hfirst
        · rw [List.head?_map] at hfirst
          exact Option.map_eq_some_iff.mp hfirst
      · cases hsplit
    · cases h
  · cases h

end ContentAux

/-- The text of an identity opens no object. -/
theorem opensNoObject_of_ofText? {text : String} {identity : Age.Identity} (h : Age.Identity.ofText? text = some identity) :
    OpensNoObject text := by
  unfold Age.Identity.ofText? Age.Identity.trimmedLines at h
  split at h
  · rename_i line hline
    obtain ⟨c, hc, hremark | hhead⟩ := firstMark?_of_find? rfl hline
    · exact ⟨c, hc, by rw [hremark]; decide, by rw [hremark]; decide⟩
    · obtain ⟨c', hhead', hlower⟩ := head?_of_ofWord? h
      obtain rfl : c = c' := Option.some.inj (hhead.symm.trans hhead')
      refine ⟨c, hc, ?_, ?_⟩
      all_goals
        rintro rfl
        exact absurd hlower (by decide)
  · cases h

end SealedConfig
