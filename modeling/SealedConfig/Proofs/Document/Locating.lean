import SealedConfig.Proofs.Document.Editing
import SealedConfig.Proofs.Json.Recorded

/-!
# What is located in a document

The walk over the text of a document finds every text of its tree where it is spelled. It finds more than these only where a key
occurs again: a literal in an earlier value stays recorded when the value that counts has no text at its path.
-/

namespace SealedConfig

open Json
open Json.Span (Found)

namespace Document

/-- The text that a span of a document spells, when a literal stands there. -/
def spelledAt? (doc : Document) (span : Span) : Option String :=
  (Span.slice? doc.raw.toList span).bind literalValue?

/-- Exactly the texts of the tree are found, each in a span that spells it. -/
structure MatchesTree (doc : Document) (found : Found) : Prop where
  paths : ∀ path, (found.span? path).isSome ↔ (doc.tree.textAt? path).isSome
  spelled : ∀ path span, found.span? path = some span → doc.spelledAt? span = doc.tree.textAt? path

/-- A literal is spelled at a path and the tree has no text there: another value of one of its keys, later in the text, counts. -/
def Shadows (doc : Document) (path : KeyPath) : Prop :=
  doc.tree.textAt? path = none ∧ ∃ sp : Spelling, sp.raw = doc.raw ∧ path ∈ sp.src.wholeTemplate.paths

/-- No object that a path of keys leads to has a key twice in the text. -/
def HasKeysOnce (doc : Document) : Prop := ∃ sp : Spelling, sp.raw = doc.raw ∧ sp.src.HasKeysOnce

end Document

namespace Spelling

/-- The template of the whole text with all literals behind keys. -/
def wholeTemplate (sp : Spelling) : Template :=
  .fixed (sp.mark ++ sp.before.text) :: sp.src.wholeTemplate ++ [.fixed sp.after.text]

@[simp] theorem text_wholeTemplate (sp : Spelling) : sp.wholeTemplate.text = sp.raw.toList := by
  simp [wholeTemplate, raw, inside, Piece.text]

@[simp] theorem paths_wholeTemplate (sp : Spelling) : sp.wholeTemplate.paths = sp.src.wholeTemplate.paths := by
  simp [wholeTemplate, Template.paths]

/-- The walk over a text records the literals of its whole template, the last one first. -/
theorem locate_eq_spans (sp : Spelling) :
    Document.locate sp.raw = .ok (Template.spans 0 sp.wholeTemplate).reverse := by
  rw [sp.locate_raw, Source.marks_eq]
  simp [wholeTemplate, Template.spans]

end Spelling

namespace Document

/-! ## What is found -/

/-- A path is found just when some literal is spelled at it. -/
theorem isSome_span?_iff {sp : Spelling} {found : Found} (h : locate sp.raw = .ok found) (path : KeyPath) :
    (found.span? path).isSome ↔ path ∈ sp.src.wholeTemplate.paths := by
  obtain rfl := Except.ok.inj (sp.locate_eq_spans.symm.trans h)
  rw [Span.Found.span?, isSome_lookup_iff, List.map_reverse, List.mem_reverse, Template.map_fst_spans,
    Spelling.paths_wholeTemplate]

/-- A span that is found spells a text. -/
theorem isSome_spelledAt? {doc : Document} {found : Found} (h : locate doc.raw = .ok found) {path : KeyPath} {span : Span}
    (hs : found.span? path = some span) : (doc.spelledAt? span).isSome := by
  obtain ⟨sp, hr, -⟩ := doc.exists_spelling
  obtain rfl := Except.ok.inj (sp.locate_eq_spans.symm.trans (hr ▸ h))
  obtain ⟨literal, -, hslice⟩ := Template.slice?_of_mem_spans [] (List.mem_reverse.mp (mem_of_lookup hs))
  rw [List.nil_append, Spelling.text_wholeTemplate, hr] at hslice
  rw [spelledAt?, hslice, Option.bind_some, Literal.literalValue?_text]
  rfl

/-- A text of the tree is found in a span that spells it. -/
theorem exists_span_of_textAt? {doc : Document} {found : Found} (h : locate doc.raw = .ok found) {path : KeyPath}
    {text : String} (ht : doc.tree.textAt? path = some text) :
    ∃ span, found.span? path = some span ∧ doc.spelledAt? span = some text := by
  obtain ⟨sp, hr, htree⟩ := doc.exists_spelling
  obtain rfl := Except.ok.inj (sp.locate_raw.symm.trans (hr ▸ h))
  have hlaid := laidOut_template hr htree
  obtain ⟨literal, hslot⟩ := Template.mem_paths.mp ((hlaid.leaves path).mpr (ht ▸ rfl))
  obtain ⟨span, hspan, hslice⟩ := hlaid.located path literal hslot
  exact ⟨span, hspan, by rw [spelledAt?, hslice, Option.bind_some, hlaid.spelled path literal hslot, ht]⟩

/-- A path is found when the tree has a text there, and else when a literal is spelled there that the tree does not have. -/
theorem isSome_span?_iff_shadows {doc : Document} {found : Found} (h : locate doc.raw = .ok found) (path : KeyPath) :
    (found.span? path).isSome ↔ (doc.tree.textAt? path).isSome ∨ doc.Shadows path := by
  constructor
  · intro hf
    cases ht : doc.tree.textAt? path with
    | some text => exact Or.inl rfl
    | none =>
      obtain ⟨sp, hr, -⟩ := doc.exists_spelling
      exact Or.inr ⟨ht, sp, hr, (isSome_span?_iff (hr ▸ h) path).mp hf⟩
  · rintro (ht | ⟨-, sp, hr, hmem⟩)
    · obtain ⟨text, ht⟩ := Option.isSome_iff_exists.mp ht
      obtain ⟨span, hspan, -⟩ := exists_span_of_textAt? h ht
      exact hspan ▸ rfl
    · exact (isSome_span?_iff (hr ▸ h) path).mpr hmem

/-- What is found matches the tree just when the text has no literal at a path where the tree has no text. -/
theorem matchesTree_iff {doc : Document} {found : Found} (h : locate doc.raw = .ok found) :
    doc.MatchesTree found ↔ ∀ path, ¬doc.Shadows path := by
  constructor
  · intro hm path hs
    have := (hm.paths path).mp ((isSome_span?_iff_shadows h path).mpr (Or.inr hs))
    rw [hs.1] at this
    cases this
  · intro hn
    have hpaths : ∀ path, (found.span? path).isSome ↔ (doc.tree.textAt? path).isSome := fun path =>
      (isSome_span?_iff_shadows h path).trans (or_iff_left (hn path))
    refine ⟨hpaths, ?_⟩
    intro path span hspan
    obtain ⟨text, ht⟩ := Option.isSome_iff_exists.mp ((hpaths path).mp (hspan ▸ rfl))
    obtain ⟨span', hspan', hspelled⟩ := exists_span_of_textAt? h ht
    obtain rfl := Option.some.inj (hspan.symm.trans hspan')
    rw [hspelled, ht]

/-- Where no key occurs again, every literal is a text of the tree. -/
theorem not_shadows_of_hasKeysOnce {doc : Document} (h : doc.HasKeysOnce) (path : KeyPath) : ¬doc.Shadows path := by
  rintro ⟨hnone, sp', hr', hmem⟩
  obtain ⟨sp, hr, honce⟩ := h
  have htree : sp.src.tree = doc.tree := Except.ok.inj (sp.readTree_raw.symm.trans (hr ▸ doc.readTree_raw))
  have hfound := (isSome_span?_iff (hr' ▸ hr ▸ sp.locate_eq_spans) path).mpr hmem
  rw [isSome_span?_iff sp.locate_eq_spans, sp.src.wholeTemplate_eq honce] at hfound
  obtain ⟨literal, hslot⟩ := Template.mem_paths.mp hfound
  rw [← htree, sp.src.textAt?_of_mem_template hslot] at hnone
  cases hnone

/-- Every text that is read can be walked, and all that is found is a literal. Each text of the tree is found in a span that spells
it, and besides these texts only the literals are found that the text has at a path where the tree has no text. So what is found
matches the tree just when the text has no such literals, and it does when no key occurs again. -/
theorem locate_finds_texts (doc : Document) :
    ∃ found, locate doc.raw = .ok found ∧
      (∀ path text, doc.tree.textAt? path = some text →
        ∃ span, found.span? path = some span ∧ doc.spelledAt? span = some text) ∧
      (∀ path span, found.span? path = some span → (doc.spelledAt? span).isSome) ∧
      (∀ path, (found.span? path).isSome ↔ (doc.tree.textAt? path).isSome ∨ doc.Shadows path) ∧
      (doc.MatchesTree found ↔ ∀ path, ¬doc.Shadows path) ∧ (doc.HasKeysOnce → doc.MatchesTree found) := by
  obtain ⟨sp, hr, -⟩ := doc.exists_spelling
  have hok := hr ▸ sp.locate_eq_spans
  refine ⟨_, hok, fun path text => exists_span_of_textAt? hok, fun path span => isSome_spelledAt? hok,
    isSome_span?_iff_shadows hok, matchesTree_iff hok, ?_⟩
  intro honce
  exact (matchesTree_iff hok).mpr (not_shadows_of_hasKeysOnce honce)

/-- A document in which the later value of a key is no text and the earlier one is. -/
def shadowed : Document where
  path := none
  raw := "\x7b\"a\": \"x\", \"a\": 1\x7d"
  tree := .object [("a", .number (.integer 1))]
  readTree_raw := by cbv

/-- The literal of an earlier value is found although the tree has no text. -/
theorem locate_shadowed :
    locate shadowed.raw = .ok [(["a"], ⟨6, 9⟩)] ∧ shadowed.tree.textAt? ["a"] = none ∧
      ¬∃ found, locate shadowed.raw = .ok found ∧ shadowed.MatchesTree found := by
  have hok : locate shadowed.raw = .ok [(["a"], ⟨6, 9⟩)] := by cbv
  refine ⟨hok, rfl, ?_⟩
  rintro ⟨found, hfound, hmatches⟩
  obtain rfl := Except.ok.inj (hok.symm.trans hfound)
  exact absurd ((hmatches.paths ["a"]).mp rfl) (by decide)

end Document

end SealedConfig
