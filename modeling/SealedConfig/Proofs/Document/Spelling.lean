import SealedConfig.Document.Basic
import SealedConfig.Proofs.Json.Layout

/-!
# The spelling of a document

The text of a document is a source between blanks, behind a byte order mark or none. Its template is the layout of the document: the
literals of the texts of its tree, each where the walk over the text finds it.
-/

namespace SealedConfig

open Json

/-- A byte order mark or none, and a value between blanks. -/
structure Spelling where
  mark : List Char
  isMark : mark = [] ∨ mark = [byteOrderMark]
  before : Gap
  src : Source
  after : Gap
  depth_le : src.depth ≤ nestingLimit

namespace Spelling

/-- The characters behind the mark. -/
def inside (sp : Spelling) : List Char := sp.before.text ++ sp.src.text ++ sp.after.text

/-- The text that is spelled. -/
def raw (sp : Spelling) : String := String.ofList (sp.mark ++ sp.inside)

/-- The template of the whole text. -/
def template (sp : Spelling) : Template :=
  .fixed (sp.mark ++ sp.before.text) :: sp.src.template ++ [.fixed sp.after.text]

/-- The spelling with other texts at the paths that have one. -/
def withTexts (sp : Spelling) (texts : KeyPath → Option String) : Spelling :=
  { sp with
    src := sp.src.withTexts texts
    depth_le := by rw [Source.depth_withTexts]; exact sp.depth_le }

end Spelling

/-! ## The mark -/

namespace SpellingAux

/-- No value begins with a byte order mark. -/
theorem head?_ne_byteOrderMark (src : Source) : src.text.head? ≠ some byteOrderMark := by
  intro h
  obtain ⟨c, tail, hc, -⟩ := src.exists_head
  have hread := src.read (2 * src.text.length) src.depth (Nat.le_refl _) (Nat.le_refl _)
    stops_nil
  rw [List.append_nil] at hread
  rw [hc, List.head?_cons, Option.some.injEq] at h
  subst h
  rw [hc, List.length_cons, show 2 * (tail.length + 1) = 2 * tail.length + 1 + 1 by omega, readValue,
    skipBlanks_cons (by decide)] at hread
  cases hread

end SpellingAux

open SpellingAux

namespace Spelling

/-- Behind the mark stand the blanks and the value. -/
theorem body_raw (sp : Spelling) : Document.body sp.raw = (utf8Length sp.mark, sp.inside) := by
  rw [Document.body, raw, String.toList_ofList]
  rcases sp.isMark with hm | hm
  · obtain ⟨c, tail, hc, -⟩ := sp.src.exists_head
    obtain ⟨d, rest, hd, hne⟩ : ∃ d rest, sp.inside = d :: rest ∧ d ≠ byteOrderMark := by
      rw [inside]
      rcases hb : sp.before.text with _ | ⟨d, rest⟩
      · refine ⟨c, tail ++ sp.after.text, by rw [hc]; rfl, ?_⟩
        rintro rfl
        exact head?_ne_byteOrderMark sp.src (by rw [hc]; rfl)
      · refine ⟨d, rest ++ sp.src.text ++ sp.after.text, by simp, ?_⟩
        rintro rfl
        exact absurd (sp.before.blank byteOrderMark (hb ▸ List.mem_cons_self)) (by decide)
    rw [hm, hd]
    simp [hne]
  · rw [hm]
    simp

/-- The text that is spelled is read as the tree of its source. -/
theorem readTree_raw (sp : Spelling) : Document.readTree sp.raw = .ok sp.src.tree := by
  rw [Document.readTree, body_raw]
  exact parse_source sp.before sp.src sp.after sp.depth_le

/-- The walk over the text records the marks of its source. -/
theorem locate_raw (sp : Spelling) :
    Document.locate sp.raw = .ok (sp.src.marks (some []) (utf8Length sp.mark + utf8Length sp.before.text)) := by
  rw [Document.locate, body_raw]
  exact walk_source _ sp.before sp.src sp.after

/-- Every text that is read as a tree has a spelling. -/
theorem exists_of_readTree {text : String} {tree : Json} (h : Document.readTree text = .ok tree) :
    ∃ sp : Spelling, sp.raw = text ∧ sp.src.tree = tree := by
  obtain ⟨before, src, after, hbody, htree, hd⟩ := exists_source_of_parse h
  obtain ⟨mark, hm, htext⟩ : ∃ mark, (mark = [] ∨ mark = [byteOrderMark]) ∧ text.toList = mark ++ (Document.body text).2 := by
    rw [Document.body]
    rcases text.toList with _ | ⟨c, rest⟩
    · exact ⟨[], Or.inl rfl, rfl⟩
    · by_cases hc : c = byteOrderMark
      · exact ⟨[byteOrderMark], Or.inr rfl, by simp [hc]⟩
      · exact ⟨[], Or.inl rfl, by simp [hc]⟩
  refine ⟨⟨mark, hm, before, src, after, hd⟩, ?_, htree⟩
  rw [raw, inside, ← hbody, ← htext, String.ofList_toList]

/-! ## The template -/

@[simp] theorem text_template (sp : Spelling) : sp.template.text = sp.raw.toList := by
  simp [template, raw, inside, Piece.text]

@[simp] theorem paths_template (sp : Spelling) : sp.template.paths = sp.src.template.paths := by
  simp [template, Template.paths]

/-- The literals of the template are those of the source. -/
theorem slot_mem_template (sp : Spelling) {path : KeyPath} {literal : Literal} :
    Piece.slot path literal ∈ sp.template ↔ Piece.slot path literal ∈ sp.src.template := by
  simp [template]

theorem template_withTexts (sp : Spelling) (texts : KeyPath → Option String) :
    (sp.withTexts texts).template = sp.template.fill texts := by
  simp [template, withTexts, Source.template_withTexts, Piece.fill]

/-- The text with other texts is the filled template. -/
theorem raw_withTexts (sp : Spelling) (texts : KeyPath → Option String) :
    (sp.withTexts texts).raw.toList = (sp.template.fill texts).text := by
  rw [← text_template, template_withTexts]

/-- The walk over the text finds every literal of the template where it stands. -/
theorem span?_of_mem_spans (sp : Spelling) {slot : KeyPath × Span} (h : slot ∈ Template.spans 0 sp.template) :
    Span.Found.span? (sp.src.marks (some []) (utf8Length sp.mark + utf8Length sp.before.text)) slot.1 = some slot.2 := by
  simp only [template, List.cons_append, Template.spans, Template.spans_append, List.append_nil, Nat.zero_add,
    utf8Length_append] at h
  exact sp.src.lookup_marks [] h

end Spelling

end SealedConfig
