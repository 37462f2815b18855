import SealedConfig.Proofs.Document.Locating
import SealedConfig.Proofs.Json.Repeated
import SealedConfig.Proofs.Json.Rewritten

/-!
# Editing a path again

All edits of a document are aimed at the literals of the text before. So an edit of a path that is edited again has to leave the
literal as long as it was. When each such edit does, edits of whatever paths that are found succeed, in whatever order they come, and
each text that is edited becomes what its last edit says. Otherwise the next edit of the path hits other bytes than the literal.
-/

namespace SealedConfig

open Json
open Json.Span (Found)
open Json.Template (isSome_lastText_iff lastText textsFor textsFor_cons_of_ne textsFor_cons_self textsFor_ne_nil_iff)

namespace Spelling

/-- The spelling with other texts in place of the last literals of the paths that have one. -/
def rewritten (sp : Spelling) (texts : KeyPath → Option String) : Spelling :=
  { sp with
    src := sp.src.rewritten texts
    depth_le := by rw [Source.depth_rewritten]; exact sp.depth_le }

/-- The rewritten text is the whole template, filled where a path has its last literal. -/
theorem raw_rewritten (sp : Spelling) (texts : KeyPath → Option String) :
    (sp.rewritten texts).raw.toList = (sp.wholeTemplate.settled.fill texts).text := by
  rw [wholeTemplate, List.cons_append, Template.settled, Template.fill_cons, Template.text_cons, Template.text_fill_settled_append]
  simp [rewritten, raw, inside, Template.settled, Template.paths, Piece.fill, Piece.text, Source.text_rewritten]

end Spelling

namespace Document

/-! ## Edits that fit -/

/-- Edits fit the literals that were found when each edit of a path that a later one edits again takes as many bytes as the literal. -/
def FitAgain (found : Found) : List Edit → Prop
  | [] => True
  | edit :: edits =>
    (edit.1 ∈ edits.map Prod.fst →
      ∀ span, found.span? edit.1 = some span → utf8Length (Json.literal edit.2) = span.stop - span.start) ∧ FitAgain found edits

/-- Edits of distinct paths fit. -/
theorem fitAgain_of_nodup (found : Found) {edits : List Edit} (h : (edits.map Prod.fst).Nodup) : FitAgain found edits := by
  induction edits with
  | nil => trivial
  | cons edit edits ih =>
    obtain ⟨hnew, hrest⟩ := List.nodup_cons.mp h
    exact ⟨fun hagain => absurd hagain hnew, ih hrest⟩

/-- The texts of a path that do not stay are as long as its literal. -/
theorem FitAgain.length_eq {found : Found} {edits : List Edit} (h : FitAgain found edits) {path : KeyPath} {span : Span}
    (hspan : found.span? path = some span) {text : String} (ht : text ∈ (textsFor edits path).dropLast) :
    utf8Length (Json.literal text) = span.stop - span.start := by
  induction edits with
  | nil => cases ht
  | cons edit edits ih =>
    obtain ⟨hfirst, hrest⟩ := h
    by_cases hpath : edit.1 = path
    · subst hpath
      rw [textsFor_cons_self] at ht
      cases hlater : textsFor edits edit.1 with
      | nil =>
        rw [hlater] at ht
        cases ht
      | cons later others =>
        have hagain : edit.1 ∈ edits.map Prod.fst := textsFor_ne_nil_iff.mp (hlater ▸ List.cons_ne_nil later others)
        rw [hlater, List.dropLast_cons_cons, List.mem_cons] at ht
        rcases ht with rfl | ht
        · exact hfirst hagain span hspan
        · exact ih hrest (hlater ▸ ht)
    · rw [textsFor_cons_of_ne hpath] at ht
      exact ih hrest ht

/-- Edits that fit the literals that were found fit the template of these literals. -/
theorem FitAgain.fits {template : Template} {found : Found} {edits : List Edit} (h : FitAgain found edits)
    (hfound : ∀ slot ∈ Template.spans 0 template, found.span? slot.1 = some slot.2) : template.Fits (textsFor edits) := by
  intro path literal hslot text ht
  obtain ⟨span, hspan, hlength⟩ := Template.exists_span_of_mem hslot 0
  rw [h.length_eq (hfound _ hspan) ht, hlength, Nat.add_sub_cancel_left]

/-! ## Edits that fail -/

variable {doc : Document} {found : Found} {edits before rest : List Edit} {path : KeyPath} {value : String}

/-- The first edit of a path at which no literal was found is refused. -/
theorem targets_of_noText (hbefore : ∀ edit ∈ before, (found.span? edit.1).isSome) (hnone : found.span? path = none) :
    targets found (before ++ (path, value) :: rest) = .error (.noText path) := by
  induction before with
  | nil => rw [List.nil_append, targets, hnone]
  | cons edit before ih =>
    obtain ⟨span, hspan⟩ := Option.isSome_iff_exists.mp (hbefore edit List.mem_cons_self)
    rw [List.cons_append, targets, hspan, ih fun other hother => hbefore other (List.mem_cons_of_mem _ hother)]

/-- Edits of which one has no literal fail at the first such one. -/
theorem replaceStrings_of_noText (hfound : locate doc.raw = .ok found) (hbefore : ∀ edit ∈ before, (found.span? edit.1).isSome)
    (hnone : found.span? path = none) : doc.replaceStrings (before ++ (path, value) :: rest) = .error (.noText path) := by
  rw [replaceStrings, if_neg (by simp), hfound]
  dsimp only
  rw [targets_of_noText hbefore hnone]

/-- Edits all have a literal, or there is a first one that has none. -/
theorem located_or_split (found : Found) (edits : List Edit) :
    (∀ edit ∈ edits, (found.span? edit.1).isSome) ∨ ∃ before path value rest, edits = before ++ (path, value) :: rest ∧
      (∀ edit ∈ before, (found.span? edit.1).isSome) ∧ found.span? path = none := by
  induction edits with
  | nil => exact Or.inl nofun
  | cons edit edits ih =>
    cases hspan : found.span? edit.1 with
    | none => exact Or.inr ⟨[], edit.1, edit.2, edits, rfl, nofun, hspan⟩
    | some span =>
      rcases ih with hall | ⟨before, path, value, rest, rfl, hbefore, hnone⟩
      · refine Or.inl fun other hother => ?_
        rcases List.mem_cons.mp hother with rfl | hother
        · rw [hspan]
          rfl
        · exact hall other hother
      · refine Or.inr ⟨edit :: before, path, value, rest, rfl, fun other hother => ?_, hnone⟩
        rcases List.mem_cons.mp hother with rfl | hother
        · rw [hspan]
          rfl
        · exact hbefore other hother

/-! ## Edits that succeed -/

/-- When every edit has its place and what comes of them is read as a tree, edits give the document of that text. -/
theorem replaceStrings_of_spliced (hfound : locate doc.raw = .ok found) (hsome : edits ≠ []) {aimed : List (Span × List Char)}
    (haimed : targets found edits = .ok aimed) {text : String} (hsplice : spliceAll (fromLast aimed) doc.raw.toList = some text.toList)
    {tree : Json} (hread : readTree text = .ok tree) : doc.replaceStrings edits = .ok ⟨doc.path, text, tree, hread⟩ := by
  rw [replaceStrings, if_neg (by simpa using hsome), hfound]
  dsimp only
  rw [haimed]
  dsimp only
  rw [hsplice]
  dsimp only
  rw [String.ofList_toList, read_eq_ok doc.path hread]

/-- Edits of paths that are found and that fit give the tree with the last text of each path. -/
theorem replaceStrings_of_fitAgain (hfound : locate doc.raw = .ok found) (hall : ∀ edit ∈ edits, (found.span? edit.1).isSome)
    (hfits : FitAgain found edits) :
    ∃ edited, doc.replaceStrings edits = .ok edited ∧ edited.path = doc.path ∧ edited.tree = doc.tree.withTexts (lastText edits) := by
  obtain ⟨sp, hr, ht⟩ := doc.exists_spelling
  obtain rfl := Except.ok.inj (sp.locate_eq_spans.symm.trans (hr ▸ hfound))
  have hsettled : ∀ slot ∈ Template.spans 0 sp.wholeTemplate.settled,
      Span.Found.span? (Template.spans 0 sp.wholeTemplate).reverse slot.1 = some slot.2 := fun slot hslot =>
    Template.lookup_of_mem_spans_settled hslot
  have hpaths : ∀ edit ∈ edits, edit.1 ∈ sp.wholeTemplate.settled.paths := by
    intro edit hedit
    rw [Template.mem_paths_settled, Spelling.paths_wholeTemplate]
    exact (isSome_span?_iff sp.locate_eq_spans edit.1).mp (hall edit hedit)
  obtain ⟨aimed, haimed, hsplice⟩ := Template.spliceAll_edits_again hsettled hpaths (hfits.fits hsettled)
  have hread : readTree (sp.rewritten (lastText edits)).raw = .ok (doc.tree.withTexts (lastText edits)) := by
    rw [Spelling.readTree_raw, Spelling.rewritten, Source.tree_rewritten, ht]
  rw [Template.text_settled, Spelling.text_wholeTemplate, hr, ← Spelling.raw_rewritten] at hsplice
  by_cases hempty : edits = []
  · subst hempty
    exact ⟨doc, rfl, rfl, (withTexts_eq_self doc.tree (ht ▸ sp.src.hasDistinctKeys) _ fun path text _ => rfl).symm⟩
  · exact ⟨_, replaceStrings_of_spliced hfound hempty haimed hsplice hread, rfl, rfl⟩

/-- A text that is edited becomes what its last edit says. -/
theorem textAt?_withLastTexts {tree : Json} (hedited : path ∈ edits.map Prod.fst) (htext : (tree.textAt? path).isSome) :
    (tree.withTexts (lastText edits)).textAt? path = lastText edits path := by
  obtain ⟨old, hold⟩ := Option.isSome_iff_exists.mp htext
  obtain ⟨new, hnew⟩ := Option.isSome_iff_exists.mp (isSome_lastText_iff.mpr hedited)
  rw [textAt?_withTexts, hold, hnew]
  rfl

/-- Edits fail at the first path at which no literal is found. When all are found, and each edit of a path that is edited again leaves
the literal as long as it was, they succeed, and in the tree exactly the texts that are edited change, each to its last edit; edits
of distinct paths always fit so. Whatever comes of edits, the text that they leave is read as the tree that they leave. -/
theorem replaceStrings_again (doc : Document) (edits : List Edit) :
    ∃ found, locate doc.raw = .ok found ∧ ((edits.map Prod.fst).Nodup → FitAgain found edits) ∧
      (∀ edited, doc.replaceStrings edits = .ok edited → edited.path = doc.path ∧ readTree edited.raw = .ok edited.tree) ∧
      (∀ before path value rest, edits = before ++ (path, value) :: rest → (∀ edit ∈ before, (found.span? edit.1).isSome) →
        found.span? path = none → doc.replaceStrings edits = .error (.noText path)) ∧
      ((∀ edit ∈ edits, (found.span? edit.1).isSome) → FitAgain found edits →
        ∃ edited, doc.replaceStrings edits = .ok edited ∧ edited.tree = doc.tree.withTexts (lastText edits) ∧
          ∀ path ∈ edits.map Prod.fst, (doc.tree.textAt? path).isSome → edited.tree.textAt? path = lastText edits path) ∧
      ∀ fault, doc.replaceStrings edits = .error fault →
        (∃ path ∈ edits.map Prod.fst, found.span? path = none ∧ fault = .noText path) ∨ ¬FitAgain found edits := by
  obtain ⟨sp, hr, -⟩ := doc.exists_spelling
  have hfound := hr ▸ sp.locate_eq_spans
  refine ⟨_, hfound, fitAgain_of_nodup _, fun edited hok => ⟨path_of_replaceStrings hok, edited.readTree_raw⟩, ?_, ?_, ?_⟩
  · rintro before path value rest rfl hbefore hnone
    exact replaceStrings_of_noText hfound hbefore hnone
  · intro hall hfits
    obtain ⟨edited, hok, -, htree⟩ := replaceStrings_of_fitAgain hfound hall hfits
    refine ⟨edited, hok, htree, fun path hedited htext => ?_⟩
    rw [htree, textAt?_withLastTexts hedited htext]
  · intro fault hfault
    rcases located_or_split _ edits with hall | ⟨before, path, value, rest, rfl, hbefore, hnone⟩
    · refine Or.inr fun hfits => ?_
      obtain ⟨edited, hok, -⟩ := replaceStrings_of_fitAgain hfound hall hfits
      rw [hok] at hfault
      cases hfault
    · rw [replaceStrings_of_noText hfound hbefore hnone] at hfault
      exact Or.inl ⟨path, by simp, hnone, (Except.error.inj hfault).symm⟩

/-- A document with one text. -/
def oneText : Document where
  path := none
  raw := "\x7b\"a\":\"xyz\"\x7d"
  tree := .object [("a", .string "xyz")]
  readTree_raw := by cbv

/-- A text that is edited to one as long and then again becomes what the second edit says. -/
theorem replaceStrings_again_fits :
    ∃ edited, oneText.replaceStrings [(["a"], "abc"), (["a"], "")] = .ok edited ∧ edited.tree = .object [("a", .string "")] := by
  obtain ⟨found, hfound, -, -, -, hfits, -⟩ := replaceStrings_again oneText [(["a"], "abc"), (["a"], "")]
  have hlocated : locate oneText.raw = .ok [(["a"], ⟨5, 10⟩)] := by cbv
  obtain rfl := Except.ok.inj (hlocated.symm.trans hfound)
  have hall : ∀ edit ∈ [((["a"] : KeyPath), "abc"), (["a"], "")],
      (Found.span? [((["a"] : KeyPath), (⟨5, 10⟩ : Span))] edit.1).isSome := by simp [Found.span?]
  have hlength : utf8Length (Json.literal "abc") = 10 - 5 := by cbv
  have hagain : FitAgain [((["a"] : KeyPath), (⟨5, 10⟩ : Span))] [(["a"], "abc"), (["a"], "")] :=
    ⟨fun _ span hspan => Option.some.inj hspan ▸ hlength, fun h => absurd h List.not_mem_nil, trivial⟩
  obtain ⟨edited, hok, htree, -⟩ := hfits hall hagain
  exact ⟨edited, hok, htree⟩

/-- A document with a long text and a short one. -/
def twoTexts : Document where
  path := none
  raw := "\x7b\"a\":\"01234567\",\"b\":\"k\"\x7d"
  tree := .object [("a", .string "01234567"), ("b", .string "k")]
  readTree_raw := by cbv

/-- A text that is edited to a shorter one and then again is not replaced, or the second edit takes along what stands behind it. -/
theorem replaceStrings_again_misplaced :
    oneText.replaceStrings [(["a"], ""), (["a"], "q")] = .error .misplacedEdit ∧
      (twoTexts.replaceStrings [(["a"], ""), (["a"], "q")]).map Document.tree = .ok (.object [("a", .string "q")]) := by
  constructor
  · cbv
  · have hread : readTree "\x7b\"a\":\"q\"\x7d" = .ok (.object [("a", .string "q")]) := by cbv
    have hfound : locate twoTexts.raw = .ok [(["b"], ⟨20, 23⟩), (["a"], ⟨5, 15⟩)] := by cbv
    rw [replaceStrings_of_spliced hfound (List.cons_ne_nil _ _) rfl (by cbv) hread]
    rfl

end Document

end SealedConfig
