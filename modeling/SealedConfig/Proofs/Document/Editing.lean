import Mathlib
import SealedConfig.Proofs.Document.Spelling

/-!
# Editing a document

Edits of texts at distinct paths, in whatever order they come, replace their literals in the text and these texts in the tree, and
nothing else of either.
-/

namespace SealedConfig.Document

open Json
open Json.Span (Found)

/-- A template whose literals are the texts of the tree, each at its path and where the walk over the text found it. -/
structure LaidOut (doc : Document) (found : Found) (template : Template) : Prop where
  text : template.text = doc.raw.toList
  distinct : template.paths.Nodup
  leaves : ∀ path, path ∈ template.paths ↔ (doc.tree.textAt? path).isSome
  located : ∀ path literal, Piece.slot path literal ∈ template →
    ∃ span, found.span? path = some span ∧ Span.slice? doc.raw.toList span = some literal.text
  spelled : ∀ path literal, Piece.slot path literal ∈ template → literalValue? literal.text = doc.tree.textAt? path

/-! ## Documents and their spellings -/

/-- A text has one document. -/
theorem eq_of_raw {a b : Document} (hp : a.path = b.path) (hr : a.raw = b.raw) : a = b := by
  obtain ⟨path, raw, tree, h⟩ := a
  obtain ⟨path', raw', tree', h'⟩ := b
  obtain rfl : path = path' := hp
  obtain rfl : raw = raw' := hr
  obtain rfl : tree = tree' := Except.ok.inj (h.symm.trans h')
  rfl

/-- A text that is read as a tree makes a document. -/
theorem read_eq_ok {raw : String} {tree : Json} (path : Option String) (h : readTree raw = .ok tree) :
    read path raw = .ok ⟨path, raw, tree, h⟩ := by
  unfold read
  split
  · rename_i tree' h'
    obtain rfl : tree' = tree := Except.ok.inj (h'.symm.trans h)
    rfl
  · rename_i fault h'
    rw [h] at h'
    cases h'

/-- A text is read as the document that has it. -/
theorem read_eq_ok_iff {path : Option String} {raw : String} {doc : Document} :
    read path raw = .ok doc ↔ doc.path = path ∧ doc.raw = raw := by
  constructor
  · intro h
    unfold read at h
    split at h
    · obtain rfl := Except.ok.inj h
      exact ⟨rfl, rfl⟩
    · cases h
  · rintro ⟨rfl, rfl⟩
    exact read_eq_ok doc.path doc.readTree_raw

/-- Every document has a spelling. -/
theorem exists_spelling (doc : Document) : ∃ sp : Spelling, sp.raw = doc.raw ∧ sp.src.tree = doc.tree :=
  Spelling.exists_of_readTree doc.readTree_raw

/-- The objects of a document have each key once. -/
theorem hasDistinctKeys (doc : Document) : doc.tree.HasDistinctKeys := by
  obtain ⟨sp, -, htree⟩ := doc.exists_spelling
  exact htree ▸ sp.src.hasDistinctKeys

/-- The template of the spelling is the layout of the document. -/
theorem laidOut_template {doc : Document} {sp : Spelling} (hr : sp.raw = doc.raw) (ht : sp.src.tree = doc.tree) :
    doc.LaidOut (sp.src.marks (some []) (utf8Length sp.mark + utf8Length sp.before.text)) sp.template where
  text := by rw [Spelling.text_template, hr]
  distinct := by rw [Spelling.paths_template]; exact sp.src.nodup_paths
  leaves path := by
    rw [Spelling.paths_template, ← ht]
    constructor
    · intro h
      obtain ⟨literal, hmem⟩ := Template.mem_paths.mp h
      rw [sp.src.textAt?_of_mem_template hmem]
      rfl
    · intro h
      obtain ⟨text, htext⟩ := Option.isSome_iff_exists.mp h
      exact sp.src.mem_paths_of_textAt? htext
  located path literal hmem := by
    obtain ⟨span, hspan, hslice⟩ := Template.slice?_of_mem hmem []
    refine ⟨span, sp.span?_of_mem_spans hspan, ?_⟩
    rw [List.nil_append, Spelling.text_template, hr] at hslice
    exact hslice
  spelled path literal hmem := by
    rw [Literal.literalValue?_text, ← ht, sp.src.textAt?_of_mem_template (sp.slot_mem_template.mp hmem)]

/-! ## Edits -/

/-- Edits of texts at distinct paths give the document that is spelled with these texts. -/
theorem replaceStrings_eq_ok {doc : Document} {sp : Spelling} (hr : sp.raw = doc.raw) (ht : sp.src.tree = doc.tree)
    {edits : List Edit} (hd : (edits.map Prod.fst).Nodup) (hl : ∀ edit ∈ edits, (doc.tree.textAt? edit.1).isSome) :
    ∃ edited, doc.replaceStrings edits = .ok edited ∧ edited.path = doc.path ∧
      (sp.withTexts (edits.lookup ·)).raw = edited.raw ∧ edited.tree = doc.tree.withTexts (edits.lookup ·) := by
  have hraw : (sp.withTexts (edits.lookup ·)).raw = String.ofList (sp.template.fill (edits.lookup ·)).text := by
    rw [← Spelling.raw_withTexts, String.ofList_toList]
  have htree : (sp.withTexts (edits.lookup ·)).src.tree = doc.tree.withTexts (edits.lookup ·) := by
    rw [← ht]
    exact sp.src.tree_withTexts _
  have hread := (sp.withTexts (edits.lookup ·)).readTree_raw
  have hlay := laidOut_template hr ht
  obtain ⟨targets, htargets, hsplice⟩ := Template.spliceAll_edits hlay.distinct
    (fun _ hslot => sp.span?_of_mem_spans hslot) hd fun edit hedit => (hlay.leaves edit.1).mpr (hl edit hedit)
  by_cases hempty : edits.isEmpty = true
  · obtain rfl : edits = [] := List.isEmpty_iff.mp hempty
    obtain rfl : [] = targets := Except.ok.inj htargets
    have hnone : spliceAll (fromLast []) sp.template.text = some sp.template.text := by simp [fromLast, spliceAll]
    have hsame : (sp.withTexts (List.lookup · [])).raw = doc.raw := by
      rw [hraw, ← Option.some.inj (hnone.symm.trans hsplice), hlay.text, String.ofList_toList]
    refine ⟨doc, rfl, rfl, hsame, ?_⟩
    rw [← htree]
    exact Except.ok.inj (doc.readTree_raw.symm.trans (hsame ▸ hread))
  · refine ⟨⟨doc.path, _, _, hread⟩, ?_, rfl, rfl, htree⟩
    rw [replaceStrings, if_neg hempty, ← hr, sp.locate_raw]
    dsimp only
    rw [htargets]
    dsimp only
    rw [← Spelling.text_template, hsplice]
    dsimp only
    rw [← hraw, read_eq_ok doc.path hread]

/-- An edited document came from the same file. -/
theorem path_of_replaceStrings {doc edited : Document} {edits : List Edit} (h : doc.replaceStrings edits = .ok edited) :
    edited.path = doc.path := by
  rw [replaceStrings] at h
  split at h
  · rw [Except.ok.inj h]
  · split at h
    · cases h
    · split at h
      · cases h
      · split at h
        · cases h
        · exact (read_eq_ok_iff.mp h).1

/-- The text that edits of distinct paths give a path does not depend on their order. -/
theorem lookup_eq_of_perm {edits others : List Edit} (hd : (edits.map Prod.fst).Nodup) (h : others.Perm edits)
    (path : KeyPath) : others.lookup path = edits.lookup path := by
  have hd' : (others.map Prod.fst).Nodup := (h.map Prod.fst).nodup_iff.mpr hd
  refine Option.ext fun text => ?_
  rw [lookup_eq_some_iff_mem hd', lookup_eq_some_iff_mem hd, h.mem_iff]

/-- Edits of texts at distinct paths succeed, in whatever order they come. In the text exactly their literals are replaced, each
standing where the walk found it and spelling the text before; in the tree exactly these texts are. -/
theorem replaceStrings_leaves (doc : Document) (edits : List Edit) (hd : (edits.map Prod.fst).Nodup)
    (hl : ∀ edit ∈ edits, (doc.tree.textAt? edit.1).isSome) :
    ∃ found template edited, locate doc.raw = .ok found ∧ doc.LaidOut found template ∧
      (∀ others, others.Perm edits → doc.replaceStrings others = .ok edited) ∧ edited.path = doc.path ∧
      edited.raw.toList = (template.fill (edits.lookup ·)).text ∧ edited.tree = doc.tree.withTexts (edits.lookup ·) := by
  obtain ⟨sp, hr, ht⟩ := doc.exists_spelling
  obtain ⟨edited, -, hpath, hraw, htree⟩ := replaceStrings_eq_ok hr ht hd hl
  refine ⟨_, sp.template, edited, hr ▸ sp.locate_raw, laidOut_template hr ht, fun others h => ?_, hpath, ?_, htree⟩
  · have hd' : (others.map Prod.fst).Nodup := (h.map Prod.fst).nodup_iff.mpr hd
    obtain ⟨edited', hok, hpath', hraw', -⟩ := replaceStrings_eq_ok hr ht hd' fun edit hedit => hl edit (h.mem_iff.mp hedit)
    have hsame : (others.lookup ·) = (edits.lookup ·) := funext (lookup_eq_of_perm hd h)
    rw [hok, eq_of_raw (hpath'.trans hpath.symm) (hraw'.symm.trans (hsame ▸ hraw))]
  · rw [← hraw, Spelling.raw_withTexts]

/-! ## Texts in place of others -/

/-- A document with other texts at some paths: in its tree these texts stand there and all else is as before, and in its text all but
their literals is as before. -/
structure Reworded (doc : Document) (texts : KeyPath → Option String) (found : Found) (template : Template) (edited : Document) :
    Prop where
  located : locate doc.raw = .ok found
  laidOut : doc.LaidOut found template
  raw : edited.raw.toList = (template.fill texts).text
  tree : edited.tree = doc.tree.withTexts texts

/-- Edits put their texts in place of others. -/
theorem reworded_of_replaceStrings {doc edited : Document} {edits : List Edit} (hd : (edits.map Prod.fst).Nodup)
    (hl : ∀ edit ∈ edits, (doc.tree.textAt? edit.1).isSome) (h : doc.replaceStrings edits = .ok edited) :
    ∃ found template, doc.Reworded (edits.lookup ·) found template edited := by
  obtain ⟨sp, hr, ht⟩ := doc.exists_spelling
  obtain ⟨edited', hok, -, hraw, htree⟩ := replaceStrings_eq_ok hr ht hd hl
  obtain rfl : edited = edited' := Except.ok.inj (h.symm.trans hok)
  exact ⟨_, sp.template, hr ▸ sp.locate_raw, laidOut_template hr ht, by rw [← hraw, Spelling.raw_withTexts], htree⟩

/-- Edits of an edited document put their texts in place of the first ones. -/
theorem reworded_of_replaceStrings_twice {doc middle edited : Document} {edits others : List Edit}
    (hd : (edits.map Prod.fst).Nodup) (hl : ∀ edit ∈ edits, (doc.tree.textAt? edit.1).isSome)
    (h : doc.replaceStrings edits = .ok middle) (hd' : (others.map Prod.fst).Nodup)
    (hl' : ∀ edit ∈ others, (middle.tree.textAt? edit.1).isSome) (h' : middle.replaceStrings others = .ok edited) :
    ∃ found template, doc.Reworded (fun path => (others.lookup path).or (edits.lookup path)) found template edited := by
  obtain ⟨sp, hr, ht⟩ := doc.exists_spelling
  obtain ⟨middle', hok, -, hraw, htree⟩ := replaceStrings_eq_ok hr ht hd hl
  obtain rfl : middle = middle' := Except.ok.inj (h.symm.trans hok)
  have hsrc : (sp.withTexts (edits.lookup ·)).src.tree = middle.tree := by
    rw [htree, ← ht]
    exact sp.src.tree_withTexts _
  obtain ⟨edited', hok', -, hraw', htree'⟩ := replaceStrings_eq_ok hraw hsrc hd' hl'
  obtain rfl : edited = edited' := Except.ok.inj (h'.symm.trans hok')
  refine ⟨_, sp.template, hr ▸ sp.locate_raw, laidOut_template hr ht, ?_, ?_⟩
  · rw [← hraw', Spelling.raw_withTexts, Spelling.template_withTexts, Template.fill_fill]
  · rw [htree', htree, withTexts_withTexts]

/-- A document with a byte order mark, a key that occurs again and an escape. -/
def repeatedKey : Document where
  path := none
  raw := "\ufeff\x7b\"a\": \x7b\"b/\": \"x\"\x7d, \"c\": [], \"a\": \x7b\"b/\": \"\\u00e9\"\x7d\x7d"
  tree := .object [("a", .object [("b/", .string "é")]), ("c", .array [])]
  readTree_raw := by cbv

/-- A key that occurs again leads to the later one of its values. -/
theorem replaceStrings_leaves_repeatedKey :
    ∃ edited, repeatedKey.replaceStrings [(["a", "b/"], "\"")] = .ok edited ∧
      edited.tree = .object [("a", .object [("b/", .string "\"")]), ("c", .array [])] := by
  obtain ⟨_, _, edited, -, -, hok, -, -, htree⟩ := replaceStrings_leaves repeatedKey [(["a", "b/"], "\"")] (by decide)
    fun edit hedit => by rw [List.mem_singleton.mp hedit]; rfl
  exact ⟨edited, hok _ (.refl _), htree⟩

end SealedConfig.Document
