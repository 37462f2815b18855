import Mathlib.Data.List.Nodup
import SealedConfig.Proofs.Json.Template

/-!
# Literals that are replaced again

Of several replacements of one literal the last one stays, when each of those before it takes as many bytes as the literal did: then
the next one finds the literal where it was. Replacements of one literal keep their order when they are sorted.
-/

namespace SealedConfig.Json

open Json.Span

/-! ## Sorting by falling keys -/

section

variable {α : Type} (key : α → Nat)

/-- Sorted by falling keys, what has one key stays in its order. -/
theorem filter_mergeSort (items : List α) (k : Nat) :
    (items.mergeSort fun a b => decide (key b ≤ key a)).filter (key · = k) = items.filter (key · = k) := by
  have hsorted : (items.filter (key · = k)).Pairwise fun a b => decide (key b ≤ key a) = true := by
    refine List.pairwise_of_forall_mem_list fun a ha b hb => ?_
    have hka : key a = k := by simpa using (List.mem_filter.mp ha).2
    have hkb : key b = k := by simpa using (List.mem_filter.mp hb).2
    simp [hka, hkb]
  have hsub : (items.filter (key · = k)).Sublist (items.mergeSort fun a b => decide (key b ≤ key a)) := by
    refine List.sublist_mergeSort ?_ ?_ hsorted List.filter_sublist
    · intro a b c hab hbc
      simp only [decide_eq_true_eq] at hab hbc ⊢
      omega
    · intro a b
      simp only [Bool.or_eq_true, decide_eq_true_eq]
      omega
  have hfiltered := hsub.filter (key · = k)
  simp only [List.filter_filter, Bool.and_self] at hfiltered
  exact (hfiltered.eq_of_length ((List.mergeSort_perm items _).filter _).length_eq.symm).symm

/-- Sorted by falling keys, the items with the lowest key are the last ones. -/
theorem eq_filter_append_filter {items : List α} (hitems : items.Pairwise fun a b => key b ≤ key a) {k : Nat}
    (hlow : ∀ item ∈ items, k ≤ key item) : items = items.filter (key · ≠ k) ++ items.filter (key · = k) := by
  induction items with
  | nil => rfl
  | cons item items ih =>
    obtain ⟨hfirst, hitems⟩ := List.pairwise_cons.mp hitems
    by_cases hk : key item = k
    · -- nothing lies below the lowest key, so what comes behind it has this key too
      have hall : ∀ other ∈ item :: items, key other = k := by
        intro other hother
        rcases List.mem_cons.mp hother with rfl | hmem
        · exact hk
        · exact Nat.le_antisymm (hk ▸ hfirst other hmem) (hlow other hother)
      have hnone : (item :: items).filter (key · ≠ k) = [] := by
        rw [List.filter_eq_nil_iff]
        intro other hother
        simp [hall other hother]
      rw [hnone, List.nil_append, List.filter_eq_self.mpr fun other hother => by simp [hall other hother]]
    · rw [List.filter_cons_of_pos (by simpa using hk), List.filter_cons_of_neg (by simpa using hk), List.cons_append,
        ← ih hitems fun other hother => hlow other (List.mem_cons_of_mem _ hother)]

/-- What is sorted by falling keys is the runs of its keys, from the highest one to the lowest. -/
theorem eq_flatMap_filter {keys : List Nat} (hkeys : keys.Pairwise (· < ·)) {items : List α}
    (hitems : items.Pairwise fun a b => key b ≤ key a) (hmem : ∀ item ∈ items, key item ∈ keys) :
    items = keys.reverse.flatMap fun k => items.filter (key · = k) := by
  induction keys generalizing items with
  | nil => exact List.eq_nil_iff_forall_not_mem.mpr fun item hitem => by simpa using hmem item hitem
  | cons k keys ih =>
    obtain ⟨hfirst, hkeys⟩ := List.pairwise_cons.mp hkeys
    have hlow : ∀ item ∈ items, k ≤ key item := by
      intro item hitem
      rcases List.mem_cons.mp (hmem item hitem) with heq | hlater
      · exact Nat.le_of_eq heq.symm
      · exact Nat.le_of_lt (hfirst _ hlater)
    have hhigh : items.filter (key · ≠ k) = keys.reverse.flatMap fun other => (items.filter (key · ≠ k)).filter (key · = other) := by
      refine ih hkeys (hitems.sublist List.filter_sublist) fun item hitem => ?_
      obtain ⟨hitem, hne⟩ := List.mem_filter.mp hitem
      exact (List.mem_cons.mp (hmem item hitem)).resolve_left (by simpa using hne)
    have hruns : ∀ other ∈ keys.reverse, (items.filter (key · ≠ k)).filter (key · = other) = items.filter (key · = other) := by
      intro other hother
      have hne : k < other := hfirst other (List.mem_reverse.mp hother)
      rw [List.filter_filter]
      refine List.filter_congr fun item _ => ?_
      rw [Bool.and_eq_left_iff_imp]
      simp only [decide_eq_true_eq]
      omega
    rw [List.reverse_cons, List.flatMap_append, List.flatMap_singleton, ← List.flatMap_congr hruns, ← hhigh]
    exact eq_filter_append_filter key hitems hlow

end

namespace Template

/-! ## Replacing literals again -/

/-- The replacements of literals by texts, those of one literal in the order of its texts. -/
def runs (texts : KeyPath → List String) (slots : List (KeyPath × Span)) : List (Span × List Char) :=
  slots.flatMap fun (path, span) => (texts path).map fun text => (span, literal text)

/-- A literal of a template has a span that is as long as the literal. -/
theorem exists_span_of_mem {template : Template} {path : KeyPath} {literal : Literal} (h : Piece.slot path literal ∈ template)
    (offset : Nat) : ∃ span, (path, span) ∈ spans offset template ∧ span.stop = span.start + utf8Length literal.text := by
  induction template generalizing offset with
  | nil => cases h
  | cons piece template ih =>
    rcases List.mem_cons.mp h with rfl | hrest
    · exact ⟨_, List.mem_cons_self, rfl⟩
    · cases piece with
      | fixed text => exact ih hrest _
      | slot path' literal' =>
        obtain ⟨span, hmem, hlength⟩ := ih hrest (offset + utf8Length literal'.text)
        exact ⟨span, List.mem_cons_of_mem _ hmem, hlength⟩

/-- Texts fit a template when those that do not stay take as many bytes as the literal at their path. -/
def Fits (texts : KeyPath → List String) (template : Template) : Prop :=
  ∀ path literal, Piece.slot path literal ∈ template →
    ∀ text ∈ (texts path).dropLast, utf8Length (Json.literal text) = utf8Length literal.text

/-- Of texts that replace a part one after the other the last one stays, if those before it are as long as the part. -/
theorem spliceAll_run (before inside after : List Char) {texts : List String}
    (hfits : ∀ text ∈ texts.dropLast, utf8Length (literal text) = utf8Length inside) :
    Document.spliceAll (texts.map fun text => (covering before inside, literal text)) (before ++ inside ++ after) =
      some (before ++ (texts.getLast?.map literal).getD inside ++ after) := by
  induction texts generalizing inside with
  | nil => rfl
  | cons text texts ih =>
    rw [List.map_cons, Document.spliceAll, splice?_covering, Option.bind_some]
    cases texts with
    | nil => rfl
    | cons next texts =>
      have hlength : utf8Length (literal text) = utf8Length inside := hfits text List.mem_cons_self
      have hcovers : covering before inside = covering before (literal text) := by rw [covering, covering, hlength]
      rw [hcovers, ih (literal text) fun later hlater => (hfits later (List.mem_cons_of_mem _ hlater)).trans hlength.symm]
      rfl

/-- Replacements of literals, from the last one to the first, fill a template with the last text of each path, if the texts fit. -/
theorem spliceAll_runs {texts : KeyPath → List String} {template : Template} (hfits : template.Fits texts) (before : List Char) :
    Document.spliceAll (runs texts (spans (utf8Length before) template).reverse) (before ++ template.text) =
      some (before ++ (template.fill fun path => (texts path).getLast?).text) := by
  induction template generalizing before with
  | nil => rfl
  | cons piece template ih =>
    have hrest := ih (fun path literal hslot => hfits path literal (List.mem_cons_of_mem _ hslot)) (before ++ piece.text)
    rw [utf8Length_append] at hrest
    cases piece with
    | fixed stays =>
      rw [text_cons, fill_cons, text_cons, ← List.append_assoc, ← List.append_assoc]
      exact hrest
    | slot path old =>
      have hpiece : ((Piece.slot path old).fill fun path => (texts path).getLast?).text =
          ((texts path).getLast?.map literal).getD old.text := by
        cases hlast : (texts path).getLast? <;> simp [Piece.fill, Piece.text, hlast]
      have hruns : runs texts (spans (utf8Length before) (.slot path old :: template)).reverse =
          runs texts (spans (utf8Length before + utf8Length old.text) template).reverse ++
            (texts path).map fun text => (covering before old.text, literal text) := by
        simp [runs, spans, covering]
      rw [hruns, spliceAll_append, text_cons, ← List.append_assoc]
      rw [show (Piece.slot path old).text = old.text from rfl] at hrest ⊢
      rw [hrest, Option.bind_some, spliceAll_run before old.text _ (hfits path old List.mem_cons_self), fill_cons, text_cons, hpiece,
        List.append_assoc]

/-! ## Edits -/

/-- The texts that edits give a path, in their order. -/
def textsFor (edits : List Edit) (path : KeyPath) : List String := (edits.filter (·.1 = path)).map Prod.snd

@[simp] theorem textsFor_cons_self (edit : Edit) (edits : List Edit) :
    textsFor (edit :: edits) edit.1 = edit.2 :: textsFor edits edit.1 := by
  simp [textsFor]

theorem textsFor_cons_of_ne {edit : Edit} {path : KeyPath} (h : edit.1 ≠ path) (edits : List Edit) :
    textsFor (edit :: edits) path = textsFor edits path := by
  simp [textsFor, h]

/-- A path has texts just when it is edited. -/
theorem textsFor_ne_nil_iff {edits : List Edit} {path : KeyPath} : textsFor edits path ≠ [] ↔ path ∈ edits.map Prod.fst := by
  rw [textsFor, ne_eq, List.map_eq_nil_iff, List.filter_eq_nil_iff, List.mem_map]
  simp

/-- The text that edits give a path last. -/
def lastText (edits : List Edit) (path : KeyPath) : Option String := (textsFor edits path).getLast?

/-- A path has a last text just when it is edited. -/
theorem isSome_lastText_iff {edits : List Edit} {path : KeyPath} : (lastText edits path).isSome ↔ path ∈ edits.map Prod.fst := by
  rw [lastText, List.getLast?_isSome, textsFor_ne_nil_iff]

/-- The replacements that edits ask for: the span that was found for each path, and the literal of its text. -/
def aimed (found : Found) (edits : List Edit) : List (Span × List Char) :=
  edits.map fun edit => ((found.span? edit.1).getD default, literal edit.2)

section

variable {template : Template} {found : Found} {edits : List Edit}

/-- Of edits that are aimed at the literals of a template those for one literal are the ones whose spans begin where it does. -/
theorem filter_targets (hfound : ∀ slot ∈ spans 0 template, found.span? slot.1 = some slot.2)
    (hmem : ∀ edit ∈ edits, edit.1 ∈ template.paths) {slot : KeyPath × Span} (hslot : slot ∈ spans 0 template) :
    (aimed found edits).filter (·.1.start = slot.2.start) =
      (textsFor edits slot.1).map fun text => (slot.2, literal text) := by
  have hstarts : ((spans 0 template).map (·.2.start)).Nodup := List.pairwise_map.mpr ((pairwise_spans 0 template).imp Nat.ne_of_lt)
  have hsame : ∀ edit ∈ edits, ((found.span? edit.1).getD default).start = slot.2.start ↔ edit.1 = slot.1 := by
    intro edit hedit
    obtain ⟨other, hother, hpath⟩ := List.mem_map.mp ((map_fst_spans 0 template).symm ▸ hmem edit hedit)
    rw [← hpath, hfound other hother, Option.getD_some]
    constructor
    · intro hstart
      rw [List.inj_on_of_nodup_map hstarts hother hslot hstart]
    · intro heq
      have hspan := hfound other hother
      rw [heq, hfound slot hslot] at hspan
      rw [Option.some.inj hspan]
  have hfilter : edits.filter ((fun target : Span × List Char => decide (target.1.start = slot.2.start)) ∘
      fun edit => ((found.span? edit.1).getD default, literal edit.2)) = edits.filter (·.1 = slot.1) :=
    List.filter_congr fun edit hedit => decide_eq_decide.mpr (hsame edit hedit)
  rw [aimed, textsFor, List.filter_map, List.map_map, hfilter]
  refine List.map_congr_left fun edit hedit => ?_
  have hpath : edit.1 = slot.1 := by simpa using (List.mem_filter.mp hedit).2
  rw [hpath, hfound slot hslot]
  rfl

/-- The targets of edits are sorted to be the runs of the literals, from the last one to the first. -/
theorem fromLast_eq_runs (hfound : ∀ slot ∈ spans 0 template, found.span? slot.1 = some slot.2)
    (hmem : ∀ edit ∈ edits, edit.1 ∈ template.paths) :
    Document.fromLast (aimed found edits) = runs (textsFor edits) (spans 0 template).reverse := by
  have hkeys : ((spans 0 template).map (·.2.start)).Pairwise (· < ·) := List.pairwise_map.mpr (pairwise_spans 0 template)
  have hstart : ∀ target ∈ Document.fromLast (aimed found edits), target.1.start ∈ (spans 0 template).map (·.2.start) := by
    intro target htarget
    obtain ⟨edit, hedit, rfl⟩ := List.mem_map.mp ((List.mergeSort_perm _ _).mem_iff.mp htarget)
    obtain ⟨slot, hslot, hpath⟩ := List.mem_map.mp ((map_fst_spans 0 template).symm ▸ hmem edit hedit)
    rw [← hpath, hfound slot hslot]
    exact List.mem_map_of_mem hslot
  have hruns := eq_flatMap_filter (fun target : Span × List Char => target.1.start) hkeys (pairwise_fromLast _) hstart
  rw [hruns, ← List.map_reverse, List.flatMap_map, runs]
  refine List.flatMap_congr fun slot hslot => ?_
  rw [Document.fromLast, filter_mergeSort fun target : Span × List Char => target.1.start]
  exact filter_targets hfound hmem (List.mem_reverse.mp hslot)

/-- Edits of literals of a template, in whatever order they come, fill it with the last text of each path, if the texts fit. -/
theorem spliceAll_edits_again (hfound : ∀ slot ∈ spans 0 template, found.span? slot.1 = some slot.2)
    (hmem : ∀ edit ∈ edits, edit.1 ∈ template.paths) (hfits : template.Fits (textsFor edits)) :
    ∃ targets, Document.targets found edits = .ok targets ∧
      Document.spliceAll (Document.fromLast targets) template.text = some (template.fill (lastText edits)).text := by
  refine ⟨aimed found edits, targets_eq_ok (fun path => (found.span? path).getD default) fun edit hedit => ?_, ?_⟩
  · obtain ⟨slot, hslot, hpath⟩ := List.mem_map.mp ((map_fst_spans 0 template).symm ▸ hmem edit hedit)
    rw [← hpath, hfound slot hslot, Option.getD_some]
  · rw [fromLast_eq_runs hfound hmem]
    exact spliceAll_runs hfits []

end

end Template

end SealedConfig.Json
