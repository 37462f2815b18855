import SealedConfig.Document.Basic
import SealedConfig.Proofs.Json.Leaf
import SealedConfig.Proofs.Json.Literal

/-!
# Templates

A template is a text cut into stretches that stay and literals that may be replaced, each at its path of keys. Filling a template
replaces literals and keeps everything else in its place. Replacements that are made from the last one of the text to the first
fill the template.
-/

namespace SealedConfig.Json

open Json.Span

/-- A stretch of a text: characters that stay, or the literal at a path of keys. -/
inductive Piece where
  | fixed (text : List Char)
  | slot (path : KeyPath) (literal : Literal)

/-- The characters of a stretch. -/
def Piece.text : Piece → List Char
  | .fixed text => text
  | .slot _ literal => literal.text

/-- The stretch below a further key. -/
def Piece.under (key : String) : Piece → Piece
  | .fixed text => .fixed text
  | .slot path literal => .slot (key :: path) literal

/-- The stretch with the printed literal of another text, when there is one for its path. -/
def Piece.fill (texts : KeyPath → Option String) : Piece → Piece
  | .fixed text => .fixed text
  | .slot path literal => .slot path (((texts path).map Literal.written).getD literal)

/-- A text as a row of stretches. -/
abbrev Template := List Piece

namespace Template

/-- The characters of a template. -/
def text (template : Template) : List Char := template.flatMap Piece.text

/-- The template with literals replaced by the printed ones of other texts. -/
def fill (template : Template) (texts : KeyPath → Option String) : Template := template.map (Piece.fill texts)

/-- The paths of the literals, in the order of the text. -/
def paths : Template → List KeyPath
  | [] => []
  | .fixed _ :: template => paths template
  | .slot path _ :: template => path :: paths template

/-- The bytes that each literal covers, in the order of the text, in a template that begins at a byte. -/
def spans (offset : Nat) : Template → List (KeyPath × Span)
  | [] => []
  | .fixed text :: template => spans (offset + utf8Length text) template
  | .slot path literal :: template =>
    (path, ⟨offset, offset + utf8Length literal.text⟩) :: spans (offset + utf8Length literal.text) template

/-- The literals that are replaced: where each stands, and the text that it becomes. -/
def chosen (texts : KeyPath → Option String) (spans : List (KeyPath × Span)) : List (KeyPath × Span × String) :=
  spans.filterMap fun (path, span) => (texts path).map fun text => (path, span, text)

/-! ## Text, paths and spans -/

@[simp] theorem text_nil : text [] = [] := rfl

@[simp] theorem text_cons (piece : Piece) (template : Template) :
    text (piece :: template) = piece.text ++ text template := rfl

@[simp] theorem text_append (first second : Template) : text (first ++ second) = text first ++ text second :=
  List.flatMap_append

@[simp] theorem text_map_under (key : String) (template : Template) :
    text (template.map (Piece.under key)) = text template := by
  induction template with
  | nil => rfl
  | cons piece template ih => cases piece <;> simp [Piece.under, Piece.text, ih]

@[simp] theorem fill_nil (texts : KeyPath → Option String) : fill [] texts = [] := rfl

@[simp] theorem fill_cons (piece : Piece) (template : Template) (texts : KeyPath → Option String) :
    fill (piece :: template) texts = piece.fill texts :: fill template texts := rfl

@[simp] theorem fill_append (first second : Template) (texts : KeyPath → Option String) :
    fill (first ++ second) texts = fill first texts ++ fill second texts := List.map_append

/-- A template below a key is filled with the texts below that key. -/
theorem fill_map_under (key : String) (template : Template) (texts : KeyPath → Option String) :
    fill (template.map (Piece.under key)) texts =
      (fill template fun path => texts (key :: path)).map (Piece.under key) := by
  simp only [fill, List.map_map]
  refine List.map_congr_left fun piece _ => ?_
  cases piece <;> rfl

/-- Filling a template with texts that its literals already are written as changes nothing. -/
theorem text_fill_eq {template : Template} {texts : KeyPath → Option String}
    (h : ∀ path literal, Piece.slot path literal ∈ template →
      ∀ value, texts path = some value → literal.text = Json.literal value) :
    (template.fill texts).text = template.text := by
  induction template with
  | nil => rfl
  | cons piece template ih =>
    have hrest := ih fun path literal hmem => h path literal (List.mem_cons_of_mem _ hmem)
    rw [fill_cons, text_cons, text_cons, hrest]
    cases piece with
    | fixed text => rfl
    | slot path literal =>
      cases hvalue : texts path with
      | none => rw [Piece.fill, hvalue]; rfl
      | some value =>
        have hsame := h path literal List.mem_cons_self value hvalue
        simp [Piece.fill, Piece.text, hvalue, hsame]

/-- Filling a filled template is filling it once, where the later texts come first. -/
theorem fill_fill (template : Template) (texts others : KeyPath → Option String) :
    (template.fill texts).fill others = template.fill fun path => (others path).or (texts path) := by
  rw [fill, fill, fill, List.map_map]
  refine List.map_congr_left fun piece _ => ?_
  cases piece with
  | fixed text => rfl
  | slot path literal => cases h : others path <;> simp [Piece.fill, h]

theorem mem_paths {template : Template} {path : KeyPath} :
    path ∈ template.paths ↔ ∃ literal, Piece.slot path literal ∈ template := by
  induction template with
  | nil => simp [paths]
  | cons piece template ih => cases piece <;> simp [paths, ih, exists_or]

@[simp] theorem paths_append (first second : Template) : paths (first ++ second) = first.paths ++ second.paths := by
  induction first with
  | nil => rfl
  | cons piece first ih => cases piece <;> simp [paths, ih]

@[simp] theorem paths_map_under (key : String) (template : Template) :
    paths (template.map (Piece.under key)) = template.paths.map (key :: ·) := by
  induction template with
  | nil => rfl
  | cons piece template ih => cases piece <;> simp [paths, Piece.under, ih]

@[simp] theorem spans_append (offset : Nat) (first second : Template) :
    spans offset (first ++ second) = spans offset first ++ spans (offset + utf8Length first.text) second := by
  induction first generalizing offset with
  | nil => rfl
  | cons piece first ih => cases piece <;> simp [spans, Piece.text, ih, Nat.add_assoc]

@[simp] theorem spans_map_under (offset : Nat) (key : String) (template : Template) :
    spans offset (template.map (Piece.under key)) =
      (spans offset template).map fun (path, span) => (key :: path, span) := by
  induction template generalizing offset with
  | nil => rfl
  | cons piece template ih => cases piece <;> simp [spans, Piece.under, ih]

/-- The literals that have spans are those of the template. -/
@[simp] theorem map_fst_spans (offset : Nat) (template : Template) : (spans offset template).map Prod.fst = template.paths := by
  induction template generalizing offset with
  | nil => rfl
  | cons piece template ih => cases piece <;> simp [spans, paths, ih]

/-- A literal of a template stands in its span. -/
theorem slice?_of_mem {template : Template} {path : KeyPath} {literal : Literal} (h : Piece.slot path literal ∈ template) :
    ∀ before : List Char, ∃ span, (path, span) ∈ spans (utf8Length before) template ∧
      slice? (before ++ template.text) span = some literal.text := by
  induction template with
  | nil => cases h
  | cons piece template ih =>
    intro before
    rcases List.mem_cons.mp h with rfl | h
    · refine ⟨covering before literal.text, List.mem_cons_self, ?_⟩
      rw [text_cons, ← List.append_assoc]
      exact slice?_covering before literal.text (text template)
    · obtain ⟨span, hs, hslice⟩ := ih h (before ++ piece.text)
      rw [utf8Length_append] at hs
      refine ⟨span, ?_, by rw [text_cons, ← List.append_assoc, hslice]⟩
      cases piece with
      | fixed text => exact hs
      | slot path' literal' => exact List.mem_cons_of_mem _ hs

/-- In the span of a literal that literal stands. -/
theorem slice?_of_mem_spans {template : Template} {path : KeyPath} {span : Span} (before : List Char)
    (h : (path, span) ∈ spans (utf8Length before) template) :
    ∃ literal, Piece.slot path literal ∈ template ∧ slice? (before ++ template.text) span = some literal.text := by
  induction template generalizing before with
  | nil => cases h
  | cons piece template ih =>
    have hrest : (path, span) ∈ spans (utf8Length before + utf8Length piece.text) template →
        ∃ literal, Piece.slot path literal ∈ piece :: template ∧
          slice? (before ++ text (piece :: template)) span = some literal.text := fun hmem => by
      rw [← utf8Length_append] at hmem
      obtain ⟨literal, hslot, hslice⟩ := ih (before ++ piece.text) hmem
      exact ⟨literal, List.mem_cons_of_mem _ hslot, by rw [text_cons, ← List.append_assoc, hslice]⟩
    cases piece with
    | fixed text => exact hrest h
    | slot path' literal =>
      rcases List.mem_cons.mp h with heq | hmem
      · cases heq
        refine ⟨literal, List.mem_cons_self, ?_⟩
        rw [text_cons, ← List.append_assoc]
        exact slice?_covering before literal.text (text template)
      · exact hrest hmem

/-! ## Spans are in the order of the text -/

/-- Literals begin behind the beginning of the template. -/
theorem le_start_of_mem_spans {template : Template} {offset : Nat} {slot : KeyPath × Span}
    (h : slot ∈ spans offset template) : offset ≤ slot.2.start := by
  induction template generalizing offset with
  | nil => cases h
  | cons piece template ih =>
    cases piece with
    | fixed text => exact Nat.le_trans (Nat.le_add_right _ _) (ih h)
    | slot path literal =>
      rcases List.mem_cons.mp h with rfl | h
      · exact Nat.le_refl _
      · exact Nat.le_trans (Nat.le_add_right _ _) (ih h)

/-- A literal begins before every later one. -/
theorem pairwise_spans (offset : Nat) (template : Template) :
    (spans offset template).Pairwise fun a b => a.2.start < b.2.start := by
  induction template generalizing offset with
  | nil => exact List.Pairwise.nil
  | cons piece template ih =>
    cases piece with
    | fixed text => exact ih _
    | slot path literal =>
      refine List.Pairwise.cons (fun b hb => ?_) (ih _)
      have hpos : 0 < utf8Length literal.text := Nat.add_pos_left (Char.utf8Size_pos _) _
      have := le_start_of_mem_spans hb
      show offset < b.2.start
      omega

theorem mem_chosen {texts : KeyPath → Option String} {spans : List (KeyPath × Span)} {path : KeyPath} {span : Span}
    {text : String} : (path, span, text) ∈ chosen texts spans ↔ (path, span) ∈ spans ∧ texts path = some text := by
  simp only [chosen, List.mem_filterMap, Option.map_eq_some_iff, Prod.mk.injEq, Prod.exists]
  constructor
  · rintro ⟨p, s, hmem, t, ht, rfl, rfl, rfl⟩
    exact ⟨hmem, ht⟩
  · rintro ⟨hmem, ht⟩
    exact ⟨path, span, hmem, text, ht, rfl, rfl, rfl⟩

theorem pairwise_chosen (texts : KeyPath → Option String) (offset : Nat) (template : Template) :
    (chosen texts (spans offset template)).Pairwise fun a b => a.2.1.start < b.2.1.start := by
  refine List.pairwise_filterMap.mpr ((pairwise_spans offset template).imp ?_)
  rintro ⟨p, s⟩ ⟨p', s'⟩ hlt x hx y hy
  simp only [Option.map_eq_some_iff] at hx hy
  obtain ⟨_, -, rfl⟩ := hx
  obtain ⟨_, -, rfl⟩ := hy
  exact hlt

/-! ## Replacing from the last literal to the first -/

/-- The replacements of chosen literals, in the order of the text. -/
def replacements (texts : KeyPath → Option String) (spans : List (KeyPath × Span)) : List (Span × List Char) :=
  (chosen texts spans).map fun (_, span, text) => (span, literal text)

theorem spliceAll_append (first second : List (Span × List Char)) (text : List Char) :
    Document.spliceAll (first ++ second) text = (Document.spliceAll first text).bind (Document.spliceAll second) := by
  induction first generalizing text with
  | nil => rfl
  | cons target first ih =>
    simp only [List.cons_append, Document.spliceAll, Option.bind_assoc]
    exact congrArg _ (funext fun t => ih t)

/-- Replacements from the last one to the first fill a template. -/
theorem spliceAll_replacements (texts : KeyPath → Option String) (template : Template) (before : List Char) :
    Document.spliceAll (replacements texts (spans (utf8Length before) template)).reverse (before ++ text template) =
      some (before ++ text (fill template texts)) := by
  induction template generalizing before with
  | nil => rfl
  | cons piece template ih =>
    have hrest := ih (before ++ piece.text)
    rw [utf8Length_append] at hrest
    cases piece with
    | fixed stays =>
      rw [text_cons, fill_cons, text_cons, ← List.append_assoc, ← List.append_assoc]
      exact hrest
    | slot path old =>
      cases ht : texts path with
      | none =>
        have hpiece : (Piece.slot path old).fill texts = .slot path old := by simp [Piece.fill, ht]
        have hrep : replacements texts (spans (utf8Length before) (.slot path old :: template)) =
            replacements texts (spans (utf8Length before + utf8Length old.text) template) := by
          simp [replacements, chosen, spans, ht]
        rw [hrep, text_cons, fill_cons, text_cons, hpiece, ← List.append_assoc, ← List.append_assoc]
        exact hrest
      | some value =>
        have hpiece : (Piece.slot path old).fill texts = .slot path (.written value) := by simp [Piece.fill, ht]
        have hrep : replacements texts (spans (utf8Length before) (.slot path old :: template)) =
            (covering before old.text, literal value) ::
              replacements texts (spans (utf8Length before + utf8Length old.text) template) := by
          simp [replacements, chosen, spans, ht, covering]
        rw [hrep, List.reverse_cons, spliceAll_append, text_cons, ← List.append_assoc]
        rw [show (Piece.slot path old).text = old.text from rfl] at hrest ⊢
        rw [hrest, Option.bind_some, Document.spliceAll, splice?_covering, fill_cons, text_cons, hpiece]
        simp [Document.spliceAll, Piece.text]

/-- Of two targets in ascending order that begin at one byte there is only one. -/
theorem eq_of_pairwise_start {targets : List (Span × List Char)}
    (h : targets.Pairwise fun a b => a.1.start < b.1.start) {a b : Span × List Char} (ha : a ∈ targets) (hb : b ∈ targets)
    (hab : a.1.start = b.1.start) : a = b := by
  induction targets with
  | nil => cases ha
  | cons target targets ih =>
    obtain ⟨hfirst, h⟩ := List.pairwise_cons.mp h
    rcases List.mem_cons.mp ha with rfl | ha' <;> rcases List.mem_cons.mp hb with rfl | hb'
    · rfl
    · exact absurd hab (Nat.ne_of_lt (hfirst b hb'))
    · exact absurd hab.symm (Nat.ne_of_lt (hfirst a ha'))
    · exact ih h ha' hb'

/-- What is chosen by edits of distinct paths that all have a literal are the edits themselves, in the order of the text. -/
theorem perm_edits {slots : List (KeyPath × Span)} {edits : List Edit} (hs : (slots.map Prod.fst).Nodup)
    (he : (edits.map Prod.fst).Nodup) (hmem : ∀ edit ∈ edits, edit.1 ∈ slots.map Prod.fst) :
    ((chosen (edits.lookup ·) slots).map fun (path, _, text) => (path, text)).Perm edits := by
  have hslots : slots.Pairwise fun a b => a.1 ≠ b.1 := List.pairwise_map.mp hs
  have hnodup : ((chosen (edits.lookup ·) slots).map fun (path, _, text) => (path, text)).Nodup := by
    refine List.pairwise_map.mpr (List.pairwise_filterMap.mpr (hslots.imp ?_))
    rintro ⟨p, s⟩ ⟨p', s'⟩ hne x hx y hy
    simp only [Option.map_eq_some_iff] at hx hy
    obtain ⟨_, -, rfl⟩ := hx
    obtain ⟨_, -, rfl⟩ := hy
    intro h
    exact hne (Prod.mk.inj h).1
  refine (List.perm_ext_iff_of_nodup hnodup (nodup_of_keys he)).mpr ?_
  rintro ⟨path, text⟩
  simp only [List.mem_map, Prod.exists, Prod.mk.injEq]
  constructor
  · rintro ⟨p, s, t, hc, rfl, rfl⟩
    exact mem_of_lookup (mem_chosen.mp hc).2
  · intro hedit
    obtain ⟨⟨p, s⟩, hslot, rfl⟩ := List.mem_map.mp (hmem _ hedit)
    exact ⟨p, s, text, mem_chosen.mpr ⟨hslot, lookup_of_mem he hedit⟩, rfl, rfl⟩

/-- Every edit is aimed at the span that was recorded for its path. -/
theorem targets_eq_ok {found : Found} {edits : List Edit} (spanAt : KeyPath → Span)
    (h : ∀ edit ∈ edits, found.span? edit.1 = some (spanAt edit.1)) :
    Document.targets found edits = .ok (edits.map fun edit => (spanAt edit.1, literal edit.2)) := by
  induction edits with
  | nil => rfl
  | cons edit edits ih =>
    rw [Document.targets, h edit List.mem_cons_self, ih fun e he => h e (List.mem_cons_of_mem _ he)]
    rfl

/-- Targets are sorted by falling starts. -/
theorem pairwise_fromLast (targets : List (Span × List Char)) :
    (Document.fromLast targets).Pairwise fun a b => b.1.start ≤ a.1.start := by
  refine List.Pairwise.imp (fun hle => of_decide_eq_true hle) (List.pairwise_mergeSort ?_ ?_ targets)
  · intro a b c hab hbc
    exact decide_eq_true (Nat.le_trans (of_decide_eq_true hbc) (of_decide_eq_true hab))
  · intro a b
    simp only [Bool.or_eq_true, decide_eq_true_eq]
    omega

/-- Replacements in whatever order are sorted to go from the last one of the text to the first. -/
theorem fromLast_perm {texts : KeyPath → Option String} {offset : Nat} {template : Template}
    {targets : List (Span × List Char)} (h : targets.Perm (replacements texts (spans offset template))) :
    Document.fromLast targets = (replacements texts (spans offset template)).reverse := by
  have hasc : (replacements texts (spans offset template)).Pairwise fun a b => a.1.start < b.1.start :=
    List.pairwise_map.mpr (pairwise_chosen texts offset template)
  have hperm : (Document.fromLast targets).Perm (replacements texts (spans offset template)).reverse :=
    ((List.mergeSort_perm _ _).trans h).trans (List.reverse_perm _).symm
  refine hperm.eq_of_pairwise ?_ (pairwise_fromLast targets) (List.pairwise_reverse.mpr (hasc.imp Nat.le_of_lt))
  intro a b ha hb hba hab
  have ha' : a ∈ replacements texts (spans offset template) := List.mem_reverse.mp (hperm.mem_iff.mp ha)
  have hb' : b ∈ replacements texts (spans offset template) := List.mem_reverse.mp hb
  exact eq_of_pairwise_start hasc ha' hb' (Nat.le_antisymm hab hba)

/-- The edits of literals at distinct paths, in whatever order they come, fill the template with their texts. -/
theorem spliceAll_edits {template : Template} {found : Found} {edits : List Edit} (hpaths : template.paths.Nodup)
    (hfound : ∀ slot ∈ spans 0 template, found.span? slot.1 = some slot.2) (he : (edits.map Prod.fst).Nodup)
    (hmem : ∀ edit ∈ edits, edit.1 ∈ template.paths) :
    ∃ targets, Document.targets found edits = .ok targets ∧
      Document.spliceAll (Document.fromLast targets) template.text = some (template.fill (edits.lookup ·)).text := by
  have hspan : ∀ slot ∈ spans 0 template, ((found.span? slot.1).getD default) = slot.2 := fun slot hs => by
    rw [hfound slot hs, Option.getD_some]
  refine ⟨_, targets_eq_ok (fun path => (found.span? path).getD default) fun edit hedit => ?_, ?_⟩
  · obtain ⟨slot, hs, hp⟩ := List.mem_map.mp ((map_fst_spans 0 template).symm ▸ hmem edit hedit)
    rw [← hp, hspan slot hs, hfound slot hs]
  · have hperm := (perm_edits (map_fst_spans 0 template ▸ hpaths) he fun edit hedit =>
      (map_fst_spans 0 template).symm ▸ hmem edit hedit).symm.map
        fun edit => (((found.span? edit.1).getD default), literal edit.2)
    have hlast := fromLast_perm (hperm.trans (.of_eq ?_) : List.Perm _ (replacements (edits.lookup ·) (spans 0 template)))
    · rw [hlast]
      exact spliceAll_replacements (edits.lookup ·) template []
    · rw [List.map_map]
      refine List.map_congr_left ?_
      rintro ⟨path, span, text⟩ hc
      exact Prod.ext (hspan _ (mem_chosen.mp hc).1) rfl

end Template

end SealedConfig.Json
