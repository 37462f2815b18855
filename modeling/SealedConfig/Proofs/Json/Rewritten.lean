import SealedConfig.Proofs.Json.Recorded

/-!
# The last literal of each path

Only the last literal of a path is replaced, whether the tree has a text there or not. When all but the last literal of each path are
taken for text that stays, the literals that are left are those that the walk finds, and replacing them is replacing texts of the
tree: a literal in a value that gives way to a later one makes no difference to it.
-/

namespace SealedConfig.Json

open Json.Span

namespace Template

/-- The template of which only the last literal of each path may be replaced. -/
def settled : Template → Template
  | [] => []
  | .fixed text :: template => .fixed text :: settled template
  | .slot path literal :: template =>
    (if path ∈ paths template then .fixed literal.text else .slot path literal) :: settled template

/-- Texts for the paths that do not come again. -/
def without (paths : List KeyPath) (texts : KeyPath → Option String) (path : KeyPath) : Option String :=
  if path ∈ paths then none else texts path

@[simp] theorem without_nil (texts : KeyPath → Option String) : without [] texts = texts := by
  funext path
  simp [without]

@[simp] theorem text_settled (template : Template) : template.settled.text = template.text := by
  induction template with
  | nil => rfl
  | cons piece template ih =>
    cases piece with
    | fixed text => rw [settled, text_cons, text_cons, ih]
    | slot path literal =>
      rw [settled, text_cons, text_cons, ih]
      split <;> rfl

/-- Every path keeps a literal. -/
@[simp] theorem mem_paths_settled {template : Template} {path : KeyPath} : path ∈ template.settled.paths ↔ path ∈ template.paths := by
  induction template with
  | nil => rfl
  | cons piece template ih =>
    cases piece with
    | fixed text => exact ih
    | slot first literal =>
      rw [settled]
      split
      · rename_i hagain
        rw [paths, ih, paths, List.mem_cons]
        constructor
        · exact Or.inr
        · rintro (rfl | h)
          · exact hagain
          · exact h
      · rw [paths, paths, List.mem_cons, List.mem_cons, ih]

/-- What is left are the literals that are found when they are recorded one after the other. -/
theorem lookup_of_mem_spans_settled {template : Template} {offset : Nat} {slot : KeyPath × Span}
    (h : slot ∈ spans offset template.settled) : (spans offset template).reverse.lookup slot.1 = some slot.2 := by
  induction template generalizing offset with
  | nil => cases h
  | cons piece template ih =>
    cases piece with
    | fixed text => exact ih h
    | slot path literal =>
      rw [settled] at h
      rw [spans, List.reverse_cons, List.lookup_append]
      split at h
      · rw [ih h]
        rfl
      · rename_i hlast
        rw [spans, List.mem_cons] at h
        rcases h with rfl | h
        · have hnone : (spans (offset + utf8Length literal.text) template).reverse.lookup path = none := by
            refine lookup_eq_none ?_
            rwa [List.map_reverse, List.mem_reverse, map_fst_spans]
          rw [hnone, Option.none_or]
          exact List.lookup_cons_self
        · rw [ih h]
          rfl

theorem settled_map_under (key : String) (template : Template) :
    settled (template.map (Piece.under key)) = template.settled.map (Piece.under key) := by
  induction template with
  | nil => rfl
  | cons piece template ih =>
    cases piece with
    | fixed text => rw [List.map_cons, Piece.under, settled, settled, ih]; rfl
    | slot path literal =>
      rw [List.map_cons, Piece.under, settled, settled, ih, paths_map_under, List.map_cons]
      split <;> split <;> simp_all [Piece.under]

/-- In the first part of a template those literals are filled whose paths do not come again in the second. -/
theorem text_fill_settled_append (first second : Template) (texts : KeyPath → Option String) :
    ((first ++ second).settled.fill texts).text =
      (first.settled.fill (without second.paths texts)).text ++ (second.settled.fill texts).text := by
  induction first with
  | nil => rfl
  | cons piece first ih =>
    cases piece with
    | fixed text =>
      rw [List.cons_append, settled, settled, fill_cons, fill_cons, text_cons, text_cons, ih, List.append_assoc]
      rfl
    | slot path literal =>
      have hpiece : ((if path ∈ paths (first ++ second) then Piece.fixed literal.text else .slot path literal).fill texts).text =
          ((if path ∈ paths first then Piece.fixed literal.text else .slot path literal).fill (without second.paths texts)).text := by
        by_cases hfirst : path ∈ paths first
        · simp [hfirst, Piece.fill]
        · by_cases hsecond : path ∈ paths second <;> simp [hfirst, hsecond, Piece.fill, Piece.text, without]
      rw [List.cons_append, settled, settled, fill_cons, fill_cons, text_cons, text_cons, ih, hpiece, List.append_assoc]

/-- A template below a key is filled with the texts below that key. -/
theorem text_fill_settled_map_under (key : String) (template : Template) (texts : KeyPath → Option String) :
    ((settled (template.map (Piece.under key))).fill texts).text = (template.settled.fill fun path => texts (key :: path)).text := by
  rw [settled_map_under, fill_map_under, text_map_under]

end Template

open Template (without)

/-! ## Sources with other literals -/

mutual

/-- The source with the printed literals of other texts in place of the last literals of the paths that have one. -/
def Source.rewritten (texts : KeyPath → Option String) : Source → Source
  | .string literal => .string (((texts []).map Literal.written).getD literal)
  | .object fields => .object (fields.rewritten texts)
  | src => src

/-- The members with the printed literals of other texts; a literal stays as it is when its path comes again in a later member. -/
def Fields.rewritten (texts : KeyPath → Option String) : Fields → Fields
  | .last part value after => .last part (value.rewritten fun path => texts (part.key :: path)) after
  | .cons part value after rest =>
    .cons part (value.rewritten fun path => without rest.wholeTemplate.paths texts (part.key :: path)) after (rest.rewritten texts)

end

mutual

/-- Rewriting a source is filling the last literals of its whole template. -/
theorem Source.text_rewritten (src : Source) (texts : KeyPath → Option String) :
    (src.rewritten texts).text = (src.wholeTemplate.settled.fill texts).text := by
  match src with
  | .atom _ | .array _ => simp [Source.rewritten, Source.wholeTemplate, Source.text, Template.settled, Piece.fill, Piece.text]
  | .string literal =>
    cases htext : texts [] <;>
      simp [Source.rewritten, Source.wholeTemplate, Source.text, Template.settled, Template.paths, Piece.fill, Piece.text, htext]
  | .object fields =>
    rw [Source.wholeTemplate, Template.text_fill_settled_append]
    simp [Source.rewritten, Source.text, Template.settled, Template.paths, Piece.fill, Piece.text, fields.text_rewritten]

theorem Fields.text_rewritten (fields : Fields) (texts : KeyPath → Option String) :
    (fields.rewritten texts).text = (fields.wholeTemplate.settled.fill texts).text := by
  match fields with
  | .last part value after =>
    rw [Fields.wholeTemplate, List.cons_append, Template.settled, Template.fill_cons, Template.text_cons,
      Template.text_fill_settled_append]
    simp [Fields.rewritten, Fields.text, Template.settled, Template.paths, Piece.fill, Piece.text, value.text_rewritten,
      Template.text_fill_settled_map_under]
  | .cons part value after rest =>
    rw [Fields.wholeTemplate, List.cons_append, Template.settled, Template.fill_cons, Template.text_cons,
      Template.text_fill_settled_append]
    simp [Fields.rewritten, Fields.text, Template.settled, Template.paths, Piece.fill, Piece.text, value.text_rewritten,
      rest.text_rewritten, Template.text_fill_settled_map_under]

end

/-- The literals of members are behind their keys. -/
theorem Fields.exists_key_of_mem_wholePaths (fields : Fields) {path : KeyPath} (h : path ∈ fields.wholeTemplate.paths) :
    ∃ key rest, path = key :: rest ∧ key ∈ fields.keys := by
  match fields with
  | .last part value after =>
    simp only [Fields.wholeTemplate, List.cons_append, Template.paths, Template.paths_append, Template.paths_map_under,
      List.append_nil, List.mem_map] at h
    obtain ⟨rest, -, rfl⟩ := h
    exact ⟨part.key, rest, rfl, List.mem_singleton.mpr rfl⟩
  | .cons part value after rest =>
    simp only [Fields.wholeTemplate, List.cons_append, Template.paths, Template.paths_append, Template.paths_map_under,
      List.mem_append, List.mem_map] at h
    rcases h with ⟨path, -, rfl⟩ | h
    · exact ⟨part.key, path, rfl, List.mem_cons_self⟩
    · obtain ⟨key, path, rfl, hk⟩ := rest.exists_key_of_mem_wholePaths h
      exact ⟨key, path, rfl, List.mem_cons_of_mem _ hk⟩

/-- Behind a key that does not come again no path comes again. -/
theorem Fields.without_of_not_mem_keys {rest : Fields} {key : String} (h : key ∉ rest.keys) (texts : KeyPath → Option String) :
    (fun path => without rest.wholeTemplate.paths texts (key :: path)) = fun path => texts (key :: path) := by
  funext path
  refine if_neg fun hmem => ?_
  obtain ⟨_, _, heq, hk⟩ := rest.exists_key_of_mem_wholePaths hmem
  obtain ⟨rfl, -⟩ := List.cons.inj heq
  exact h hk

/-- Members keep their keys when they are rewritten. -/
@[simp] theorem Fields.keys_rewritten (fields : Fields) (texts : KeyPath → Option String) :
    (fields.rewritten texts).keys = fields.keys := by
  match fields with
  | .last _ _ _ => rfl
  | .cons part value after rest => rw [Fields.rewritten, Fields.keys_cons, Fields.keys_cons, rest.keys_rewritten]

mutual

/-- A rewritten source spells the tree with the other texts. -/
theorem Source.tree_rewritten (src : Source) (texts : KeyPath → Option String) :
    (src.rewritten texts).tree = src.tree.withTexts texts := by
  match src with
  | .atom atom => exact Source.tree_withTexts (.atom atom) texts
  | .array items => exact Source.tree_withTexts (.array items) texts
  | .string literal => exact Source.tree_withTexts (.string literal) texts
  | .object fields =>
    rw [Source.rewritten, Source.tree, Source.tree, Json.withTexts, ← ofPairs_pairsWithTexts]
    congr 1
    refine Members.ext_of_lookup (nodup_keys_ofPairs _) ?_ fun key => ?_
    · exact PairsAux.keys_foldl_congr (by rw [keys_pairsWithTexts]; exact fields.keys_rewritten texts) rfl
    · rw [lookup_ofPairs, lookup_ofPairs, lastValue?_pairsWithTexts, fields.lastValue?_rewritten]

/-- The last value of a key is the one before with the other texts. -/
theorem Fields.lastValue?_rewritten (fields : Fields) (texts : KeyPath → Option String) (key : String) :
    lastValue? (fields.rewritten texts).pairs key =
      (lastValue? fields.pairs key).map fun value => value.withTexts fun path => texts (key :: path) := by
  match fields with
  | .last part value after =>
    rw [Fields.rewritten, Fields.pairs, Fields.pairs, lastValue?, lastValue?, value.tree_rewritten]
    by_cases hk : key = part.key
    · subst hk
      simp [lastValue?]
    · simp [lastValue?, hk]
  | .cons part value after rest =>
    rw [Fields.rewritten, Fields.pairs, Fields.pairs, lastValue?, lastValue?, rest.lastValue?_rewritten]
    cases hlast : lastValue? rest.pairs key with
    | some later => rfl
    | none =>
      by_cases hk : key = part.key
      · subst hk
        have hnew : part.key ∉ rest.keys := lastValue?_eq_none_iff.mp hlast
        rw [Fields.without_of_not_mem_keys hnew, value.tree_rewritten]
        simp
      · simp [hk]

end

mutual

/-- A rewritten source is as deep as it was. -/
@[simp] theorem Source.depth_rewritten (src : Source) (texts : KeyPath → Option String) : (src.rewritten texts).depth = src.depth := by
  match src with
  | .atom _ | .string _ | .array _ => rfl
  | .object fields => rw [Source.rewritten, Source.depth, Source.depth, fields.depth_rewritten]

@[simp] theorem Fields.depth_rewritten (fields : Fields) (texts : KeyPath → Option String) :
    (fields.rewritten texts).depth = fields.depth := by
  match fields with
  | .last _ value _ => exact value.depth_rewritten _
  | .cons part value _ rest => rw [Fields.rewritten, Fields.depth, Fields.depth, rest.depth_rewritten, value.depth_rewritten]

end

end SealedConfig.Json
