import SealedConfig.Proofs.Json.Reading
import SealedConfig.Proofs.Json.Template
import SealedConfig.Proofs.Json.Walking

/-!
# The layout of a source

The template of a source has a literal for each text of its tree, and of keys that occur again only those of the last value. The
walk records each of these literals where it stands, and filling the template is replacing texts of the tree.
-/

namespace SealedConfig.Json

mutual

/-- The template of a value: its literal, or those behind its keys. -/
def Source.template : Source → Template
  | .atom atom => [.fixed atom.text]
  | .string literal => [.slot [] literal]
  | .array items => [.fixed ('[' :: items.text ++ [']'])]
  | .object fields => .fixed ['\x7b'] :: fields.template ++ [.fixed ['\x7d']]

/-- The template of members; a value stays as it is when its key occurs again. -/
def Fields.template : Fields → Template
  | .last part value after => .fixed part.text :: value.template.map (Piece.under part.key) ++ [.fixed after.text]
  | .cons part value after rest =>
    .fixed part.text ::
      (if part.key ∈ rest.keys then [.fixed value.text] else value.template.map (Piece.under part.key)) ++
      .fixed (after.text ++ [',']) :: rest.template

end

mutual

/-- The source with the printed literals of other texts at the paths that have one. -/
def Source.withTexts (texts : KeyPath → Option String) : Source → Source
  | .string literal => .string (((texts []).map Literal.written).getD literal)
  | .object fields => .object (fields.withTexts texts)
  | src => src

/-- The members with the printed literals of other texts; a value stays as it is when its key occurs again. -/
def Fields.withTexts (texts : KeyPath → Option String) : Fields → Fields
  | .last part value after => .last part (value.withTexts fun path => texts (part.key :: path)) after
  | .cons part value after rest =>
    .cons part (if part.key ∈ rest.keys then value else value.withTexts fun path => texts (part.key :: path)) after
      (rest.withTexts texts)

end

/-! ## The text of a template -/

/-- The template of a member has the text of its value, whether its key occurs again or not. -/
theorem text_member {value : Source} (h : value.template.text = value.text) (again : Prop) [Decidable again] (key : String) :
    Template.text (if again then [.fixed value.text] else value.template.map (Piece.under key)) = value.text := by
  split
  · simp [Piece.text]
  · rw [Template.text_map_under, h]

mutual

/-- The template of a source is its text. -/
@[simp] theorem Source.text_template (src : Source) : src.template.text = src.text := by
  match src with
  | .atom _ | .string _ | .array _ => simp [Source.template, Source.text, Piece.text]
  | .object fields => simp [Source.template, Source.text, Piece.text, fields.text_template]

@[simp] theorem Fields.text_template (fields : Fields) : fields.template.text = fields.text := by
  match fields with
  | .last part value after => simp [Fields.template, Fields.text, Piece.text, value.text_template]
  | .cons part value after rest =>
    simp [Fields.template, Fields.text, Piece.text, text_member value.text_template, rest.text_template]

end

/-! ## Literals and leaves -/

theorem Fields.keys_cons (part : KeyPart) (value : Source) (after : Gap) (rest : Fields) :
    (Fields.cons part value after rest).keys = part.key :: rest.keys := rfl

mutual

/-- A literal of the template spells the text of the tree at its path. -/
theorem Source.textAt?_of_mem_template (src : Source) {path : KeyPath} {literal : Literal}
    (h : Piece.slot path literal ∈ src.template) : src.tree.textAt? path = some literal.value := by
  match src with
  | .atom _ | .array _ => simp [Source.template] at h
  | .string _ =>
    simp only [Source.template, List.mem_singleton, Piece.slot.injEq] at h
    obtain ⟨rfl, rfl⟩ := h
    rfl
  | .object fields =>
    simp only [Source.template, List.cons_append, List.mem_cons, List.mem_append, List.not_mem_nil, or_false, reduceCtorEq,
      false_or] at h
    obtain ⟨key, path, rfl, value, hv, ht⟩ := fields.textAt?_of_mem_template h
    rw [Source.tree, textAt?, lookup_ofPairs, hv]
    exact ht

/-- A literal of the template of members spells a text in the last value of a key. -/
theorem Fields.textAt?_of_mem_template (fields : Fields) {path : KeyPath} {literal : Literal}
    (h : Piece.slot path literal ∈ fields.template) :
    ∃ key rest, path = key :: rest ∧
      ∃ value, lastValue? fields.pairs key = some value ∧ value.textAt? rest = some literal.value := by
  match fields with
  | .last part value after =>
    simp only [Fields.template, List.cons_append, List.mem_cons, List.mem_append, List.mem_map, List.not_mem_nil, or_false,
      reduceCtorEq, false_or] at h
    obtain ⟨piece, hmem, hpiece⟩ := h
    cases piece with
    | fixed _ => cases hpiece
    | slot p l =>
      cases hpiece
      exact ⟨part.key, p, rfl, value.tree, by simp [Fields.pairs, lastValue?], value.textAt?_of_mem_template hmem⟩
  | .cons part value after rest =>
    simp only [Fields.template, List.cons_append, List.mem_cons, List.mem_append, reduceCtorEq, false_or] at h
    rcases h with h | h
    · split at h
      · simp at h
      · rename_i hnew
        obtain ⟨piece, hmem, hpiece⟩ := List.mem_map.mp h
        cases piece with
        | fixed _ => cases hpiece
        | slot p l =>
          cases hpiece
          have hlast : lastValue? rest.pairs part.key = none := lastValue?_eq_none_iff.mpr hnew
          exact ⟨part.key, p, rfl, value.tree, by simp [Fields.pairs, lastValue?, hlast],
            value.textAt?_of_mem_template hmem⟩
    · obtain ⟨key, path, rfl, v, hv, ht⟩ := rest.textAt?_of_mem_template h
      exact ⟨key, path, rfl, v, by simp [Fields.pairs, lastValue?, hv], ht⟩

end

mutual

/-- Every text of the tree has a literal in the template. -/
theorem Source.mem_paths_of_textAt? (src : Source) {path : KeyPath} {text : String}
    (h : src.tree.textAt? path = some text) : path ∈ src.template.paths := by
  match src with
  | .atom atom =>
    have ha := atom.atomic
    rw [Source.tree] at h
    cases hv : atom.value with
    | string t => rw [hv] at ha; exact ha.elim
    | object members =>
      rcases members with _ | ⟨m, ms⟩
      · rw [hv] at h; cases path <;> cases h
      · rw [hv] at ha; exact ha.elim
    | _ => rw [hv] at h; cases path <;> cases h
  | .string _ =>
    cases path with
    | nil => exact List.mem_singleton.mpr rfl
    | cons _ _ => cases h
  | .array _ => cases path <;> cases h
  | .object fields =>
    cases path with
    | nil => cases h
    | cons key path =>
      rw [Source.tree, textAt?, lookup_ofPairs] at h
      obtain ⟨value, hv, ht⟩ := Option.bind_eq_some_iff.mp h
      simp [Source.template, Template.paths, fields.mem_paths_of_textAt? hv ht]

/-- Every text in the last value of a key has a literal in the template of members. -/
theorem Fields.mem_paths_of_textAt? (fields : Fields) {key : String} {path : KeyPath} {tree : Json} {text : String}
    (hv : lastValue? fields.pairs key = some tree) (ht : tree.textAt? path = some text) :
    key :: path ∈ fields.template.paths := by
  match fields with
  | .last part value after =>
    simp only [Fields.pairs, lastValue?, Option.none_or, Option.ite_none_right_eq_some, Option.some.injEq] at hv
    obtain ⟨rfl, rfl⟩ := hv
    simp [Fields.template, Template.paths, value.mem_paths_of_textAt? ht]
  | .cons part value after rest =>
    simp only [Fields.pairs, lastValue?] at hv
    cases hlast : lastValue? rest.pairs key with
    | some v =>
      simp only [hlast, Option.some_or, Option.some.injEq] at hv
      subst hv
      simp [Fields.template, Template.paths, rest.mem_paths_of_textAt? hlast ht]
    | none =>
      simp only [hlast, Option.none_or, Option.ite_none_right_eq_some, Option.some.injEq] at hv
      obtain ⟨rfl, rfl⟩ := hv
      have hnew : part.key ∉ rest.keys := lastValue?_eq_none_iff.mp hlast
      simp [Fields.template, Template.paths, hnew, value.mem_paths_of_textAt? ht]

end

/-! ## Paths are distinct -/

/-- The paths of members begin with their keys. -/
theorem Fields.exists_key_of_mem_paths (fields : Fields) {path : KeyPath} (h : path ∈ fields.template.paths) :
    ∃ key rest, path = key :: rest ∧ key ∈ fields.keys := by
  match fields with
  | .last part value after =>
    simp only [Fields.template, List.cons_append, Template.paths, Template.paths_append, Template.paths_map_under,
      List.append_nil, List.mem_map] at h
    obtain ⟨rest, -, rfl⟩ := h
    exact ⟨part.key, rest, rfl, List.mem_singleton.mpr rfl⟩
  | .cons part value after rest =>
    simp only [Fields.template, List.cons_append, Template.paths, Template.paths_append, List.mem_append] at h
    rcases h with h | h
    · split at h
      · cases h
      · rw [Template.paths_map_under] at h
        obtain ⟨path, -, rfl⟩ := List.mem_map.mp h
        exact ⟨part.key, path, rfl, List.mem_cons_self⟩
    · obtain ⟨key, path, rfl, hk⟩ := rest.exists_key_of_mem_paths h
      exact ⟨key, path, rfl, List.mem_cons_of_mem _ hk⟩

/-- Distinct paths stay distinct below a key. -/
theorem nodup_map_cons {paths : List KeyPath} (h : paths.Nodup) (key : String) : (paths.map (key :: ·)).Nodup :=
  List.pairwise_map.mpr (h.imp fun hne heq => hne (List.cons.inj heq).2)

mutual

/-- No path has two literals in a template. -/
theorem Source.nodup_paths (src : Source) : src.template.paths.Nodup := by
  match src with
  | .atom _ | .array _ => exact List.nodup_nil
  | .string _ => simp [Source.template, Template.paths]
  | .object fields => simpa [Source.template, Template.paths] using fields.nodup_paths

theorem Fields.nodup_paths (fields : Fields) : fields.template.paths.Nodup := by
  match fields with
  | .last part value after => simpa [Fields.template, Template.paths] using nodup_map_cons value.nodup_paths part.key
  | .cons part value after rest =>
    simp only [Fields.template, List.cons_append, Template.paths, Template.paths_append]
    split
    · exact rest.nodup_paths
    · rename_i hnew
      rw [Template.paths_map_under]
      refine List.nodup_append.mpr ⟨nodup_map_cons value.nodup_paths part.key, rest.nodup_paths, ?_⟩
      rintro path hp _ hq rfl
      obtain ⟨key, tail, rfl, hk⟩ := rest.exists_key_of_mem_paths hq
      obtain ⟨_, -, heq⟩ := List.mem_map.mp hp
      cases heq
      exact hnew hk

end

/-! ## The walk finds the literals -/

mutual

/-- What is recorded below a path has a path that begins with it. -/
theorem Source.isPrefix_of_mem_marks (src : Source) {path : KeyPath} {offset : Nat} {mark : KeyPath × Span}
    (h : mark ∈ src.marks (some path) offset) : path <+: mark.1 := by
  match src with
  | .atom _ | .array _ => cases h
  | .string literal =>
    obtain rfl := List.mem_singleton.mp h
    exact List.prefix_refl path
  | .object fields =>
    obtain ⟨key, -, hp⟩ := fields.isPrefix_of_mem_marks h
    exact (List.prefix_append path [key]).trans hp

/-- What is recorded of members has a path that goes on with one of their keys. -/
theorem Fields.isPrefix_of_mem_marks (fields : Fields) {path : KeyPath} {offset : Nat} {mark : KeyPath × Span}
    (h : mark ∈ fields.marks (some path) offset) : ∃ key ∈ fields.keys, path ++ [key] <+: mark.1 := by
  match fields with
  | .last part value after =>
    exact ⟨part.key, List.mem_singleton.mpr rfl, value.isPrefix_of_mem_marks h⟩
  | .cons part value after rest =>
    rcases List.mem_append.mp h with h | h
    · obtain ⟨key, hk, hp⟩ := rest.isPrefix_of_mem_marks h
      exact ⟨key, List.mem_cons_of_mem _ hk, hp⟩
    · exact ⟨part.key, List.mem_cons_self, value.isPrefix_of_mem_marks h⟩

end

/-- Members record nothing behind a key that is none of theirs. -/
theorem Fields.lookup_marks_eq_none (fields : Fields) {path : KeyPath} {key : String} (h : key ∉ fields.keys) (rest : KeyPath)
    (offset : Nat) : (fields.marks (some path) offset).lookup (path ++ key :: rest) = none := by
  refine lookup_eq_none fun hmem => ?_
  obtain ⟨mark, hmark, hpath⟩ := List.mem_map.mp hmem
  obtain ⟨k, hk, hp⟩ := fields.isPrefix_of_mem_marks hmark
  rw [hpath, List.prefix_append_right_inj, List.cons_prefix_cons] at hp
  exact h (hp.1 ▸ hk)

mutual

/-- What was recorded last for the path of a literal is where that literal stands. -/
theorem Source.lookup_marks (src : Source) (path : KeyPath) {offset : Nat} {slot : KeyPath × Span}
    (h : slot ∈ Template.spans offset src.template) :
    (src.marks (some path) offset).lookup (path ++ slot.1) = some slot.2 := by
  match src with
  | .atom _ | .array _ => cases h
  | .string literal =>
    rw [List.mem_singleton.mp h, List.append_nil]
    exact List.lookup_cons_self
  | .object fields =>
    simp only [Source.template, List.cons_append, Template.spans, Template.spans_append, List.append_nil] at h
    obtain ⟨key, rest, heq, hl⟩ := fields.lookup_marks path h
    rw [heq]
    exact hl

theorem Fields.lookup_marks (fields : Fields) (path : KeyPath) {offset : Nat} {slot : KeyPath × Span}
    (h : slot ∈ Template.spans offset fields.template) :
    ∃ key rest, slot.1 = key :: rest ∧
      (fields.marks (some path) offset).lookup (path ++ key :: rest) = some slot.2 := by
  match fields with
  | .last part value after =>
    simp only [Fields.template, List.cons_append, Template.spans, Template.spans_append, Template.spans_map_under,
      List.append_nil] at h
    obtain ⟨inner, hmem, rfl⟩ := List.mem_map.mp h
    refine ⟨part.key, inner.1, rfl, ?_⟩
    rw [Fields.marks, Option.map_some, List.append_cons]
    exact value.lookup_marks _ hmem
  | .cons part value after rest =>
    simp only [Fields.template, List.cons_append, Template.spans, Template.spans_append, List.mem_append] at h
    rw [Fields.marks, Option.map_some]
    rcases h with h | h
    · split at h
      · cases h
      · rename_i hnew
        rw [Template.spans_map_under] at h
        obtain ⟨inner, hmem, rfl⟩ := List.mem_map.mp h
        refine ⟨part.key, inner.1, rfl, ?_⟩
        rw [List.lookup_append, rest.lookup_marks_eq_none hnew, Option.none_or, List.append_cons]
        exact value.lookup_marks _ hmem
    · rw [text_member value.text_template, utf8Length_append, ← Nat.add_assoc] at h
      obtain ⟨key, tail, heq, hl⟩ := rest.lookup_marks path h
      refine ⟨key, tail, heq, ?_⟩
      rw [List.lookup_append, show (1 : Nat) = utf8Length [','] from rfl, hl, Option.some_or]

end

/-! ## Other texts -/

/-- Members keep their keys when texts are replaced. -/
@[simp] theorem Fields.keys_withTexts (fields : Fields) (texts : KeyPath → Option String) :
    (fields.withTexts texts).keys = fields.keys := by
  match fields with
  | .last _ _ _ => rfl
  | .cons part value after rest => rw [Fields.withTexts, Fields.keys_cons, Fields.keys_cons, rest.keys_withTexts]

mutual

/-- Replacing texts of a source is filling its template. -/
theorem Source.template_withTexts (src : Source) (texts : KeyPath → Option String) :
    (src.withTexts texts).template = src.template.fill texts := by
  match src with
  | .atom _ | .string _ | .array _ => rfl
  | .object fields => simp [Source.withTexts, Source.template, Piece.fill, fields.template_withTexts]

theorem Fields.template_withTexts (fields : Fields) (texts : KeyPath → Option String) :
    (fields.withTexts texts).template = fields.template.fill texts := by
  match fields with
  | .last part value after =>
    simp [Fields.withTexts, Fields.template, Piece.fill, value.template_withTexts, Template.fill_map_under]
  | .cons part value after rest =>
    rw [Fields.withTexts, Fields.template, Fields.template, rest.keys_withTexts, rest.template_withTexts]
    split
    · simp [Piece.fill]
    · simp [Piece.fill, value.template_withTexts, Template.fill_map_under]

end

mutual

/-- A source with other texts spells the tree with these texts. -/
theorem Source.tree_withTexts (src : Source) (texts : KeyPath → Option String) :
    (src.withTexts texts).tree = src.tree.withTexts texts := by
  match src with
  | .atom atom =>
    have ha := atom.atomic
    show atom.value = atom.value.withTexts texts
    cases hv : atom.value with
    | string t => rw [hv] at ha; exact ha.elim
    | object members =>
      rcases members with _ | ⟨m, ms⟩
      · rfl
      · rw [hv] at ha; exact ha.elim
    | _ => rfl
  | .string literal => simp only [Source.withTexts, Source.tree, Json.withTexts]; cases texts [] <;> rfl
  | .array _ => rfl
  | .object fields =>
    rw [Source.withTexts, Source.tree, Source.tree, fields.pairs_withTexts, ofPairs_pairsWithTexts, Json.withTexts]

theorem Fields.pairs_withTexts (fields : Fields) (texts : KeyPath → Option String) :
    (fields.withTexts texts).pairs = pairsWithTexts fields.pairs texts := by
  match fields with
  | .last part value after =>
    simp [Fields.withTexts, Fields.pairs, pairsWithTexts, value.tree_withTexts]
  | .cons part value after rest =>
    rw [Fields.withTexts, Fields.pairs, Fields.pairs, pairsWithTexts, rest.pairs_withTexts, ← Fields.keys]
    split
    · rfl
    · rw [value.tree_withTexts]

end

mutual

/-- Other texts leave a source as deep as it is. -/
@[simp] theorem Source.depth_withTexts (src : Source) (texts : KeyPath → Option String) :
    (src.withTexts texts).depth = src.depth := by
  match src with
  | .atom _ | .string _ | .array _ => rfl
  | .object fields => rw [Source.withTexts, Source.depth, Source.depth, fields.depth_withTexts]

@[simp] theorem Fields.depth_withTexts (fields : Fields) (texts : KeyPath → Option String) :
    (fields.withTexts texts).depth = fields.depth := by
  match fields with
  | .last _ value _ => exact value.depth_withTexts _
  | .cons part value _ rest =>
    rw [Fields.withTexts, Fields.depth, Fields.depth, rest.depth_withTexts]
    split
    · rfl
    · rw [value.depth_withTexts]

end

end SealedConfig.Json
