import SealedConfig.Proofs.Json.Layout

/-!
# All that the walk records

The walk over a source records every literal behind keys, those in values that a later member with the same key takes the place of
included. The whole template has a literal for each of them; without keys that occur again it is the template.
-/

namespace SealedConfig.Json

open Json.Span

mutual

/-- The template of a value with all literals behind its keys. -/
def Source.wholeTemplate : Source → Template
  | .atom atom => [.fixed atom.text]
  | .string literal => [.slot [] literal]
  | .array items => [.fixed ('[' :: items.text ++ [']'])]
  | .object fields => .fixed ['\x7b'] :: fields.wholeTemplate ++ [.fixed ['\x7d']]

/-- The template of members with all literals in their values, whether a key occurs again or not. -/
def Fields.wholeTemplate : Fields → Template
  | .last part value after => .fixed part.text :: value.wholeTemplate.map (Piece.under part.key) ++ [.fixed after.text]
  | .cons part value after rest =>
    .fixed part.text :: value.wholeTemplate.map (Piece.under part.key) ++ .fixed (after.text ++ [',']) :: rest.wholeTemplate

end

mutual

/-- No object that a path of keys leads to has a key twice. -/
def Source.HasKeysOnce : Source → Prop
  | .object fields => fields.HaveKeysOnce
  | _ => True

/-- No key of the members occurs again, and none does inside their values. -/
def Fields.HaveKeysOnce : Fields → Prop
  | .last _ value _ => value.HasKeysOnce
  | .cons part value _ rest => part.key ∉ rest.keys ∧ value.HasKeysOnce ∧ rest.HaveKeysOnce

end

mutual

/-- The whole template of a source is its text. -/
@[simp] theorem Source.text_wholeTemplate (src : Source) : src.wholeTemplate.text = src.text := by
  match src with
  | .atom _ | .string _ | .array _ => simp [Source.wholeTemplate, Source.text, Piece.text]
  | .object fields => simp [Source.wholeTemplate, Source.text, Piece.text, fields.text_wholeTemplate]

@[simp] theorem Fields.text_wholeTemplate (fields : Fields) : fields.wholeTemplate.text = fields.text := by
  match fields with
  | .last part value after => simp [Fields.wholeTemplate, Fields.text, Piece.text, value.text_wholeTemplate]
  | .cons part value after rest =>
    simp [Fields.wholeTemplate, Fields.text, Piece.text, value.text_wholeTemplate, rest.text_wholeTemplate]

end

mutual

/-- Where no key occurs again, all literals are those of the template. -/
theorem Source.wholeTemplate_eq (src : Source) (h : src.HasKeysOnce) : src.wholeTemplate = src.template := by
  match src with
  | .atom _ | .string _ | .array _ => rfl
  | .object fields => rw [Source.wholeTemplate, Source.template, fields.wholeTemplate_eq h]

theorem Fields.wholeTemplate_eq (fields : Fields) (h : fields.HaveKeysOnce) : fields.wholeTemplate = fields.template := by
  match fields with
  | .last part value after => rw [Fields.wholeTemplate, Fields.template, value.wholeTemplate_eq h]
  | .cons part value after rest =>
    obtain ⟨hnew, hvalue, hrest⟩ := h
    rw [Fields.wholeTemplate, Fields.template, if_neg hnew, value.wholeTemplate_eq hvalue, rest.wholeTemplate_eq hrest]

end

/-! ## The walk records the whole template -/

/-- Slots below a key, at paths behind a base, are slots behind the longer base. -/
theorem map_base_under (base : KeyPath) (key : String) (slots : List (KeyPath × Span)) :
    (slots.map fun (path, span) => (key :: path, span)).map (fun slot => (base ++ slot.1, slot.2)) =
      slots.map fun slot => (base ++ [key] ++ slot.1, slot.2) := by
  rw [List.map_map]
  exact List.map_congr_left fun slot _ => Prod.ext (List.append_cons base key slot.1) rfl

mutual

/-- What the walk records is the literals of the whole template, the last one of the text first. -/
theorem Source.marks_eq (src : Source) (base : KeyPath) (offset : Nat) :
    src.marks (some base) offset =
      ((Template.spans offset src.wholeTemplate).map fun slot => (base ++ slot.1, slot.2)).reverse := by
  match src with
  | .atom _ | .array _ => rfl
  | .string literal => simp [Source.marks, Literal.marks, Source.wholeTemplate, Template.spans]
  | .object fields =>
    rw [Source.marks, fields.marks_eq base, show (1 : Nat) = utf8Length ['\x7b'] from rfl]
    simp [Source.wholeTemplate, Template.spans]

theorem Fields.marks_eq (fields : Fields) (base : KeyPath) (offset : Nat) :
    fields.marks (some base) offset =
      ((Template.spans offset fields.wholeTemplate).map fun slot => (base ++ slot.1, slot.2)).reverse := by
  match fields with
  | .last part value after =>
    rw [Fields.marks, Option.map_some, value.marks_eq, Fields.wholeTemplate, List.cons_append, Template.spans,
      Template.spans_append, Template.spans_map_under, Template.spans, Template.spans, List.append_nil, map_base_under]
  | .cons part value after rest =>
    rw [Fields.marks, Option.map_some, value.marks_eq, rest.marks_eq base, Fields.wholeTemplate, List.cons_append,
      Template.spans, Template.spans_append, Template.spans_map_under, Template.spans, List.map_append, List.reverse_append,
      map_base_under, Template.text_map_under, value.text_wholeTemplate, utf8Length_append, ← Nat.add_assoc]
    rfl

end

end SealedConfig.Json
