import SealedConfig.Proofs.Json.Leaf
import SealedConfig.Proofs.Json.Literal
import SealedConfig.Proofs.Json.Number

/-!
# Values as they are spelled

A `Source` is a JSON value together with its spelling: blanks, literals with their escapes, words and numbers as written, every
member of an object in the order of the text. Only what both readers take can be put together, so a source has a text, and that
text a tree.
-/

namespace SealedConfig.Json

/-- Blanks between tokens. -/
structure Gap where
  text : List Char
  blank : ∀ c ∈ text, isBlank c = true

/-- A value that holds no text that a path of keys leads to and no further value: a word, a number, an empty list or object. -/
def IsAtomic : Json → Prop
  | .null | .bool _ | .number _ | .array [] | .object [] => True
  | _ => False

/-- The spelling of a value that both readers take as a whole, under at least so many containers that may open. -/
structure Atom where
  text : List Char
  value : Json
  depth : Nat
  atomic : value.IsAtomic
  starts : ∃ c rest, text = c :: rest ∧ Span.endsScalar c = false
  read : ∀ room limit rest, depth ≤ limit → Stops rest → readValue (room + 1) limit (text ++ rest) = .ok (value, rest)
  walk : ∀ room path offset rest found, Stops rest →
    Span.walkValue (room + 1) path ⟨offset, text ++ rest⟩ found = .ok (⟨offset + utf8Length text, rest⟩, found)

/-- A key as it is spelled, with the blanks around it and around its colon. -/
structure KeyPart where
  before : Gap
  name : Literal
  colon : Gap
  after : Gap

/-- The characters of a key and its colon. -/
def KeyPart.text (part : KeyPart) : List Char :=
  part.before.text ++ part.name.text ++ part.colon.text ++ ':' :: part.after.text

/-- The key that is spelled. -/
def KeyPart.key (part : KeyPart) : String := part.name.value

mutual

/-- A value as it is spelled, without the blanks around it. -/
inductive Source where
  | atom (atom : Atom)
  | string (literal : Literal)
  | array (items : Items)
  | object (fields : Fields)

/-- The items of a list as they are spelled; there is at least one. -/
inductive Items where
  | last (before : Gap) (value : Source) (after : Gap)
  | cons (before : Gap) (value : Source) (after : Gap) (rest : Items)

/-- The members of an object as they are spelled; there is at least one. -/
inductive Fields where
  | last (part : KeyPart) (value : Source) (after : Gap)
  | cons (part : KeyPart) (value : Source) (after : Gap) (rest : Fields)

end

/-! ## Text, tree and depth -/

mutual

/-- The characters of a value. -/
def Source.text : Source → List Char
  | .atom atom => atom.text
  | .string literal => literal.text
  | .array items => '[' :: items.text ++ [']']
  | .object fields => '\x7b' :: fields.text ++ ['\x7d']

/-- The characters between the brackets of a list. -/
def Items.text : Items → List Char
  | .last before value after => before.text ++ value.text ++ after.text
  | .cons before value after rest => before.text ++ value.text ++ after.text ++ ',' :: rest.text

/-- The characters between the braces of an object. -/
def Fields.text : Fields → List Char
  | .last part value after => part.text ++ value.text ++ after.text
  | .cons part value after rest => part.text ++ value.text ++ after.text ++ ',' :: rest.text

end

mutual

/-- The value that is spelled. -/
def Source.tree : Source → Json
  | .atom atom => atom.value
  | .string literal => .string literal.value
  | .array items => .array items.trees
  | .object fields => .object (Members.ofPairs fields.pairs)

/-- The items that are spelled. -/
def Items.trees : Items → List Json
  | .last _ value _ => [value.tree]
  | .cons _ value _ rest => value.tree :: rest.trees

/-- The members that are spelled, keys that occur again included. -/
def Fields.pairs : Fields → List (String × Json)
  | .last part value _ => [(part.key, value.tree)]
  | .cons part value _ rest => (part.key, value.tree) :: rest.pairs

end

/-- The keys of an object in the order of its text. -/
def Fields.keys (fields : Fields) : List String := fields.pairs.map Prod.fst

mutual

/-- How many containers deep a value goes. -/
def Source.depth : Source → Nat
  | .atom atom => atom.depth
  | .string _ => 0
  | .array items => items.depth + 1
  | .object fields => fields.depth + 1

/-- How many containers deep items go. -/
def Items.depth : Items → Nat
  | .last _ value _ => value.depth
  | .cons _ value _ rest => max value.depth rest.depth

/-- How many containers deep members go. -/
def Fields.depth : Fields → Nat
  | .last _ value _ => value.depth
  | .cons _ value _ rest => max value.depth rest.depth

end

/-! ## Blanks -/

theorem skipBlanks_cons {c : Char} (h : isBlank c = false) (s : List Char) : skipBlanks (c :: s) = c :: s := by
  simp [skipBlanks, h]

@[simp] theorem skipBlanks_gap (gap : Gap) (s : List Char) : skipBlanks (gap.text ++ s) = skipBlanks s :=
  List.dropWhile_append_of_pos gap.blank

@[simp] theorem skipBlanks_skipBlanks (s : List Char) : skipBlanks (skipBlanks s) = skipBlanks s := by
  rcases hs : skipBlanks s with _ | ⟨c, rest⟩
  · rfl
  · have hc := List.head?_dropWhile_not isBlank s
    rw [show s.dropWhile isBlank = c :: rest from hs] at hc
    exact skipBlanks_cons (by simpa using hc) rest

/-- What stands in front of a text without its blanks is a gap. -/
theorem exists_gap (s : List Char) : ∃ gap : Gap, s = gap.text ++ skipBlanks s :=
  ⟨⟨s.takeWhile isBlank, fun c hc => List.all_eq_true.mp List.all_takeWhile c hc⟩,
    (List.takeWhile_append_dropWhile (p := isBlank)).symm⟩

/-- A character that ends no scalar is not blank. -/
theorem isBlank_of_endsScalar {c : Char} (h : Span.endsScalar c = false) : isBlank c = false := by
  simp only [Span.endsScalar, Bool.or_eq_false_iff] at h
  exact h.2

/-- Blanks end scalars, and so does what stops them behind blanks. -/
theorem stops_gap {rest : List Char} (h : Stops rest) (gap : Gap) : Stops (gap.text ++ rest) := by
  rcases hg : gap.text with _ | ⟨c, cs⟩
  · exact h
  · have hc : isBlank c = true := gap.blank c (hg ▸ List.mem_cons_self)
    exact stops_cons (by simp [Span.endsScalar, hc]) _

/-- A value begins with a character that ends no scalar. -/
theorem Source.exists_head (src : Source) : ∃ c rest, src.text = c :: rest ∧ Span.endsScalar c = false := by
  cases src with
  | atom atom => exact atom.starts
  | string literal => exact ⟨_, _, rfl, rfl⟩
  | array items => exact ⟨_, _, rfl, rfl⟩
  | object fields => exact ⟨_, _, rfl, rfl⟩

/-- Behind a gap a value begins where the blanks end. -/
theorem Source.skipBlanks_text (src : Source) (rest : List Char) : skipBlanks (src.text ++ rest) = src.text ++ rest := by
  obtain ⟨c, tail, ht, hc⟩ := src.exists_head
  rw [ht]
  exact skipBlanks_cons (isBlank_of_endsScalar hc) _

/-- Items begin, behind blanks, with a character that ends no scalar. -/
theorem Items.exists_skipBlanks (items : Items) (rest : List Char) :
    ∃ c tail, skipBlanks (items.text ++ rest) = c :: tail ∧ Span.endsScalar c = false := by
  cases items with
  | last before value after | cons before value after more =>
    obtain ⟨c, tail, ht, hc⟩ := value.exists_head
    exact ⟨c, _, by
      simp only [Items.text, List.append_assoc, skipBlanks_gap]
      rw [Source.skipBlanks_text, ht, List.cons_append], hc⟩

/-- Members begin, behind blanks, with the quote of a key. -/
theorem Fields.exists_skipBlanks (fields : Fields) (rest : List Char) :
    ∃ tail, skipBlanks (fields.text ++ rest) = '"' :: tail := by
  cases fields with
  | last part value after | cons part value after more =>
    simp only [Fields.text, KeyPart.text, Literal.text, List.append_assoc, List.cons_append, skipBlanks_gap]
    exact ⟨_, skipBlanks_cons (by decide) _⟩

/-! ## More blanks in front -/

/-- Two gaps in a row are one gap. -/
def Gap.append (first second : Gap) : Gap :=
  ⟨first.text ++ second.text, fun c hc => (List.mem_append.mp hc).elim (first.blank c) (second.blank c)⟩

/-- The same items behind more blanks. -/
def Items.behind (gap : Gap) : Items → Items
  | .last before value after => .last (gap.append before) value after
  | .cons before value after rest => .cons (gap.append before) value after rest

@[simp] theorem Items.text_behind (gap : Gap) (items : Items) : (items.behind gap).text = gap.text ++ items.text := by
  cases items <;> simp [Items.behind, Items.text, Gap.append]

@[simp] theorem Items.trees_behind (gap : Gap) (items : Items) : (items.behind gap).trees = items.trees := by
  cases items <;> rfl

@[simp] theorem Items.depth_behind (gap : Gap) (items : Items) : (items.behind gap).depth = items.depth := by
  cases items <;> rfl

/-- The same members behind more blanks. -/
def Fields.behind (gap : Gap) : Fields → Fields
  | .last part value after => .last { part with before := gap.append part.before } value after
  | .cons part value after rest => .cons { part with before := gap.append part.before } value after rest

@[simp] theorem Fields.text_behind (gap : Gap) (fields : Fields) :
    (fields.behind gap).text = gap.text ++ fields.text := by
  cases fields <;> simp [Fields.behind, Fields.text, KeyPart.text, Gap.append]

@[simp] theorem Fields.pairs_behind (gap : Gap) (fields : Fields) : (fields.behind gap).pairs = fields.pairs := by
  cases fields <;> rfl

@[simp] theorem Fields.depth_behind (gap : Gap) (fields : Fields) : (fields.behind gap).depth = fields.depth := by
  cases fields <;> rfl

end SealedConfig.Json
