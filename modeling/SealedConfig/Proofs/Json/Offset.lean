import SealedConfig.Json.Span

/-!
# Byte offsets in a text of characters

How many bytes characters take, and where a byte offset cuts a text: a text is cut exactly where a part of it ends. A span
that covers a part of the text is replaced by replacing that part.
-/

namespace SealedConfig.Json

@[simp] theorem utf8Length_nil : utf8Length [] = 0 := rfl

@[simp] theorem utf8Length_cons (c : Char) (cs : List Char) : utf8Length (c :: cs) = c.utf8Size + utf8Length cs := rfl

@[simp] theorem utf8Length_append (as bs : List Char) : utf8Length (as ++ bs) = utf8Length as + utf8Length bs := by
  induction as with
  | nil => simp
  | cons c as ih => rw [List.cons_append, utf8Length_cons, utf8Length_cons, ih, Nat.add_assoc]

/-- Every character takes a byte. -/
theorem length_le_utf8Length (cs : List Char) : cs.length ≤ utf8Length cs := by
  induction cs with
  | nil => exact Nat.le_refl _
  | cons c cs ih =>
    have hc := Char.utf8Size_pos c
    simp only [List.length_cons, utf8Length_cons]
    omega

namespace Span

/-- A cut behind a first character cuts the rest by as many bytes less. -/
theorem splitAtByte?_cons {c : Char} {size : Nat} (h : c.utf8Size ≤ size) (cs : List Char) :
    splitAtByte? size (c :: cs) =
      (splitAtByte? (size - c.utf8Size) cs).map fun (before, after) => (c :: before, after) := by
  have hc := Char.utf8Size_pos c
  cases size with
  | zero => omega
  | succ size => rw [splitAtByte?, if_neg (by omega)]; exact nofun

/-- A text is cut behind its first part by the number of bytes of that part. -/
theorem splitAtByte?_append (before after : List Char) :
    splitAtByte? (utf8Length before) (before ++ after) = some (before, after) := by
  induction before with
  | nil => simp [splitAtByte?]
  | cons c before ih =>
    have hrest : c.utf8Size + utf8Length before - c.utf8Size = utf8Length before := by omega
    rw [utf8Length_cons, List.cons_append, splitAtByte?_cons (Nat.le_add_right _ _), hrest, ih]
    rfl

/-- The span of the part of a text behind `before`. -/
def covering (before inside : List Char) : Span := ⟨utf8Length before, utf8Length before + utf8Length inside⟩

/-- The ends of the span of a part are in order. -/
theorem guard_covering (before inside : List Char) :
    (guard ((covering before inside).start ≤ (covering before inside).stop) : Option Unit) = some () :=
  if_pos (Nat.le_add_right _ _)

/-- What stands in the span of a part is that part. -/
theorem slice?_covering (before inside after : List Char) :
    slice? (before ++ inside ++ after) (covering before inside) = some inside := by
  have hsub : utf8Length before + utf8Length inside - utf8Length before = utf8Length inside := by omega
  rw [slice?, guard_covering]
  simp only [covering, List.append_assoc, splitAtByte?_append, hsub, Option.bind_eq_bind, Option.bind_some]
  rfl

/-- Replacing the span of a part replaces that part. -/
theorem splice?_covering (before inside after replacement : List Char) :
    splice? (before ++ inside ++ after) (covering before inside) replacement =
      some (before ++ replacement ++ after) := by
  have hsub : utf8Length before + utf8Length inside - utf8Length before = utf8Length inside := by omega
  rw [splice?, guard_covering]
  simp only [covering, List.append_assoc, splitAtByte?_append, hsub, Option.bind_eq_bind, Option.bind_some]
  rfl

end Span

end SealedConfig.Json
