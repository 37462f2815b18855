import Mathlib.Logic.Relation
import SealedConfig.KeyPath

/-!
# Paths as texts

A path is read back from its text form exactly when every key of it can be named: no key is empty or holds a separator. Paths that are
read from a text have only such keys. Two texts name one path exactly when changes to their separators lead from one to the other.
-/

namespace SealedConfig.KeyPath

/-- A key that can be named in a text: it is not empty and holds no separator. -/
def IsName (key : String) : Prop := key ≠ "" ∧ ∀ c ∈ key.toList, isSeparator c = false

/-- A path of keys that can be named. -/
def IsNamed (path : KeyPath) : Prop := ∀ key ∈ path, IsName key

-- the instance for members of a list is named, since otherwise all characters could be gone through
instance (key : String) : Decidable (IsName key) := @instDecidableAnd _ _ _ (List.decidableBAll _ _)

instance (path : KeyPath) : Decidable path.IsNamed := List.decidableBAll _ _

/-! ## Pieces -/

theorem pieces_eq_splitOnP (text : List Char) : pieces text = text.splitOnP isSeparator := by
  induction text with
  | nil => rfl
  | cons c rest ih =>
    rw [pieces, List.splitOnP_cons_eq_if_modifyHead, ih]
    split
    · rfl
    · cases hrest : rest.splitOnP isSeparator with
      | nil => exact absurd hrest (List.splitOnP_ne_nil _ _)
      | cons piece more => rfl

/-- No piece holds a separator. -/
theorem isSeparator_of_mem_pieces {text piece : List Char} (h : piece ∈ pieces text) : ∀ c ∈ piece, isSeparator c = false := by
  induction text generalizing piece with
  | nil =>
    obtain rfl : piece = [] := List.mem_singleton.mp h
    exact nofun
  | cons c rest ih =>
    rw [pieces] at h
    split at h
    · rcases List.mem_cons.mp h with rfl | h
      · exact nofun
      · exact ih h
    · rename_i hc
      cases hrest : pieces rest with
      | nil =>
        rw [hrest] at h
        obtain rfl : piece = [c] := List.mem_singleton.mp h
        simpa using hc
      | cons first more =>
        rw [hrest] at h
        rcases List.mem_cons.mp h with rfl | h
        · exact List.forall_mem_cons.mpr ⟨by simpa using hc, ih (hrest ▸ List.mem_cons_self)⟩
        · exact ih (hrest ▸ List.mem_cons_of_mem _ h)

/-- Keys without separators that are joined by colons are the pieces of what they are joined to. -/
theorem pieces_intercalate {keys : List (List Char)} (hne : keys ≠ []) (h : ∀ key ∈ keys, ∀ c ∈ key, isSeparator c = false) :
    pieces (List.intercalate [':'] keys) = keys := by
  rw [pieces_eq_splitOnP]
  induction keys with
  | nil => exact absurd rfl hne
  | cons key rest ih =>
    cases rest with
    | nil =>
      have hone : List.intercalate [':'] [key] = key := by simp [List.intercalate]
      rw [hone, List.splitOnP_eq_singleton (h key List.mem_cons_self)]
    | cons next rest =>
      have hmore : List.intercalate [':'] (key :: next :: rest) = key ++ ':' :: List.intercalate [':'] (next :: rest) := by
        simp [List.intercalate]
      rw [hmore, List.splitOnP_append_cons_of_forall_mem (h key List.mem_cons_self) ':' rfl, ih (List.cons_ne_nil _ _)]
      exact fun other hother => h other (List.mem_cons_of_mem _ hother)

/-! ## Reading and showing -/

/-- A path is read back from its text form when its keys can be named. -/
theorem parse_display {path : KeyPath} (h : path.IsNamed) : parse path.display = path := by
  rw [parse, display, String.toList_ofList]
  cases path with
  | nil => rfl
  | cons key rest =>
    rw [pieces_intercalate (by simp)]
    · have hkeep : ((key :: rest).map String.toList).filter (· ≠ []) = (key :: rest).map String.toList := by
        rw [List.filter_eq_self]
        intro piece hpiece
        obtain ⟨name, hname, rfl⟩ := List.mem_map.mp hpiece
        simpa using (h name hname).1
      rw [hkeep, List.map_map]
      simp
    · intro piece hpiece
      obtain ⟨name, hname, rfl⟩ := List.mem_map.mp hpiece
      exact (h name hname).2

/-- The keys of a path that is read from a text can be named. -/
theorem isNamed_parse (text : String) : (parse text).IsNamed := by
  intro key hkey
  obtain ⟨piece, hpiece, rfl⟩ := List.mem_map.mp hkey
  obtain ⟨hpiece, hne⟩ := List.mem_filter.mp hpiece
  refine ⟨by simpa using hne, ?_⟩
  rw [String.toList_ofList]
  exact isSeparator_of_mem_pieces hpiece

/-- Paths of keys that can be named are told apart by their text forms. -/
theorem display_inj {path other : KeyPath} (h : path.IsNamed) (h' : other.IsNamed) (heq : path.display = other.display) :
    path = other := by
  rw [← parse_display h, ← parse_display h', heq]

/-! ## Texts that name one path -/

/-- A text becomes another by a change to its separators that leaves its keys alone: a separator takes the place of another, or follows
another, or comes before or behind the whole text. -/
inductive Respaced : List Char → List Char → Prop where
  | swap (before after : List Char) {c d : Char} (hc : isSeparator c = true) (hd : isSeparator d = true) :
    Respaced (before ++ c :: after) (before ++ d :: after)
  | double (before after : List Char) {c d : Char} (hc : isSeparator c = true) (hd : isSeparator d = true) :
    Respaced (before ++ c :: after) (before ++ c :: d :: after)
  | lead (text : List Char) {c : Char} (hc : isSeparator c = true) : Respaced text (c :: text)
  | trail (text : List Char) {c : Char} (hc : isSeparator c = true) : Respaced text (text ++ [c])

/-- The keys that a text names, as characters. -/
def names (text : List Char) : List (List Char) := (pieces text).filter (· ≠ [])

theorem parse_eq_names (text : String) : parse text = (names text.toList).map String.ofList := rfl

@[simp] theorem names_nil : names [] = [] := rfl

/-- A separator ends the keys before it. -/
theorem names_append_cons {c : Char} (hc : isSeparator c = true) (before after : List Char) :
    names (before ++ c :: after) = names before ++ names after := by
  simp only [names, pieces_eq_splitOnP]
  rw [List.splitOnP_append_cons before after hc, List.filter_append]

theorem names_cons {c : Char} (hc : isSeparator c = true) (text : List Char) : names (c :: text) = names text :=
  names_append_cons hc [] text

/-- Characters that are no separators are one key. -/
theorem names_word {word : List Char} (hne : word ≠ []) (h : ∀ c ∈ word, isSeparator c = false) : names word = [word] := by
  rw [names, pieces_eq_splitOnP, List.splitOnP_eq_singleton h]
  simp [hne]

/-- A change of separators leaves the keys. -/
theorem Respaced.names_eq {text other : List Char} (h : Respaced text other) : names text = names other := by
  cases h with
  | swap before after hc hd => rw [names_append_cons hc, names_append_cons hd]
  | double before after hc hd => rw [names_append_cons hc, names_append_cons hc, names_cons hd]
  | lead _ hc => rw [names_cons hc]
  | trail _ hc => rw [names_append_cons hc, names_nil, List.append_nil]

/-- So do any number of changes, forth and back. -/
theorem names_eq_of_eqvGen {text other : List Char} (h : Relation.EqvGen Respaced text other) : names text = names other := by
  induction h with
  | rel _ _ h => exact h.names_eq
  | refl => rfl
  | symm _ _ _ ih => exact ih.symm
  | trans _ _ _ _ _ ih ih' => exact ih.trans ih'

/-- Keys with a colon before each. -/
def listed (keys : List (List Char)) : List Char := keys.flatMap (':' :: ·)

open Relation (EqvGen) in
/-- Changes of separators lead from a colon, a run of characters that are no separators, and a text to the keys of the last two, each
behind a colon. -/
theorem eqvGen_listed (text before word : List Char) (h : ∀ c ∈ word, isSeparator c = false) :
    EqvGen Respaced (before ++ ':' :: (word ++ text)) (before ++ listed (names (word ++ text))) := by
  have hcolon : isSeparator ':' = true := rfl
  -- the run takes up the characters of the text until a separator ends it
  induction text generalizing before word with
  | nil =>
    rw [List.append_nil]
    by_cases hne : word = []
    · rw [hne, names_nil, listed, List.flatMap_nil, List.append_nil]
      exact (EqvGen.rel _ _ (.trail before hcolon)).symm
    · rw [names_word hne h, listed, List.flatMap_singleton]
      exact .refl _
  | cons c rest ih =>
    by_cases hc : isSeparator c = true
    · by_cases hne : word = []
      · rw [hne, List.nil_append, names_cons hc]
        exact (EqvGen.rel _ _ (.double before rest hcolon hc)).symm.trans _ _ _ (ih before [] nofun)
      · have hswap := Respaced.swap (before ++ ':' :: word) rest hc hcolon
        have hrest := ih (before ++ ':' :: word) [] nofun
        rw [names_append_cons hc, names_word hne h]
        simp only [List.append_assoc, List.cons_append, List.nil_append, listed, List.flatMap_cons] at hswap hrest ⊢
        exact .trans _ _ _ (.rel _ _ hswap) hrest
    · have hword : ∀ d ∈ word ++ [c], isSeparator d = false := by
        intro d hd
        rcases List.mem_append.mp hd with hd | hd
        · exact h d hd
        · obtain rfl := List.mem_singleton.mp hd
          exact Bool.eq_false_iff.mpr hc
      have hmore := ih before (word ++ [c]) hword
      rwa [List.append_assoc, List.singleton_append] at hmore

/-- Two texts name one path exactly when changes of separators lead from one to the other. -/
theorem parse_eq_iff (text other : String) :
    parse text = parse other ↔ Relation.EqvGen Respaced text.toList other.toList := by
  have hlisted (text : List Char) : Relation.EqvGen Respaced text (listed (names text)) :=
    .trans _ _ _ (.rel _ _ (.lead text (c := ':') rfl)) (eqvGen_listed text [] [] nofun)
  rw [parse_eq_names, parse_eq_names, List.map_inj_right fun _ _ => String.ofList_injective]
  refine ⟨fun h => ?_, names_eq_of_eqvGen⟩
  exact (hlisted text.toList).trans _ _ _ (h ▸ (hlisted other.toList).symm)

/-- The text form of a path is read back as the path exactly when every key can be named: it is not empty and holds no separator. What
was read from a text is always read back. And two texts are read as the same path exactly when one becomes the other by changes that
swap separators, repeat them, add them at an end, or undo this. -/
theorem parse_upToSeparators :
    (∀ path : KeyPath, parse path.display = path ↔ ∀ key ∈ path, key ≠ "" ∧ ∀ c ∈ key.toList, c ≠ ':' ∧ c ≠ '/') ∧
      (∀ text, parse (parse text).display = parse text) ∧
      ∀ text other : String, parse text = parse other ↔ Relation.EqvGen Respaced text.toList other.toList := by
  have hnamed (path : KeyPath) : path.IsNamed ↔ ∀ key ∈ path, key ≠ "" ∧ ∀ c ∈ key.toList, c ≠ ':' ∧ c ≠ '/' := by
    simp [IsNamed, IsName, isSeparator]
  refine ⟨fun path => ?_, fun text => parse_display (isNamed_parse text), parse_eq_iff⟩
  rw [← hnamed]
  refine ⟨fun h => ?_, parse_display⟩
  rw [← h]
  exact isNamed_parse path.display

end SealedConfig.KeyPath
