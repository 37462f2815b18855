import SealedConfig.Toml.Scalar

/-!
# Reading TOML text

A text is a sequence of lines: comments, key-value pairs and headers. A table may be opened by one header only, keys
with dots may extend only tables that such keys made, and no key may be given twice.
-/

namespace SealedConfig.Toml

/-- How a table came about: by a header of its own, on the way to another table, or by keys with dots. -/
inductive Origin where
  | header
  | passage
  | dotted
  deriving DecidableEq, Repr

/-- What a key stands for while a text is read. -/
inductive Node where
  | value (value : Toml)
  | table (origin : Origin) (entries : List (String × Node))
  | tables (elements : List (List (String × Node)))

/-- The entries of a table while a text is read. -/
abbrev Entries := List (String × Node)

/-- The entries with a key's node replaced, or added at the end. -/
def Entries.set (entries : Entries) (key : String) (node : Node) : Entries :=
  match entries with
  | [] => [(key, node)]
  | (k, n) :: rest => if k = key then (k, node) :: rest else (k, n) :: Entries.set rest key node

/-- The entries without a key. -/
def Entries.remove (entries : Entries) (key : String) : Entries := entries.filter fun entry => entry.1 ≠ key

mutual

/-- The value that a node stands for once the text is read. -/
def Node.toValue : Node → Toml
  | .value value => value
  | .table _ entries => .table (entriesToValues entries)
  | .tables elements => .array (elementsToValues elements)

/-- The values of entries. -/
def entriesToValues : List (String × Node) → List (String × Toml)
  | [] => []
  | (key, node) :: rest => (key, node.toValue) :: entriesToValues rest

/-- The values of the tables of a list. -/
def elementsToValues : List (List (String × Node)) → List Toml
  | [] => []
  | entries :: rest => .table (entriesToValues entries) :: elementsToValues rest

end

/-- Changes the table at the end of a path of keys, making tables of an origin on the way. A list of tables stands for
its last element; by keys with dots no table made by a header may be entered. -/
def descend? (origin : Origin) (change : Entries → Option Entries) : List String → Entries → Option Entries
  | [], entries => change entries
  | key :: path, entries =>
    match entries.lookup key with
    | none => (descend? origin change path []).map fun inner => Entries.set entries key (.table origin inner)
    | some (.value _) => none
    | some (.tables elements) =>
      match elements.getLast? with
      | none => none
      | some last =>
        (descend? origin change path last).map fun inner =>
          Entries.set entries key (.tables (elements.dropLast ++ [inner]))
    | some (.table made inner) =>
      if origin = .dotted ∧ made = .header then none
      else (descend? origin change path inner).map fun inner => Entries.set entries key (.table made inner)

/-- The origin of the table at the end of a path that keys with dots have made or entered. -/
def originAt? : List String → Entries → Option Origin
  | [], _ => none
  | key :: path, entries =>
    match entries.lookup key with
    | some (.table made inner) => if path = [] then some made else originAt? path inner
    | some (.tables elements) =>
      match elements.getLast? with
      | some last => if path = [] then some .header else originAt? path last
      | none => none
    | _ => none

/-- Adds a value under a key at the end of a path of dotted keys. -/
def insert? (path : List String) (key : String) (value : Toml) (entries : Entries) : Option Entries := do
  let changed ← descend? .dotted
    (fun inner => if (inner.lookup key).isSome then none else some (inner ++ [(key, .value value)])) path entries
  guard (path = [] ∨ originAt? path changed = some .dotted)
  return changed

/-! ## Keys -/

/-- Whether a character may stand in a key without quotes. -/
def isBare (c : Char) : Bool :=
  ('A' ≤ c && c ≤ 'Z') || ('a' ≤ c && c ≤ 'z') || isDigit c || c == '_' || c == '-'

/-- One key, with or without quotes. -/
def simpleKey? (s : List Char) : Option (String × List Char) :=
  match s with
  | '"' :: rest => (basic? (rest.length + 1) rest).map fun (cs, after) => (String.ofList cs, after)
  | '\'' :: rest => (literal? rest).map fun (cs, after) => (String.ofList cs, after)
  | _ =>
    let bare := s.takeWhile isBare
    if bare = [] then none else some (String.ofList bare, s.dropWhile isBare)

/-- Keys joined by dots, with blanks around each. -/
def keys? : (room : Nat) → List Char → Option (List String × List Char)
  | 0, _ => none
  | room + 1, s => do
    let (first, rest) ← simpleKey? (skipBlanks s)
    match skipBlanks rest with
    | '.' :: rest => do
      let (more, after) ← keys? room rest
      return (first :: more, after)
    | rest => return ([first], rest)

/-- How many keys may be joined and how deep values may stand inside each other, and one more. -/
def nestingLimit : Nat := 80

/-- Fewer keys than the limit, joined by dots. -/
def key? (s : List Char) : Option (List String × List Char) := do
  let (path, rest) ← keys? (s.length + 1) s
  guard (path.length < nestingLimit)
  return (path, rest)

/-! ## Values -/

/-- The text behind a comment, if there is one. -/
def skipComment (s : List Char) : List Char :=
  match s with
  | '#' :: rest => rest.dropWhile isPrinting
  | _ => s

/-- The text behind blanks, line ends and comments. -/
def skipFiller : (room : Nat) → List Char → List Char
  | 0, s => s
  | room + 1, s =>
    let s := skipBlanks s
    match s with
    | '#' :: _ =>
      match newline? (skipComment s) with
      | some rest => skipFiller room rest
      | none => s
    | _ =>
      match newline? s with
      | some rest => skipFiller room rest
      | none => s

mutual

/-- Reads a value that stands inside `depth` others; `room` bounds the steps. -/
def value? : (room : Nat) → (depth : Nat) → List Char → Option (Toml × List Char)
  | 0, _, _ => none
  | room + 1, depth, s =>
    match s with
    | '[' :: rest =>
      if nestingLimit ≤ depth + 1 then none
      else
        match skipFiller rest.length rest with
        | ']' :: after => some (.array [], after)
        | rest => (items? room (depth + 1) rest).map fun (items, after) => (.array items, after)
    | '\x7b' :: rest =>
      if nestingLimit ≤ depth + 1 then none
      else
        match skipBlanks rest with
        | '\x7d' :: after => some (.table [], after)
        | rest => (pairs? room (depth + 1) [] rest).map fun (entries, after) => (.table (entriesToValues entries), after)
    | _ => scalar? s

/-- Reads the items of a list from one on, up to and including the closing bracket. -/
def items? : (room : Nat) → (depth : Nat) → List Char → Option (List Toml × List Char)
  | 0, _, _ => none
  | room + 1, depth, s => do
    let (item, rest) ← value? room depth s
    match skipFiller rest.length rest with
    | ']' :: after => return ([item], after)
    | ',' :: rest =>
      match skipFiller rest.length rest with
      | ']' :: after => return ([item], after)
      | rest => do
        let (items, after) ← items? room depth rest
        return (item :: items, after)
    | _ => none

/-- Reads the pairs of a table between braces from one on, up to and including the closing brace. -/
def pairs? : (room : Nat) → (depth : Nat) → Entries → List Char → Option (Entries × List Char)
  | 0, _, _, _ => none
  | room + 1, depth, entries, s => do
    let (path, rest) ← key? s
    let rest ← mark? '=' rest
    let (value, rest) ← value? room depth (skipBlanks rest)
    let key ← path.getLast?
    let entries ← insert? path.dropLast key value entries
    match skipBlanks rest with
    | '\x7d' :: after => return (entries, after)
    | ',' :: rest => pairs? room depth entries rest
    | _ => none

end

/-! ## Texts -/

/-- What has been read: the finished tables, and the table that pairs now go to with its place. -/
structure Draft where
  root : Entries
  place : List String
  inList : Bool
  current : Entries

/-- The root with the current table put in its place. -/
def Draft.finish? (draft : Draft) : Option Entries :=
  match draft.place.getLast? with
  | none => some draft.current
  | some key =>
    descend? .passage (fun entries =>
      match entries.lookup key with
      | none =>
        some (entries ++ [(key, if draft.inList then .tables [draft.current] else .table .header draft.current)])
      | some (.tables elements) =>
        if draft.inList then some (Entries.set entries key (.tables (elements ++ [draft.current]))) else none
      | some _ => none) draft.place.dropLast draft.root

/-- The table that a header may open: a new one, or one that lay on the way to another table. -/
def Draft.open? (draft : Draft) (path : List String) : Option Draft := do
  let root ← draft.finish?
  let key ← path.getLast?
  let parent ← findTable? path.dropLast root
  match parent.lookup key with
  | none => return ⟨root, path, false, []⟩
  | some (.table .passage entries) =>
    let root ← descend? .passage (fun inner => some (Entries.remove inner key)) path.dropLast root
    return ⟨root, path, false, entries⟩
  | some _ => none
where
  /-- The table at the end of a path, empty when nothing is there yet. -/
  findTable? : List String → Entries → Option Entries
    | [], entries => some entries
    | key :: path, entries =>
      match entries.lookup key with
      | none => some []
      | some (.value _) => none
      | some (.table _ inner) => findTable? path inner
      | some (.tables elements) => elements.getLast? >>= findTable? path

/-- The next element of a list of tables. -/
def Draft.openElement? (draft : Draft) (path : List String) : Option Draft := do
  let root ← draft.finish?
  let key ← path.getLast?
  let root ← descend? .passage (fun entries =>
    match entries.lookup key with
    | none => some (entries ++ [(key, .tables [])])
    | some (.tables _) => some entries
    | some _ => none) path.dropLast root
  return ⟨root, path, true, []⟩

/-- The text behind the end of a line that may close with a comment. -/
def endLine? (s : List Char) : Option (List Char) :=
  let rest := skipComment (skipBlanks s)
  if rest = [] then some [] else newline? rest

/-- Reads lines up to the end of the text. -/
def lines? : (room : Nat) → Draft → List Char → Option Draft
  | 0, _, _ => none
  | room + 1, draft, s =>
    let s := skipBlanks s
    match s with
    | [] => some draft
    | '[' :: '[' :: rest => do
      let (path, rest) ← key? rest
      let rest ← mark? ']' rest >>= mark? ']' >>= endLine?
      let draft ← draft.openElement? path
      lines? room draft rest
    | '[' :: rest => do
      let (path, rest) ← key? rest
      let rest ← mark? ']' rest >>= endLine?
      let draft ← draft.open? path
      lines? room draft rest
    | c :: _ =>
      if c = '#' ∨ (newline? s).isSome then endLine? s >>= lines? room draft
      else do
        let (path, rest) ← key? s
        let rest ← mark? '=' rest
        let (value, rest) ← value? (2 * rest.length + 1) 0 (skipBlanks rest)
        let rest ← endLine? rest
        let key ← path.getLast?
        let current ← insert? path.dropLast key value draft.current
        lines? room { draft with current := current } rest

/-- The entries of a text, unless it is malformed. A byte order mark at its front is skipped. -/
def parse? (text : String) : Option (List (String × Toml)) := do
  let s := match text.toList with
    | '\ufeff' :: rest => rest
    | s => s
  let draft ← lines? (s.length + 1) ⟨[], [], false, []⟩ s
  let root ← draft.finish?
  return entriesToValues root

end SealedConfig.Toml
