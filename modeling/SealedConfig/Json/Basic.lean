/-!
# JSON trees

The values of a JSON text. An object keeps its members in the order of the text; a key occurs once.
-/

namespace SealedConfig

namespace Json

/-- A number: whole and within 64 bits, or any other, kept as it was written. -/
inductive Number where
  | integer (value : Int)
  | decimal (spelling : String)
  deriving DecidableEq, Repr, Inhabited

end Json

/-- A JSON value. -/
inductive Json where
  | null
  | bool (value : Bool)
  | number (value : Json.Number)
  | string (value : String)
  | array (items : List Json)
  | object (members : List (String × Json))
  deriving Repr, Inhabited

namespace Json

/-- The members of an object in the order of its text. -/
abbrev Members := List (String × Json)

/-- The members with a key set: in its place when the key is there, at the end when it is new. -/
def Members.set (members : Members) (key : String) (value : Json) : Members :=
  match members with
  | [] => [(key, value)]
  | (k, v) :: rest => if k = key then (k, value) :: rest else (k, v) :: Members.set rest key value

/-- The members that pairs in the order of a text make: a repeated key keeps its first place and its last value. -/
def Members.ofPairs (pairs : List (String × Json)) : Members :=
  pairs.foldl (fun members pair => Members.set members pair.1 pair.2) []

/-- Whether two keys differ at most in the case of ASCII letters. -/
def sameIgnoringCase (a b : String) : Bool := a.toList.map Char.toLower == b.toList.map Char.toLower

/-- The value of a key: of the member so spelled, else of the first one that differs only in the case of ASCII
letters. -/
def Members.find? (members : Members) (key : String) : Option Json :=
  match members.lookup key with
  | some value => some value
  | none => (List.find? (fun member => sameIgnoringCase member.1 key) members).map (·.2)

/-- The value of a key, when the tree is an object that has it. -/
def member? : Json → String → Option Json
  | .object members, key => Members.find? members key
  | _, _ => none

/-- The value at the end of a path of keys. -/
def get? (tree : Json) : List String → Option Json
  | [] => some tree
  | key :: rest => (tree.member? key).bind fun child => child.get? rest

/-- The text of a string value. -/
def text? : Json → Option String
  | .string value => some value
  | _ => none

end Json

end SealedConfig
