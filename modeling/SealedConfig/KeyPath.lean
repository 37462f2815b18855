/-!
# Paths of keys

The way from the root of a document to a node through objects, as the list of keys on it. Its text form joins the keys
with colons; reading a text also takes slashes for separators and drops empty keys, so it gives a path back exactly when
no key is empty or holds a separator.
-/

namespace SealedConfig

/-- The keys on the way to a node, outermost first. -/
abbrev KeyPath := List String

namespace KeyPath

/-- Whether a character separates keys in the text form. -/
def isSeparator (c : Char) : Bool := c == ':' || c == '/'

/-- The pieces of a text between separators, empty ones included. -/
def pieces : List Char → List (List Char)
  | [] => [[]]
  | c :: rest =>
    if isSeparator c then [] :: pieces rest
    else
      match pieces rest with
      | [] => [[c]]
      | piece :: more => (c :: piece) :: more

/-- The path that a text names. -/
def parse (text : String) : KeyPath := ((pieces text.toList).filter (· ≠ [])).map String.ofList

/-- The text form of a path. -/
def display (path : KeyPath) : String := String.ofList (List.intercalate [':'] (path.map String.toList))

/-- The path of a child. -/
def child (path : KeyPath) (key : String) : KeyPath := path ++ [key]

/-- The last key, the name of the node. -/
def leaf? (path : KeyPath) : Option String := path.getLast?

/-- Whether the path is that of the root. -/
def isRoot (path : KeyPath) : Bool := path.isEmpty

/-- The order of paths: key by key, each by its characters; a path comes before those it leads to. -/
def le : KeyPath → KeyPath → Bool
  | [], _ => true
  | _ :: _, [] => false
  | a :: as, b :: bs => if a = b then le as bs else decide (a < b)

end KeyPath

end SealedConfig
