import SealedConfig.Document.Basic
import SealedConfig.Document.SecretName
import SealedConfig.Envelope
import SealedConfig.Text.Quoted

/-!
# Secrets in a document

The secrets of a tree are its non-empty strings, reached through objects only, that are marked or whose name is that of
a secret. They are listed in the order of the document; nothing inside a list counts.
-/

namespace SealedConfig

/-- A secret of a document: where it stands, its text, and whether that is marked. -/
structure SecretField where
  path : KeyPath
  value : String
  isEncrypted : Bool
  deriving DecidableEq, Repr

/-- What a secret shows of itself. -/
def SecretField.shown (field : SecretField) : String :=
  "SecretField \x7b path: " ++ quoted field.path.display ++ ", encrypted: " ++ toString field.isEncrypted ++ ", .. \x7d"

/-- The secrets of a document, in its order. -/
abbrev Scan := List SecretField

namespace Scan

/-- The secret that a string value under a key is, if it is one. -/
def leaf (path : KeyPath) (key value : String) : List SecretField :=
  if value = "" then []
  else if Envelope.isMarked value || isSecretName key then [⟨path, value, Envelope.isMarked value⟩]
  else []

mutual

/-- The secrets below a node at a path. -/
def below (path : KeyPath) : Json → Scan
  | .object members => ofMembers path members
  | _ => []

/-- The secrets of the members of an object at a path. -/
def ofMembers (path : KeyPath) : List (String × Json) → Scan
  | [] => []
  | (key, value) :: members =>
    (match value with
      | .string text => leaf (path.child key) key text
      | node => below (path.child key) node) ++ ofMembers path members

end

/-- The secrets of a tree. -/
def ofTree (tree : Json) : Scan := below [] tree

/-- The secrets of a document. -/
def ofDocument (doc : Document) : Scan := ofTree doc.tree

/-- The secrets that are not marked. -/
def plain (scan : Scan) : Scan := scan.filter fun field => !field.isEncrypted

/-- The secrets that are marked. -/
def encrypted (scan : Scan) : Scan := scan.filter fun field => field.isEncrypted

end Scan

end SealedConfig
