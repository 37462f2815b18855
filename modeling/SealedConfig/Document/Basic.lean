import SealedConfig.Host.Fault
import SealedConfig.Json.Printer
import SealedConfig.Json.Span

/-!
# Documents

A configuration document is its text next to the tree that the text spells. Editing replaces single string literals in
the text, found by their path, so all that is not edited stays byte for byte; the tree is read again from the new text.
-/

namespace SealedConfig

/-- The mark that may open a text and belongs to no value. -/
def byteOrderMark : Char := '\ufeff'

namespace Document

/-- What stands for the path of a document that came from no file. -/
def memoryName : String := "<memory>"

/-- Why a document cannot be had or edited. -/
inductive Fault where
  | missing (path : String)
  | unreadable (path : String) (fault : FileFault)
  | malformed (path : String) (cause : Json.Cause) (line column : Nat)
  | unwalkable (stop : Json.Span.Stop)
  | noText (path : KeyPath)
  | misplacedEdit
  deriving DecidableEq, Repr

/-- The wording of a fault. -/
def Fault.message : Fault → String
  | .missing path => s!"configuration file not found: {path}"
  | .unreadable path fault => s!"failed to read {path}: {fault.message}"
  | .malformed path cause line column =>
    s!"invalid JSON in {path}: {cause.message} at line {line} column {column}"
  | .unwalkable stop => s!"malformed JSON at byte {stop.offset}: {stop.reason.message}"
  | .noText path => s!"no string value at {path.display}"
  | .misplacedEdit => "edit does not fall on character boundaries"

/-- The characters of a text behind its byte order mark, and how many bytes that mark takes. -/
def body (raw : String) : Nat × List Char :=
  match raw.toList with
  | [] => (0, [])
  | c :: rest => if c = byteOrderMark then (byteOrderMark.utf8Size, rest) else (0, c :: rest)

/-- The tree that a text spells, a byte order mark aside. -/
def readTree (raw : String) : Except Json.Fault Json := Json.parse (body raw).2

/-- Where each string literal of a text stands, later ones first. -/
def locate (raw : String) : Except Json.Span.Stop Json.Span.Found :=
  let (start, text) := body raw
  Json.Span.walk start text

end Document

/-- A text, the tree that it spells, and the file it came from. -/
structure Document where
  path : Option String
  raw : String
  tree : Json
  readTree_raw : Document.readTree raw = .ok tree

/-- A path and the text that the string there is to become. -/
abbrev Edit := KeyPath × String

namespace Document

/-- The document of a text that came from a file, or from none. -/
def read (path : Option String) (raw : String) : Except Fault Document :=
  match h : readTree raw with
  | .ok tree => .ok ⟨path, raw, tree, h⟩
  | .error fault =>
    let (line, column) := fault.place (body raw).2
    .error (.malformed (path.getD memoryName) fault.cause line column)

/-- The document of a text. -/
def ofText (raw : String) : Except Fault Document := read none raw

/-- The node at a path, keys being matched exactly or else ignoring the case of ASCII letters. -/
def get? (doc : Document) (path : KeyPath) : Option Json := doc.tree.get? path

/-- The text at a path. -/
def getText? (doc : Document) (path : KeyPath) : Option String := (doc.get? path).bind Json.text?

/-- The span and the new literal of every edit. -/
def targets (found : Json.Span.Found) : List Edit → Except Fault (List (Json.Span × List Char))
  | [] => .ok []
  | (path, value) :: rest =>
    match found.span? path with
    | none => .error (.noText path)
    | some span =>
      match targets found rest with
      | .error fault => .error fault
      | .ok more => .ok ((span, Json.literal value) :: more)

/-- The text with every target replaced, one after the other; the spans are those of the text before. -/
def spliceAll : List (Json.Span × List Char) → List Char → Option (List Char)
  | [], text => some text
  | (span, literal) :: rest, text => (Json.Span.splice? text span literal).bind (spliceAll rest)

/-- The targets with the last one of the text first, so that the places of the others stay valid. -/
def fromLast (targets : List (Json.Span × List Char)) : List (Json.Span × List Char) :=
  targets.mergeSort fun a b => b.1.start ≤ a.1.start

/-- The document with the string at each path replaced. Nothing is changed unless every path has a literal. -/
def replaceStrings (doc : Document) (edits : List Edit) : Except Fault Document :=
  if edits.isEmpty then .ok doc
  else
    match locate doc.raw with
    | .error stop => .error (.unwalkable stop)
    | .ok found =>
      match targets found edits with
      | .error fault => .error fault
      | .ok targets =>
        match spliceAll (fromLast targets) doc.raw.toList with
        | none => .error .misplacedEdit
        | some text => read doc.path (String.ofList text)

end Document

end SealedConfig
