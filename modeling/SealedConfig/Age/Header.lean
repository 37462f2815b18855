import SealedConfig.Crypto.Sha256
import SealedConfig.Encoding.Base64

/-!
# Headers of encrypted files

The head of an encrypted file: a version line, a stanza for each way to unlock the file key, and an authentication code
over all before it. A stanza has words on its first line and a bare base 64 body in lines of sixty-four symbols, the
last of them shorter.
-/

namespace SealedConfig.Age

/-- A way to unlock the file key: what kind it is and its parameters, and the wrapped key. -/
structure Stanza where
  kind : Bytes
  parameters : List Bytes
  body : Bytes
  deriving DecidableEq, Repr

/-- The stanzas, the authentication code, and the bytes that the code is over. -/
structure Header where
  stanzas : List Stanza
  code : Bytes
  authenticated : Bytes
  deriving DecidableEq, Repr

namespace Header

/-- The version line. -/
def version : Bytes := Bytes.ofText "age-encryption.org/v1\n"

/-- What opens a stanza. -/
def stanzaMark : Bytes := Bytes.ofText "-> "

/-- What opens the authentication code; all but the last byte is under the code. -/
def codeMark : Bytes := Bytes.ofText "--- "

/-- A line feed. -/
def lineFeed : UInt8 := 10

/-- A blank. -/
def blank : UInt8 := 32

/-- A line without its line feed, and what follows; there has to be a line feed. -/
def splitLine? : Bytes → Option (Bytes × Bytes)
  | [] => none
  | b :: rest => if b = lineFeed then some ([], rest) else (splitLine? rest).map fun (line, after) => (b :: line, after)

/-- The words of a line, which single blanks separate. -/
def words : Bytes → List Bytes
  | [] => [[]]
  | b :: rest =>
    if b = blank then [] :: words rest
    else
      match words rest with
      | [] => [[b]]
      | word :: more => (b :: word) :: more

/-- Whether a byte is a visible character. -/
def isVisible (b : UInt8) : Bool := 33 ≤ b && b ≤ 126

/-- The symbols of a body: whole lines and then a shorter one, and what follows. -/
def readBody? : (room : Nat) → Bytes → Option (Bytes × Bytes)
  | 0, _ => none
  | room + 1, bytes => do
    let (line, rest) ← splitLine? bytes
    if line.length < 64 then return (line, rest)
    guard (line.length = 64)
    let (symbols, after) ← readBody? room rest
    return (line ++ symbols, after)

/-- The stanza behind its mark, and what follows. -/
def readStanza? (bytes : Bytes) : Option (Stanza × Bytes) := do
  let (line, rest) ← splitLine? bytes
  let all := words line
  guard (all.all fun word => !word.isEmpty && word.all isVisible)
  let (symbols, after) ← readBody? (rest.length + 1) rest
  let body ← (Base64.standardBare.decodeBytes symbols).toOption
  match all with
  | [] => none
  | kind :: parameters => return (⟨kind, parameters, body⟩, after)

/-- The stanzas from the first one on, and what follows. -/
def readStanzas? : (room : Nat) → Bytes → Option (List Stanza × Bytes)
  | 0, _ => none
  | room + 1, bytes =>
    if stanzaMark.isPrefixOf bytes then do
      let (stanza, rest) ← readStanza? (bytes.drop stanzaMark.length)
      let (more, after) ← readStanzas? room rest
      return (stanza :: more, after)
    else some ([], bytes)

/-- The header of a file, and what follows. -/
def read? (bytes : Bytes) : Option (Header × Bytes) := do
  guard (version.isPrefixOf bytes)
  let (stanzas, rest) ← readStanzas? (bytes.length + 1) (bytes.drop version.length)
  guard (!stanzas.isEmpty && codeMark.isPrefixOf rest)
  let (line, after) ← splitLine? (rest.drop codeMark.length)
  let code ← (Base64.standardBare.decodeBytes line).toOption
  guard (code.length = 32)
  return (⟨stanzas, code, bytes.take (bytes.length - rest.length + codeMark.length - 1)⟩, after)

/-- The symbols of a body cut into lines: whole ones and then a shorter one. -/
def wrapBody : (room : Nat) → Bytes → Bytes
  | 0, _ => [lineFeed]
  | room + 1, symbols =>
    if symbols.length < 64 then symbols ++ [lineFeed]
    else symbols.take 64 ++ lineFeed :: wrapBody room (symbols.drop 64)

/-- The bytes of a stanza. -/
def writeStanza (stanza : Stanza) : Bytes :=
  let symbols := Base64.standardBare.encodeBytes stanza.body
  stanzaMark ++ List.intercalate [blank] (stanza.kind :: stanza.parameters) ++ lineFeed ::
    wrapBody (symbols.length + 1) symbols

/-- The bytes of stanzas that an authentication code is over. -/
def unsealed (stanzas : List Stanza) : Bytes :=
  version ++ stanzas.flatMap writeStanza ++ codeMark.dropLast

/-- The authentication code of bytes under a file key. -/
def codeOf (fileKey authenticated : Bytes) : Bytes :=
  Hmac.sha256 (Hkdf.derive32 [] fileKey (Bytes.ofText "header")) authenticated

/-- The bytes of a header with its authentication code. -/
def write (fileKey : Bytes) (stanzas : List Stanza) : Bytes :=
  unsealed stanzas ++ blank :: Base64.standardBare.encodeBytes (codeOf fileKey (unsealed stanzas)) ++ [lineFeed]

end Header

end SealedConfig.Age
