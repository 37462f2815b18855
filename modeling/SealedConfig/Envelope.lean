import SealedConfig.Protector

/-!
# Envelopes

How a document tells a protected value from a plain one: a protected value carries the marker in front of its protected
text. A value is marked exactly when it begins with the marker, letter for letter.
-/

namespace SealedConfig.Envelope

/-- What stands in front of a protected text. -/
def marker : String := "ENCRYPTED:"

/-- Whether a value carries the marker. -/
def isMarked (value : String) : Bool := marker.toList.isPrefixOf value.toList

/-- A protected text with the marker in front. -/
def mark (ciphertext : String) : String := marker ++ ciphertext

/-- What stands behind the marker of a marked value. -/
def unmark? (value : String) : Option String :=
  if isMarked value then some (String.ofList (value.toList.drop marker.length)) else none

/-- Why an envelope does not open. -/
inductive Fault where
  | notMarked
  | undecipherable (fault : Protector.Fault)
  deriving DecidableEq, Repr

/-- The wording of a fault. -/
def Fault.message : Fault → String
  | .notMarked => "value is not encrypted (missing ENCRYPTED: prefix)"
  | .undecipherable fault => fault.message

/-- The envelope of a text; the empty text stays empty and unmarked. -/
def enclose (p : Protector) (nonce : Nonce) (plain : String) : String :=
  if plain = "" then "" else mark (p.protect nonce plain)

/-- The text in an envelope; the empty value stays empty. -/
def disclose (p : Protector) (value : String) : Except Fault String :=
  if value = "" then .ok ""
  else
    match unmark? value with
    | none => .error .notMarked
    | some ciphertext =>
      match p.unprotect ciphertext with
      | .error fault => .error (.undecipherable fault)
      | .ok plain => .ok plain

end SealedConfig.Envelope
