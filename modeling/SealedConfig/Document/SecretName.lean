import SealedConfig.Text.LowerCase

/-!
# Names of secrets

Whether the value of a field is to be treated as a secret is decided from the field's name alone: its lower-case form
holds one of a few words and does not hold the word for a path.
-/

namespace SealedConfig.SecretName

/-- Whether a word occurs in a text. -/
def occurs (word : List Char) : List Char → Bool
  | [] => word.isEmpty
  | c :: rest => word.isPrefixOf (c :: rest) || occurs word rest

/-- Words that mark a name as that of a secret. -/
def words : List String :=
  ["password", "passphrase", "secret", "key", "token", "clientsecret", "apikey", "connectionstring", "privatekey"]

/-- The word that marks a name as that of a path, which is never a secret. -/
def pathWord : String := "path"

end SealedConfig.SecretName

namespace SealedConfig

/-- Whether a name is that of a secret. -/
def isSecretName (name : String) : Bool :=
  let lower := (lowerCase name).toList
  !SecretName.occurs SecretName.pathWord.toList lower && SecretName.words.any fun w => SecretName.occurs w.toList lower

end SealedConfig
