import SealedConfig.Age.Identity

/-!
# Encrypting whole files

What a key store asks of the format that its key file is wrapped in: a text that is told from a plain one, that says
whether a passphrase or a key pair opens it, and that opens with what it was made for.
-/

namespace SealedConfig

/-- What a file is encrypted for. -/
inductive FileKey where
  | passphrase (text : String)
  | identity (identity : Age.Identity)
  deriving DecidableEq

/-- Where reading an encrypted file failed: at its head, or at its content. -/
inductive FileCipherFault where
  | head
  | content
  deriving DecidableEq, Repr

/-- A format of encrypted files. -/
structure FileCipher where
  /-- Whether a text looks like an encrypted file. -/
  isEncrypted : String → Bool
  /-- Whether a passphrase opens the file. -/
  needsPassphrase : String → Except FileCipherFault Bool
  /-- How many random bytes encrypting takes. -/
  randomSize : FileKey → Nat
  /-- The encrypted file of a content, made with random bytes. -/
  encrypt : FileKey → Bytes → Bytes → String
  /-- The content of an encrypted file. -/
  decrypt : FileKey → String → Except FileCipherFault Bytes

namespace FileCipher

/-- That a format keeps what is encrypted in it, and tells for what it was. -/
structure Lawful (cipher : FileCipher) : Prop where
  decrypt_encrypt : ∀ key random content, random.length = cipher.randomSize key →
    cipher.decrypt key (cipher.encrypt key random content) = .ok content
  isEncrypted_encrypt : ∀ key random content, cipher.isEncrypted (cipher.encrypt key random content) = true
  needsPassphrase_passphrase : ∀ text random content, random.length = cipher.randomSize (.passphrase text) →
    cipher.needsPassphrase (cipher.encrypt (.passphrase text) random content) = .ok true
  needsPassphrase_identity : ∀ identity random content, random.length = cipher.randomSize (.identity identity) →
    cipher.needsPassphrase (cipher.encrypt (.identity identity) random content) = .ok false

end FileCipher

end SealedConfig
