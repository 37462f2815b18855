import SealedConfig.Json.Record

/-!
# Typed sections

The sections of a document that have a type of their own. A type lists its text fields, so that reading and opening
them is written once for all types.
-/

namespace SealedConfig

open Json (RecordField)

/-- A type whose values are records of text fields. -/
class Options (α : Type) where
  typeName : String
  sectionName : String
  fields : List RecordField
  ofValues : List (Option String) → α
  toValues : α → List (Option String)

/-- Settings of the core service. -/
structure CoreOptions where
  baseUrl : String
  loginEndpoint : String
  username : String
  password : String
  deriving DecidableEq, Repr

/-- Where signing material is kept. -/
structure SigningOptions where
  privateKeyPath : String
  certificatePath : String
  privateKeyPassphrase : Option String
  deriving DecidableEq, Repr

/-- A database connection. -/
structure DatabaseOptions where
  connectionString : String
  deriving DecidableEq, Repr

/-- The text held at a place. -/
def Options.textAt (values : List (Option String)) (place : Nat) : String := (values.getD place none).getD ""

open Options (textAt)

instance : Options CoreOptions where
  typeName := "CoreOptions"
  sectionName := "Core"
  fields := [⟨"base_url", "BaseUrl", false, true⟩, ⟨"login_endpoint", "LoginEndpoint", false, true⟩,
    ⟨"username", "Username", false, true⟩, ⟨"password", "Password", false, false⟩]
  ofValues values := ⟨textAt values 0, textAt values 1, textAt values 2, textAt values 3⟩
  toValues options := [some options.baseUrl, some options.loginEndpoint, some options.username, some options.password]

instance : Options SigningOptions where
  typeName := "SigningOptions"
  sectionName := "Signing"
  fields := [⟨"private_key_path", "PrivateKeyPath", false, true⟩, ⟨"certificate_path", "CertificatePath", false, true⟩,
    ⟨"private_key_passphrase", "PrivateKeyPassphrase", true, false⟩]
  ofValues values := ⟨textAt values 0, textAt values 1, values.getD 2 none⟩
  toValues options := [some options.privateKeyPath, some options.certificatePath, options.privateKeyPassphrase]

instance : Options DatabaseOptions where
  typeName := "DatabaseOptions"
  sectionName := "Database"
  fields := [⟨"connection_string", "ConnectionString", false, false⟩]
  ofValues values := ⟨textAt values 0⟩
  toValues options := [some options.connectionString]

end SealedConfig
