import SealedConfig.Age.Armor
import SealedConfig.Age.File
import SealedConfig.Age.Header
import SealedConfig.Age.Identity
import SealedConfig.Age.Payload
import SealedConfig.ApiKey
import SealedConfig.Bulk.Basic
import SealedConfig.Bulk.Update
import SealedConfig.Bytes
import SealedConfig.CommandLine.Context
import SealedConfig.CommandLine.Invocation
import SealedConfig.CommandLine.KeyMaterial
import SealedConfig.CommandLine.Overview
import SealedConfig.CommandLine.Program
import SealedConfig.CommandLine.Style
import SealedConfig.CommandLine.Syntax
import SealedConfig.CommandLine.Update
import SealedConfig.CommandLine.Value
import SealedConfig.Credential.Basic
import SealedConfig.Credential.Cache
import SealedConfig.Credential.Health
import SealedConfig.Credential.KeyFile
import SealedConfig.Credential.Lookup
import SealedConfig.Credential.Resolver
import SealedConfig.Crypto.Aes
import SealedConfig.Crypto.ChaCha20Poly1305
import SealedConfig.Crypto.Gcm
import SealedConfig.Crypto.Scrypt
import SealedConfig.Crypto.Sha256
import SealedConfig.Crypto.X25519
import SealedConfig.Decimal
import SealedConfig.Document.Basic
import SealedConfig.Document.Load
import SealedConfig.Document.Scan
import SealedConfig.Document.SecretName
import SealedConfig.Encoding.Base64
import SealedConfig.Encoding.Bech32
import SealedConfig.Encoding.Hex
import SealedConfig.Envelope
import SealedConfig.Failure
import SealedConfig.Host.Basic
import SealedConfig.Host.Fault
import SealedConfig.Host.FaultyWorld
import SealedConfig.Host.FileTree
import SealedConfig.Host.Files
import SealedConfig.Host.Moment
import SealedConfig.Host.Path
import SealedConfig.Host.World
import SealedConfig.Json.Basic
import SealedConfig.Json.Fault
import SealedConfig.Json.Number
import SealedConfig.Json.Parser
import SealedConfig.Json.Printer
import SealedConfig.Json.Record
import SealedConfig.Json.Span
import SealedConfig.KeyPath
import SealedConfig.KeyStore.Basic
import SealedConfig.KeyStore.FileCipher
import SealedConfig.KeyStore.Store
import SealedConfig.Log.Event
import SealedConfig.Log.Filter
import SealedConfig.MasterKey
import SealedConfig.Proofs.ApiKey
import SealedConfig.Proofs.Bulk.Accepting
import SealedConfig.Proofs.Bulk.Cancelling
import SealedConfig.Proofs.Bulk.Consumers
import SealedConfig.Proofs.Bulk.Credentials
import SealedConfig.Proofs.Bulk.Decrypting
import SealedConfig.Proofs.Bulk.Encrypting
import SealedConfig.Proofs.Bulk.Frame
import SealedConfig.Proofs.Bulk.History
import SealedConfig.Proofs.Bulk.Mishaps
import SealedConfig.Proofs.Bulk.Naming
import SealedConfig.Proofs.Bulk.Restoring
import SealedConfig.Proofs.Bulk.Secrets
import SealedConfig.Proofs.Bulk.SideBySide
import SealedConfig.Proofs.Bulk.Sidecars
import SealedConfig.Proofs.Bulk.Stages
import SealedConfig.Proofs.Bulk.Steps
import SealedConfig.Proofs.Bulk.Stopping
import SealedConfig.Proofs.Bulk.Success
import SealedConfig.Proofs.Cipher.Authentic
import SealedConfig.Proofs.Cipher.Base64
import SealedConfig.Proofs.Cipher.Bytes
import SealedConfig.Proofs.Cipher.Canonical
import SealedConfig.Proofs.Cipher.Envelope
import SealedConfig.Proofs.Cipher.Gcm
import SealedConfig.Proofs.CommandLine.Answering
import SealedConfig.Proofs.CommandLine.Checking
import SealedConfig.Proofs.CommandLine.Initializing
import SealedConfig.Proofs.CommandLine.Mishaps
import SealedConfig.Proofs.CommandLine.Protecting
import SealedConfig.Proofs.CommandLine.Reporting
import SealedConfig.Proofs.CommandLine.Running
import SealedConfig.Proofs.CommandLine.Session
import SealedConfig.Proofs.CommandLine.Touching
import SealedConfig.Proofs.Credential.Agreeing
import SealedConfig.Proofs.Credential.Caching
import SealedConfig.Proofs.Credential.Deciding
import SealedConfig.Proofs.Credential.Guarding
import SealedConfig.Proofs.Credential.KeyFiles
import SealedConfig.Proofs.Credential.Opening
import SealedConfig.Proofs.Credential.Presence
import SealedConfig.Proofs.Credential.Report
import SealedConfig.Proofs.Credential.Resolving
import SealedConfig.Proofs.Credential.Telling
import SealedConfig.Proofs.Credential.Timeline
import SealedConfig.Proofs.Document.Alike
import SealedConfig.Proofs.Document.AnyText
import SealedConfig.Proofs.Document.Casing
import SealedConfig.Proofs.Document.Editing
import SealedConfig.Proofs.Document.Fetching
import SealedConfig.Proofs.Document.Listing
import SealedConfig.Proofs.Document.Loading
import SealedConfig.Proofs.Document.Locating
import SealedConfig.Proofs.Document.Repeating
import SealedConfig.Proofs.Document.Scan
import SealedConfig.Proofs.Document.SecretName
import SealedConfig.Proofs.Document.Spelling
import SealedConfig.Proofs.Ending
import SealedConfig.Proofs.Following
import SealedConfig.Proofs.Host.Beside
import SealedConfig.Proofs.Host.FileTree
import SealedConfig.Proofs.Host.Files
import SealedConfig.Proofs.Host.Growing
import SealedConfig.Proofs.Host.Mishaps
import SealedConfig.Proofs.Host.Outline
import SealedConfig.Proofs.Host.Path
import SealedConfig.Proofs.Host.Writing
import SealedConfig.Proofs.Json.Advancing
import SealedConfig.Proofs.Json.Agreeing
import SealedConfig.Proofs.Json.Atom
import SealedConfig.Proofs.Json.Bytewise
import SealedConfig.Proofs.Json.Layout
import SealedConfig.Proofs.Json.Leaf
import SealedConfig.Proofs.Json.Literal
import SealedConfig.Proofs.Json.Looking
import SealedConfig.Proofs.Json.Node
import SealedConfig.Proofs.Json.Number
import SealedConfig.Proofs.Json.Offset
import SealedConfig.Proofs.Json.Reading
import SealedConfig.Proofs.Json.Recorded
import SealedConfig.Proofs.Json.Repeated
import SealedConfig.Proofs.Json.Rewritten
import SealedConfig.Proofs.Json.Source
import SealedConfig.Proofs.Json.Template
import SealedConfig.Proofs.Json.Walking
import SealedConfig.Proofs.KeyPath
import SealedConfig.Proofs.KeyStore.Content
import SealedConfig.Proofs.KeyStore.Creating
import SealedConfig.Proofs.KeyStore.Holding
import SealedConfig.Proofs.KeyStore.Keeping
import SealedConfig.Proofs.KeyStore.Mishaps
import SealedConfig.Proofs.MasterKey
import SealedConfig.Proofs.Outcome
import SealedConfig.Proofs.Run
import SealedConfig.Proofs.Section.Binding
import SealedConfig.Proofs.Section.Veiled
import SealedConfig.Proofs.Service.Refusing
import SealedConfig.Proofs.SideBySide
import SealedConfig.Proofs.Sparing
import SealedConfig.Proofs.Text.Blank
import SealedConfig.Proofs.Text.LowerCase
import SealedConfig.Protector
import SealedConfig.Run
import SealedConfig.Section.Basic
import SealedConfig.Section.Bind
import SealedConfig.Service.Basic
import SealedConfig.Service.Response
import SealedConfig.Settings.Basic
import SealedConfig.Settings.Decode
import SealedConfig.Settings.Form
import SealedConfig.Settings.Load
import SealedConfig.Text.Blank
import SealedConfig.Text.Lines
import SealedConfig.Text.LowerCase
import SealedConfig.Text.Quoted
import SealedConfig.Toml.Basic
import SealedConfig.Toml.Parser
import SealedConfig.Toml.Scalar
