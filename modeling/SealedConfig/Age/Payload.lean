import SealedConfig.Crypto.ChaCha20Poly1305
import SealedConfig.Crypto.Sha256

/-!
# Payloads of encrypted files

The content of a file in chunks of 64 KiB, each sealed under a counter and a flag for the last one, so that chunks can
neither be moved nor left out.
-/

namespace SealedConfig.Age.Payload

/-- How many bytes of content a whole chunk has. -/
def chunkSize : Nat := 65536

/-- How many bytes a whole sealed chunk has. -/
def sealedSize : Nat := chunkSize + ChaCha20Poly1305.tagSize

/-- The nonce of a chunk. -/
def nonce (counter : Nat) (isLast : Bool) : Bytes := Bytes.ofNatBE 11 counter ++ [if isLast then 1 else 0]

/-- The key of a payload, derived from the file key under the payload's own sixteen bytes. -/
def keyOf (fileKey salt : Bytes) : Bytes := Hkdf.derive32 salt fileKey (Bytes.ofText "payload")

/-- The chunks sealed one by one, the last of them flagged. -/
def sealChunks (key : Bytes) : (counter : Nat) → List Bytes → Bytes
  | _, [] => []
  | counter, [chunk] => ChaCha20Poly1305.encrypt key (nonce counter true) chunk
  | counter, chunk :: rest =>
    ChaCha20Poly1305.encrypt key (nonce counter false) chunk ++ sealChunks key (counter + 1) rest

/-- The sealed content; empty content is one empty chunk. -/
def write (key content : Bytes) : Bytes :=
  match Bytes.pieces chunkSize content with
  | [] => sealChunks key 0 [[]]
  | chunks => sealChunks key 0 chunks

/-- The content of sealed chunks. A chunk that is not whole is the last one, and a whole one may be; nothing follows the
last one, which is empty only if it is the first. -/
def openChunks? (key : Bytes) : (counter : Nat) → List Bytes → Option Bytes
  | _, [] => none
  | counter, chunk :: rest =>
    let last := (ChaCha20Poly1305.decrypt? key (nonce counter true) chunk).bind fun content =>
      if rest.isEmpty ∧ (content ≠ [] ∨ counter = 0) then some content else none
    if chunk.length < sealedSize then last
    else
      match ChaCha20Poly1305.decrypt? key (nonce counter false) chunk with
      | some content => (openChunks? key (counter + 1) rest).map (content ++ ·)
      | none => last

/-- The content of a payload. -/
def read? (key payload : Bytes) : Option Bytes := openChunks? key 0 (Bytes.pieces sealedSize payload)

end SealedConfig.Age.Payload
