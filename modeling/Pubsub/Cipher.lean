import Pubsub.Crypto.Base64
import Pubsub.Crypto.Cbc
import Pubsub.Crypto.Sha256
import Pubsub.Json.Convert
import Pubsub.Json.Parser

/-!
# Encrypted messages

A message value is encrypted as its compact JSON text, filled up to whole blocks, enciphered with
AES-256 in a chain, and written in Base64, so that what travels is again a JSON string. The key is
derived from a passphrase: the first 32 hexadecimal digits of its SHA-256 digest, taken as bytes.
The chain starts from a fixed vector, or from a fresh one that is sent in front of the ciphertext;
both ends have to agree which.

Decryption never fails as a whole. What cannot be decrypted is delivered as it arrived, together
with the reason, in the place of the value, so one bad message does not disturb its neighbours.
-/

namespace Pubsub

/-- How messages are encrypted. -/
structure Cipher where
  /-- The key of the block cipher. -/
  key : Bytes
  /-- Whether a fresh vector is sent with every message. -/
  freshVector : Bool
deriving DecidableEq, Repr

/-- Why a delivered value could not be decrypted. -/
inductive DecryptionFault where
  /-- It is not a text. -/
  | notText (kind : String)
  /-- It has characters beyond ASCII. -/
  | notAscii
  /-- It is not Base64. -/
  | notBase64
  /-- The ciphertext is empty or not whole blocks. -/
  | notWholeBlocks
  /-- The block cipher refused its input. -/
  | refused (cause : Cbc.SizeError)
  /-- What was deciphered is not filled up as it should be. -/
  | badPadding
  /-- What was deciphered is not JSON. -/
  | notJson
deriving DecidableEq, Repr

/-- The wording of a fault. -/
def DecryptionFault.message : DecryptionFault → String
  | notText kind => "expected ciphertext as a string, got " ++ kind
  | notAscii => "string argument should contain only ASCII characters"
  | notBase64 => "ciphertext is not base64"
  | notWholeBlocks => "ciphertext length is not a multiple of the block size"
  | refused cause => cause.message
  | badPadding => "Invalid padding bytes."
  | notJson => "decrypted message is not JSON"

/-- What stands in the place of a delivered value after decryption. -/
inductive Delivered where
  /-- The value. -/
  | value (v : Json)
  /-- The value as it arrived, which could not be decrypted. -/
  | failure (raw : Json) (fault : DecryptionFault)
deriving Inhabited

namespace Cipher

/-- The fixed vector. -/
def fixedVector : Bytes := utf8Bytes "0123456789012345"

/-- The key derived from a passphrase. -/
def deriveKey (passphrase : String) : Bytes :=
  (utf8Bytes (hexText (Sha256.digest (utf8Bytes passphrase)))).take 32

/-- The cipher of a passphrase, which must not be empty. -/
def ofPassphrase (passphrase : String) (freshVector : Bool) : Except Error Cipher :=
  if passphrase = "" then .error .emptyCipherKey else .ok ⟨deriveKey passphrase, freshVector⟩

/-- The text that a value is sent as; `fresh` is the vector that a fresh one would be. -/
def encrypt (cipher : Cipher) (fresh : Bytes) (value : Json) : Except Error String := do
  let plain ← (value.encode).mapError Error.unwritable
  let vector := if cipher.freshVector then fresh else fixedVector
  match Cbc.encrypt cipher.key vector (Cbc.pad (utf8Bytes plain)) with
  | .ok ciphertext =>
    let sent := if cipher.freshVector then vector ++ ciphertext else ciphertext
    return String.ofList (Base64.encode Base64.standard sent)
  | .error cause => throw (.refusedByCipher cause)

/-- The bytes of a delivered text: the vector of the chain and the ciphertext. -/
def openText (cipher : Cipher) (s : String) : Except DecryptionFault (Bytes × Bytes) :=
  if !s.toList.all (·.toNat < 128) then .error .notAscii
  else match Base64.decode? Base64.standard s.toList with
    | none => .error .notBase64
    | some bytes =>
      let (vector, data) :=
        if cipher.freshVector then (bytes.take Cbc.blockSize, bytes.drop Cbc.blockSize)
        else (fixedVector, bytes)
      if data.isEmpty || data.length % Cbc.blockSize != 0 then .error .notWholeBlocks
      else .ok (vector, data)

/-- The value that a delivered one was before it was encrypted. -/
def decrypt (cipher : Cipher) : Json → Except DecryptionFault Json
  | .str s => do
    let (vector, data) ← cipher.openText s
    let padded ← (Cbc.decrypt cipher.key vector data).mapError DecryptionFault.refused
    match Cbc.unpad? padded with
    | none => throw .badPadding
    | some plain =>
      match Json.decode? plain with
      | none => throw .notJson
      | some value => return value
  | value => .error (.notText value.kindName)

/-- What a delivered value is handed on as. -/
def decryptMessage (cipher : Cipher) (value : Json) : Delivered :=
  match cipher.decrypt value with
  | .ok plain => .value plain
  | .error fault => .failure value fault

end Cipher

namespace Delivered

/-- What a delivered value is handed on as, with a cipher or without one. -/
def of (cipher : Option Cipher) (value : Json) : Delivered :=
  match cipher with
  | some cipher => cipher.decryptMessage value
  | none => .value value

/-- How messages show what stands in the place of a value that could not be decrypted. -/
def failureText (fault : DecryptionFault) : String :=
  "<DecryptionFailure: " ++ fault.message ++ ">"

end Delivered

end Pubsub
