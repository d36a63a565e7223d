import Pubsub.Crypto.Aes

/-!
# Cipher block chaining

AES-256 over whole blocks, each block being combined with the ciphertext of the one before it and
the first with an initialisation vector. `encrypt` and `decrypt` take bytes and refuse sizes that
the mode has no meaning for, a key that is not 32 bytes long, a vector that is not one block, and
data that are not whole blocks. `pad` and `unpad` are the filling of PKCS #7 that makes data whole
blocks.
-/

namespace Pubsub

namespace Cbc

/-- Why the mode refuses its input. -/
inductive SizeError where
  /-- The key has not 32 bytes. -/
  | key (length : Nat)
  /-- The vector has not 16 bytes. -/
  | vector (length : Nat)
  /-- The data are not whole blocks. -/
  | data (length : Nat)
deriving DecidableEq, Repr

/-- The wording of a refusal. -/
def SizeError.message : SizeError → String
  | key length => "Invalid key size (" ++ toString (8 * length) ++ ") for AES."
  | vector length => "Invalid IV size (" ++ toString length ++ ") for CBC."
  | data _ => "The length of the provided data is not a multiple of the block length."

/-- The blocks enciphered in a chain that starts from `vector`. -/
def encipherChain (keys : List Aes.Block) : Aes.Block → List Aes.Block → List Aes.Block
  | _, [] => []
  | vector, block :: rest =>
    let out := Aes.encipher keys (block.xor vector)
    out :: encipherChain keys out rest

/-- The blocks deciphered along a chain that starts from `vector`. -/
def decipherChain (keys : List Aes.Block) : Aes.Block → List Aes.Block → List Aes.Block
  | _, [] => []
  | vector, block :: rest =>
    (Aes.decipher keys block).xor vector :: decipherChain keys block rest

/-- The round keys of a key given as bytes. -/
def keys? (key : Bytes) : Except SizeError (List Aes.Block) :=
  match Aes.blocks? key with
  | some [low, high] => .ok (Aes.Key.rounds ⟨low, high⟩)
  | _ => .error (.key key.length)

/-- The vector given as bytes. -/
def vector? (vector : Bytes) : Except SizeError Aes.Block :=
  match Aes.blocks? vector with
  | some [block] => .ok block
  | _ => .error (.vector vector.length)

/-- The blocks of the data. -/
def data? (data : Bytes) : Except SizeError (List Aes.Block) :=
  match Aes.blocks? data with
  | some blocks => .ok blocks
  | none => .error (.data data.length)

/-- The data enciphered. -/
def encrypt (key vector data : Bytes) : Except SizeError Bytes := do
  let keys ← keys? key
  let start ← vector? vector
  let blocks ← data? data
  return Aes.bytesOf (encipherChain keys start blocks)

/-- The data deciphered. -/
def decrypt (key vector data : Bytes) : Except SizeError Bytes := do
  let keys ← keys? key
  let start ← vector? vector
  let blocks ← data? data
  return Aes.bytesOf (decipherChain keys start blocks)

/-- The bytes in a block. -/
def blockSize : Nat := 16

/-- The data filled up to whole blocks, with at least one byte; each byte of the filling is its
length. -/
def pad (data : Bytes) : Bytes :=
  let n := blockSize - data.length % blockSize
  data ++ List.replicate n (UInt8.ofNat n)

/-- The data without their filling, if it is one. -/
def unpad? (data : Bytes) : Option Bytes :=
  match data.getLast? with
  | none => none
  | some last =>
    let n := last.toNat
    let body := data.take (data.length - n)
    if 0 < n && n ≤ blockSize && n ≤ data.length
        && data.drop (data.length - n) == List.replicate n last
    then some body else none

end Cbc

end Pubsub
