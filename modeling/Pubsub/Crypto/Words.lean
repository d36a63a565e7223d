import Pubsub.Text.Utf8

/-!
# Words and blocks of bytes

The digests below read their input in blocks, and the blocks in words of 32 bits; SHA-256 takes the
bytes of a word most significant first and MD5 least significant first. Both end their input in the
same way, with one set bit, zeros, and the length in bits, so that it fills its last block.
-/

namespace Pubsub

/-- The list cut into pieces of `n`, the last one shorter if need be; the fuel bounds the number of
pieces. -/
def piecesOf {α : Type} (n : Nat) : Nat → List α → List (List α)
  | 0, _ => []
  | _ + 1, [] => []
  | fuel + 1, s => s.take n :: piecesOf n fuel (s.drop n)

/-- The list cut into pieces of `n > 0`, the last one shorter if need be. -/
def pieces {α : Type} (n : Nat) (s : List α) : List (List α) := piecesOf n s.length s

/-- The word that bytes denote, most significant first. -/
def wordOfBigEndian (bytes : Bytes) : UInt32 :=
  bytes.foldl (fun word byte => (word <<< 8) ||| byte.toUInt32) 0

/-- The word that bytes denote, least significant first. -/
def wordOfLittleEndian (bytes : Bytes) : UInt32 :=
  wordOfBigEndian bytes.reverse

/-- The lowest `n` bytes of a number, least significant first. -/
def littleEndian : Nat → Nat → Bytes
  | 0, _ => []
  | n + 1, value => UInt8.ofNat (value % 256) :: littleEndian n (value / 256)

/-- The lowest `n` bytes of a number, most significant first. -/
def bigEndian (n value : Nat) : Bytes := (littleEndian n value).reverse

/-- The input of a digest up to its length field: one set bit, and zeros until the 8 bytes of the
length end a block of 64. -/
def padToBlock (bytes : Bytes) : Bytes :=
  bytes ++ 0x80 :: List.replicate ((119 - bytes.length % 64) % 64) 0

/-- The word rotated to the left. -/
def rotateLeft (x : UInt32) (n : UInt32) : UInt32 := (x <<< n) ||| (x >>> (32 - n))

/-- The word rotated to the right. -/
def rotateRight (x : UInt32) (n : UInt32) : UInt32 := (x >>> n) ||| (x <<< (32 - n))

/-- The two lower-case hexadecimal digits of each byte. -/
def hexText (bytes : Bytes) : String :=
  String.ofList (bytes.flatMap fun byte =>
    [Nat.digitChar (byte.toNat / 16), Nat.digitChar (byte.toNat % 16)])

end Pubsub
