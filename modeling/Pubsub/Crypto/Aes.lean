import Pubsub.Text.Utf8

/-!
# AES-256

The block cipher of FIPS 197 with a key of 256 bits. A block is four columns of four bytes, so the
types leave nothing to check about sizes. Deciphering undoes the layers of a round in the opposite
order, along the same list of round keys.
-/

namespace Pubsub

namespace Aes

/-- Four bytes of a block: one column of the state, or one word of a key. -/
structure Column where
  (a b c d : UInt8)
deriving DecidableEq, Repr

/-- Sixteen bytes, column by column. -/
structure Block where
  (w x y z : Column)
deriving DecidableEq, Repr

/-- The sum of two columns, bit by bit. -/
def Column.xor (p q : Column) : Column := ⟨p.a ^^^ q.a, p.b ^^^ q.b, p.c ^^^ q.c, p.d ^^^ q.d⟩

/-- The sum of two blocks, bit by bit. -/
def Block.xor (p q : Block) : Block := ⟨p.w.xor q.w, p.x.xor q.x, p.y.xor q.y, p.z.xor q.z⟩

/-- The column with a function applied to its bytes. -/
def Column.map (f : UInt8 → UInt8) (p : Column) : Column := ⟨f p.a, f p.b, f p.c, f p.d⟩

/-- The block with a function applied to its columns. -/
def Block.map (f : Column → Column) (p : Block) : Block := ⟨f p.w, f p.x, f p.y, f p.z⟩

/-! ## Substitution -/

/-- The substitution box: inversion in the field of 256 elements and an affine map. -/
def box : Array UInt8 :=
  #[0x63, 0x7c, 0x77, 0x7b, 0xf2, 0x6b, 0x6f, 0xc5, 0x30, 0x01, 0x67, 0x2b, 0xfe, 0xd7, 0xab, 0x76,
    0xca, 0x82, 0xc9, 0x7d, 0xfa, 0x59, 0x47, 0xf0, 0xad, 0xd4, 0xa2, 0xaf, 0x9c, 0xa4, 0x72, 0xc0,
    0xb7, 0xfd, 0x93, 0x26, 0x36, 0x3f, 0xf7, 0xcc, 0x34, 0xa5, 0xe5, 0xf1, 0x71, 0xd8, 0x31, 0x15,
    0x04, 0xc7, 0x23, 0xc3, 0x18, 0x96, 0x05, 0x9a, 0x07, 0x12, 0x80, 0xe2, 0xeb, 0x27, 0xb2, 0x75,
    0x09, 0x83, 0x2c, 0x1a, 0x1b, 0x6e, 0x5a, 0xa0, 0x52, 0x3b, 0xd6, 0xb3, 0x29, 0xe3, 0x2f, 0x84,
    0x53, 0xd1, 0x00, 0xed, 0x20, 0xfc, 0xb1, 0x5b, 0x6a, 0xcb, 0xbe, 0x39, 0x4a, 0x4c, 0x58, 0xcf,
    0xd0, 0xef, 0xaa, 0xfb, 0x43, 0x4d, 0x33, 0x85, 0x45, 0xf9, 0x02, 0x7f, 0x50, 0x3c, 0x9f, 0xa8,
    0x51, 0xa3, 0x40, 0x8f, 0x92, 0x9d, 0x38, 0xf5, 0xbc, 0xb6, 0xda, 0x21, 0x10, 0xff, 0xf3, 0xd2,
    0xcd, 0x0c, 0x13, 0xec, 0x5f, 0x97, 0x44, 0x17, 0xc4, 0xa7, 0x7e, 0x3d, 0x64, 0x5d, 0x19, 0x73,
    0x60, 0x81, 0x4f, 0xdc, 0x22, 0x2a, 0x90, 0x88, 0x46, 0xee, 0xb8, 0x14, 0xde, 0x5e, 0x0b, 0xdb,
    0xe0, 0x32, 0x3a, 0x0a, 0x49, 0x06, 0x24, 0x5c, 0xc2, 0xd3, 0xac, 0x62, 0x91, 0x95, 0xe4, 0x79,
    0xe7, 0xc8, 0x37, 0x6d, 0x8d, 0xd5, 0x4e, 0xa9, 0x6c, 0x56, 0xf4, 0xea, 0x65, 0x7a, 0xae, 0x08,
    0xba, 0x78, 0x25, 0x2e, 0x1c, 0xa6, 0xb4, 0xc6, 0xe8, 0xdd, 0x74, 0x1f, 0x4b, 0xbd, 0x8b, 0x8a,
    0x70, 0x3e, 0xb5, 0x66, 0x48, 0x03, 0xf6, 0x0e, 0x61, 0x35, 0x57, 0xb9, 0x86, 0xc1, 0x1d, 0x9e,
    0xe1, 0xf8, 0x98, 0x11, 0x69, 0xd9, 0x8e, 0x94, 0x9b, 0x1e, 0x87, 0xe9, 0xce, 0x55, 0x28, 0xdf,
    0x8c, 0xa1, 0x89, 0x0d, 0xbf, 0xe6, 0x42, 0x68, 0x41, 0x99, 0x2d, 0x0f, 0xb0, 0x54, 0xbb, 0x16]

/-- The inverse of the substitution box. -/
def inverseBox : Array UInt8 :=
  #[0x52, 0x09, 0x6a, 0xd5, 0x30, 0x36, 0xa5, 0x38, 0xbf, 0x40, 0xa3, 0x9e, 0x81, 0xf3, 0xd7, 0xfb,
    0x7c, 0xe3, 0x39, 0x82, 0x9b, 0x2f, 0xff, 0x87, 0x34, 0x8e, 0x43, 0x44, 0xc4, 0xde, 0xe9, 0xcb,
    0x54, 0x7b, 0x94, 0x32, 0xa6, 0xc2, 0x23, 0x3d, 0xee, 0x4c, 0x95, 0x0b, 0x42, 0xfa, 0xc3, 0x4e,
    0x08, 0x2e, 0xa1, 0x66, 0x28, 0xd9, 0x24, 0xb2, 0x76, 0x5b, 0xa2, 0x49, 0x6d, 0x8b, 0xd1, 0x25,
    0x72, 0xf8, 0xf6, 0x64, 0x86, 0x68, 0x98, 0x16, 0xd4, 0xa4, 0x5c, 0xcc, 0x5d, 0x65, 0xb6, 0x92,
    0x6c, 0x70, 0x48, 0x50, 0xfd, 0xed, 0xb9, 0xda, 0x5e, 0x15, 0x46, 0x57, 0xa7, 0x8d, 0x9d, 0x84,
    0x90, 0xd8, 0xab, 0x00, 0x8c, 0xbc, 0xd3, 0x0a, 0xf7, 0xe4, 0x58, 0x05, 0xb8, 0xb3, 0x45, 0x06,
    0xd0, 0x2c, 0x1e, 0x8f, 0xca, 0x3f, 0x0f, 0x02, 0xc1, 0xaf, 0xbd, 0x03, 0x01, 0x13, 0x8a, 0x6b,
    0x3a, 0x91, 0x11, 0x41, 0x4f, 0x67, 0xdc, 0xea, 0x97, 0xf2, 0xcf, 0xce, 0xf0, 0xb4, 0xe6, 0x73,
    0x96, 0xac, 0x74, 0x22, 0xe7, 0xad, 0x35, 0x85, 0xe2, 0xf9, 0x37, 0xe8, 0x1c, 0x75, 0xdf, 0x6e,
    0x47, 0xf1, 0x1a, 0x71, 0x1d, 0x29, 0xc5, 0x89, 0x6f, 0xb7, 0x62, 0x0e, 0xaa, 0x18, 0xbe, 0x1b,
    0xfc, 0x56, 0x3e, 0x4b, 0xc6, 0xd2, 0x79, 0x20, 0x9a, 0xdb, 0xc0, 0xfe, 0x78, 0xcd, 0x5a, 0xf4,
    0x1f, 0xdd, 0xa8, 0x33, 0x88, 0x07, 0xc7, 0x31, 0xb1, 0x12, 0x10, 0x59, 0x27, 0x80, 0xec, 0x5f,
    0x60, 0x51, 0x7f, 0xa9, 0x19, 0xb5, 0x4a, 0x0d, 0x2d, 0xe5, 0x7a, 0x9f, 0x93, 0xc9, 0x9c, 0xef,
    0xa0, 0xe0, 0x3b, 0x4d, 0xae, 0x2a, 0xf5, 0xb0, 0xc8, 0xeb, 0xbb, 0x3c, 0x83, 0x53, 0x99, 0x61,
    0x17, 0x2b, 0x04, 0x7e, 0xba, 0x77, 0xd6, 0x26, 0xe1, 0x69, 0x14, 0x63, 0x55, 0x21, 0x0c, 0x7d]

/-- The byte that takes the place of `x`. -/
def substitute (x : UInt8) : UInt8 := box.getD x.toNat 0

/-- The byte whose place `x` has taken. -/
def restore (x : UInt8) : UInt8 := inverseBox.getD x.toNat 0

/-! ## Rows and columns -/

/-- Row `i` moved left by `i` places. -/
def shiftRows (p : Block) : Block :=
  ⟨⟨p.w.a, p.x.b, p.y.c, p.z.d⟩, ⟨p.x.a, p.y.b, p.z.c, p.w.d⟩,
   ⟨p.y.a, p.z.b, p.w.c, p.x.d⟩, ⟨p.z.a, p.w.b, p.x.c, p.y.d⟩⟩

/-- Row `i` moved right by `i` places. -/
def unshiftRows (p : Block) : Block :=
  ⟨⟨p.w.a, p.z.b, p.y.c, p.x.d⟩, ⟨p.x.a, p.w.b, p.z.c, p.y.d⟩,
   ⟨p.y.a, p.x.b, p.w.c, p.z.d⟩, ⟨p.z.a, p.y.b, p.x.c, p.w.d⟩⟩

/-- Twice `x` in the field of 256 elements. -/
def double (x : UInt8) : UInt8 := (x <<< 1) ^^^ (if x < 0x80 then 0 else 0x1b)

/-- Three times `x`. -/
def times3 (x : UInt8) : UInt8 := double x ^^^ x

/-- Nine times `x`. -/
def times9 (x : UInt8) : UInt8 := double (double (double x)) ^^^ x

/-- Eleven times `x`. -/
def times11 (x : UInt8) : UInt8 := double (double (double x)) ^^^ double x ^^^ x

/-- Thirteen times `x`. -/
def times13 (x : UInt8) : UInt8 := double (double (double x)) ^^^ double (double x) ^^^ x

/-- Fourteen times `x`. -/
def times14 (x : UInt8) : UInt8 :=
  double (double (double x)) ^^^ double (double x) ^^^ double x

/-- The column multiplied by the matrix of the cipher. -/
def mixColumn (p : Column) : Column :=
  ⟨double p.a ^^^ times3 p.b ^^^ p.c ^^^ p.d, p.a ^^^ double p.b ^^^ times3 p.c ^^^ p.d,
   p.a ^^^ p.b ^^^ double p.c ^^^ times3 p.d, times3 p.a ^^^ p.b ^^^ p.c ^^^ double p.d⟩

/-- The column multiplied by the inverse matrix. -/
def unmixColumn (p : Column) : Column :=
  ⟨times14 p.a ^^^ times11 p.b ^^^ times13 p.c ^^^ times9 p.d,
   times9 p.a ^^^ times14 p.b ^^^ times11 p.c ^^^ times13 p.d,
   times13 p.a ^^^ times9 p.b ^^^ times14 p.c ^^^ times11 p.d,
   times11 p.a ^^^ times13 p.b ^^^ times9 p.c ^^^ times14 p.d⟩

/-! ## Keys -/

/-- A key of 256 bits, as two blocks. -/
structure Key where
  (low high : Block)
deriving DecidableEq, Repr

/-- The next eight words of the key schedule after the eight of `k`. -/
def Key.next (constant : UInt8) (k : Key) : Key :=
  let turned : Column := ⟨k.high.z.b, k.high.z.c, k.high.z.d, k.high.z.a⟩
  let w := k.low.w.xor ((turned.map substitute).xor ⟨constant, 0, 0, 0⟩)
  let x := k.low.x.xor w
  let y := k.low.y.xor x
  let z := k.low.z.xor y
  let w' := k.high.w.xor (z.map substitute)
  let x' := k.high.x.xor w'
  let y' := k.high.y.xor x'
  let z' := k.high.z.xor y'
  ⟨⟨w, x, y, z⟩, ⟨w', x', y', z'⟩⟩

/-- The round keys that follow `k`, given the constants that are still to be used. -/
def Key.schedule (k : Key) : List UInt8 → List Block
  | [] => [k.low]
  | constant :: rest => k.low :: k.high :: (k.next constant).schedule rest

/-- The fifteen round keys of a key. -/
def Key.rounds (k : Key) : List Block :=
  k.schedule [0x01, 0x02, 0x04, 0x08, 0x10, 0x20, 0x40]

/-! ## The cipher -/

/-- The rounds after the first addition of a key; the last one does not mix columns. -/
def encipherRounds : List Block → Block → Block
  | [], p => p
  | [key], p => (shiftRows (p.map (·.map substitute))).xor key
  | key :: keys, p =>
    encipherRounds keys (((shiftRows (p.map (·.map substitute))).map mixColumn).xor key)

/-- The rounds undone, the last one first. -/
def decipherRounds : List Block → Block → Block
  | [], p => p
  | [key], p => (unshiftRows (p.xor key)).map (·.map restore)
  | key :: keys, p =>
    (unshiftRows (((decipherRounds keys p).xor key).map unmixColumn)).map (·.map restore)

/-- The block enciphered with the round keys. -/
def encipher : List Block → Block → Block
  | [], p => p
  | key :: keys, p => encipherRounds keys (p.xor key)

/-- The block deciphered with the round keys. -/
def decipher : List Block → Block → Block
  | [], p => p
  | key :: keys, p => (decipherRounds keys p).xor key

/-! ## Bytes -/

/-- The bytes of a column. -/
def Column.bytes (p : Column) : Bytes := [p.a, p.b, p.c, p.d]

/-- The sixteen bytes of a block. -/
def Block.bytes (p : Block) : Bytes := p.w.bytes ++ p.x.bytes ++ p.y.bytes ++ p.z.bytes

/-- The blocks that the bytes fill exactly. -/
def blocks? : Bytes → Option (List Block)
  | [] => some []
  | a :: b :: c :: d :: e :: f :: g :: h :: i :: j :: k :: l :: m :: n :: o :: p :: rest =>
    (blocks? rest).map (⟨⟨a, b, c, d⟩, ⟨e, f, g, h⟩, ⟨i, j, k, l⟩, ⟨m, n, o, p⟩⟩ :: ·)
  | _ => none

/-- The bytes of blocks. -/
def bytesOf (blocks : List Block) : Bytes := blocks.flatMap Block.bytes

end Aes

end Pubsub
