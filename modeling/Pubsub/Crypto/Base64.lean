import Pubsub.Text.Utf8

/-!
# Base64

The encoding of RFC 4648: each three bytes become four signs, and a shorter last group is filled up
with `=`. Reading is strict about the alphabet and the order, and about the filling of a last group
of two or three signs; a text whose groups are all complete may be followed by any number of `=`.
The bits of the last sign that carry no data are not looked at.
-/

namespace Pubsub

namespace Base64

/-- The two signs after letters and digits: the standard ones, or those that stand in a path. -/
structure Alphabet where
  sign62 : Char
  sign63 : Char

/-- The standard alphabet. -/
def standard : Alphabet := ⟨'+', '/'⟩

/-- The alphabet whose signs need no escape in a path. -/
def urlSafe : Alphabet := ⟨'-', '_'⟩

/-- The sign of a number below 64. -/
def Alphabet.sign (alphabet : Alphabet) (n : Nat) : Char :=
  if n < 26 then Char.ofNat (65 + n)
  else if n < 52 then Char.ofNat (71 + n)
  else if n < 62 then Char.ofNat (n - 4)
  else if n = 62 then alphabet.sign62
  else alphabet.sign63

/-- The number that a sign stands for. -/
def Alphabet.value? (alphabet : Alphabet) (c : Char) : Option Nat :=
  if 'A' ≤ c && c ≤ 'Z' then some (c.toNat - 65)
  else if 'a' ≤ c && c ≤ 'z' then some (c.toNat - 71)
  else if '0' ≤ c && c ≤ '9' then some (c.toNat + 4)
  else if c = alphabet.sign62 then some 62
  else if c = alphabet.sign63 then some 63
  else none

/-- The signs of bytes. -/
def encode (alphabet : Alphabet) : Bytes → List Char
  | [] => []
  | [a] =>
    [alphabet.sign (a.toNat / 4), alphabet.sign (a.toNat % 4 * 16), '=', '=']
  | [a, b] =>
    [alphabet.sign (a.toNat / 4), alphabet.sign (a.toNat % 4 * 16 + b.toNat / 16),
      alphabet.sign (b.toNat % 16 * 4), '=']
  | a :: b :: c :: rest =>
    alphabet.sign (a.toNat / 4) :: alphabet.sign (a.toNat % 4 * 16 + b.toNat / 16)
      :: alphabet.sign (b.toNat % 16 * 4 + c.toNat / 64) :: alphabet.sign (c.toNat % 64)
      :: encode alphabet rest

/-- The bytes that numbers below 64 carry; what is left of an incomplete byte is dropped. -/
def join : List Nat → Bytes
  | a :: b :: c :: d :: rest =>
    UInt8.ofNat (a * 4 + b / 16) :: UInt8.ofNat (b % 16 * 16 + c / 4)
      :: UInt8.ofNat (c % 4 * 64 + d) :: join rest
  | [a, b, c] => [UInt8.ofNat (a * 4 + b / 16), UInt8.ofNat (b % 16 * 16 + c / 4)]
  | [a, b] => [UInt8.ofNat (a * 4 + b / 16)]
  | _ => []

/-- Is the number of `=` right after so many signs? -/
def isFilled (signs fill : Nat) : Bool :=
  match signs % 4 with
  | 0 => fill = 0 || signs != 0
  | 1 => false
  | 2 => fill = 2
  | _ => fill = 1

/-- The numbers that signs stand for, up to the first character that is none. -/
def takeSigns (alphabet : Alphabet) : List Char → List Nat × List Char
  | [] => ([], [])
  | c :: rest =>
    match alphabet.value? c with
    | some n => let (values, rest) := takeSigns alphabet rest; (n :: values, rest)
    | none => ([], c :: rest)

/-- The bytes of a text in Base64. -/
def decode? (alphabet : Alphabet) (s : List Char) : Option Bytes :=
  let (values, rest) := takeSigns alphabet s
  if rest.all (· = '=') && isFilled values.length rest.length then some (join values) else none

end Base64

end Pubsub
