import Pubsub.Text.Utf8

/-!
# Percent coding

A segment of a path may be any text, so it is written byte by byte in UTF-8, with every byte that is
not an unreserved sign of RFC 3986 as `%` and two hexadecimal digits. No sign that separates
segments, names or parameters is unreserved, which is why a coded segment can be cut out of an
address again. A query uses the same coding except that a space is written `+`. `Percent.decode?`
and `Form.decode?` are what the receiver does.
-/

namespace Pubsub

namespace Percent

/-- Does the byte stand for itself? -/
def isUnreserved (b : UInt8) : Bool :=
  (65 ≤ b && b ≤ 90) || (97 ≤ b && b ≤ 122) || (48 ≤ b && b ≤ 57)
    || b = 45 || b = 46 || b = 95 || b = 126

/-- The upper-case hexadecimal digit of a number below sixteen. -/
def hexDigit (n : Nat) : Char := (Nat.digitChar n).toUpper

/-- A byte in three signs. -/
def escape (b : UInt8) : List Char := ['%', hexDigit (b.toNat / 16), hexDigit (b.toNat % 16)]

/-- A byte of a segment. -/
def encodeByte (b : UInt8) : List Char :=
  if isUnreserved b then [Char.ofNat b.toNat] else escape b

/-- A segment. -/
def encode (s : String) : String :=
  String.ofList ((utf8Bytes s).flatMap encodeByte)

/-- The value of a hexadecimal digit. -/
def hexValue? (c : Char) : Option Nat :=
  if '0' ≤ c && c ≤ '9' then some (c.toNat - 48)
  else if 'A' ≤ c && c ≤ 'F' then some (c.toNat - 55)
  else if 'a' ≤ c && c ≤ 'f' then some (c.toNat - 87)
  else none

/-- The bytes of a coded segment; characters other than escapes stand for their own bytes. -/
def decodeBytes? : List Char → Option Bytes
  | [] => some []
  | '%' :: h :: l :: rest => do
    let high ← hexValue? h
    let low ← hexValue? l
    return UInt8.ofNat (high * 16 + low) :: (← decodeBytes? rest)
  | '%' :: _ => none
  | c :: rest => (decodeBytes? rest).map (String.utf8EncodeChar c ++ ·)

/-- The text of a coded segment. -/
def decode? (s : String) : Option String := do
  ofUtf8? (← decodeBytes? s.toList)

end Percent

namespace Form

/-- A byte of a name or a value of a query. -/
def encodeByte (b : UInt8) : List Char :=
  if b = 32 then ['+'] else Percent.encodeByte b

/-- A name or a value of a query. -/
def encodeField (s : String) : String :=
  String.ofList ((utf8Bytes s).flatMap encodeByte)

/-- The query: names and values in order. -/
def encode (parameters : List (String × String)) : String :=
  "&".intercalate (parameters.map fun (name, value) => encodeField name ++ "=" ++ encodeField value)

/-- The text of a coded name or value. -/
def decodeField? (s : String) : Option String := do
  ofUtf8? (← Percent.decodeBytes? (s.toList.map fun c => if c = '+' then ' ' else c))

/-- The text cut at every occurrence of the separator. -/
def splitAt (separator : Char) : List Char → List (List Char)
  | [] => [[]]
  | c :: rest =>
    if c = separator then [] :: splitAt separator rest
    else match splitAt separator rest with
      | [] => [[c]]
      | piece :: pieces => (c :: piece) :: pieces

/-- The names and values of a query, in order. -/
def decode? (s : String) : Option (List (String × String)) :=
  (splitAt '&' s.toList).mapM fun pair =>
    match splitAt '=' pair with
    | [name, value] => do
      return (← decodeField? (String.ofList name), ← decodeField? (String.ofList value))
    | _ => none

end Form

end Pubsub
