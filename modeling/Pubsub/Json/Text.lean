import Pubsub.Json.Basic
import Pubsub.Text.Utf8

/-!
# The compact text of a value

`Json.text` writes a value as JSON with no blanks, the fields of an object in their order,
characters beyond ASCII as they are, and numbers by `FloatStyle.wire`, those that are not finite as
`null`. It is what is signed, encrypted and put on the wire, so it has to be one fixed text for a
value. `Json.encode` is the guarded form: it refuses what a receiver could not read, which is a
value nested too deep or an integer of more than 64 bits.
-/

namespace Pubsub

namespace Json

/-- The lower-case hexadecimal digit of a number below sixteen. -/
def hexDigit (n : Nat) : Char := Nat.digitChar n

/-- A character inside a JSON text: quotes, backslashes and controls are escaped. -/
def escape (c : Char) : List Char :=
  if c = '"' then ['\\', '"']
  else if c = '\\' then ['\\', '\\']
  else if c = '\n' then ['\\', 'n']
  else if c = '\r' then ['\\', 'r']
  else if c = '\t' then ['\\', 't']
  else if c.toNat = 8 then ['\\', 'b']
  else if c.toNat = 12 then ['\\', 'f']
  else if c.toNat < 32 then
    ['\\', 'u', '0', '0', hexDigit (c.toNat / 16), hexDigit (c.toNat % 16)]
  else [c]

/-- A text between quotes. -/
def quoted (s : String) : List Char :=
  '"' :: s.toList.flatMap escape ++ ['"']

/-- The decimal text of an integer. -/
def integerText (n : Int) : List Char :=
  if n < 0 then '-' :: Nat.toDigits 10 n.natAbs else Nat.toDigits 10 n.natAbs

/-- The text of a double. JSON has none for an infinity or for what is not a number. -/
def doubleText (x : Binary64) : List Char :=
  if x.isFinite then FloatStyle.wire.text x else "null".toList

mutual

/-- The characters of the compact text of a value. -/
def chars : Json → List Char
  | null => "null".toList
  | bool b => if b then "true".toList else "false".toList
  | int n => integerText n
  | float x => doubleText x
  | str s => quoted s
  | arr items => '[' :: charsOfItems items ++ [']']
  | obj fields => '{' :: charsOfFields fields ++ ['}']

/-- The items of a list, with commas between them. -/
def charsOfItems : List Json → List Char
  | [] => []
  | [item] => item.chars
  | item :: rest => item.chars ++ ',' :: charsOfItems rest

/-- The fields of an object, with commas between them. -/
def charsOfFields : List (String × Json) → List Char
  | [] => []
  | [(key, value)] => quoted key ++ ':' :: value.chars
  | (key, value) :: rest => quoted key ++ ':' :: value.chars ++ ',' :: charsOfFields rest

end

/-- The compact text of a value. -/
def text (value : Json) : String := String.ofList value.chars

/-- The deepest nesting that is written. -/
def writeDepth : Nat := 254

mutual

/-- Do all the integers of the value fit into 64 bits? -/
def hasWireIntegers : Json → Bool
  | int n => isWireInteger n
  | arr items => itemsHaveWireIntegers items
  | obj fields => fieldsHaveWireIntegers fields
  | _ => true

/-- Do all the integers of the items fit into 64 bits? -/
def itemsHaveWireIntegers : List Json → Bool
  | [] => true
  | item :: rest => item.hasWireIntegers && itemsHaveWireIntegers rest

/-- Do all the integers of the fields fit into 64 bits? -/
def fieldsHaveWireIntegers : List (String × Json) → Bool
  | [] => true
  | (_, value) :: rest => value.hasWireIntegers && fieldsHaveWireIntegers rest

end

/-- Why a value has no text. -/
inductive EncodeError where
  /-- The value nests deeper than `writeDepth`. -/
  | tooDeep
  /-- An integer needs more than 64 bits. -/
  | integerTooLarge
deriving DecidableEq, Repr

/-- The compact text of a value that can be written. -/
def encode (value : Json) : Except EncodeError String :=
  if writeDepth < value.depth then .error .tooDeep
  else if value.hasWireIntegers then .ok value.text
  else .error .integerTooLarge

end Json

end Pubsub
