import Pubsub.Json.Basic
import Pubsub.Text.Utf8

/-!
# Reading JSON

The grammar of RFC 8259, strictly: no blanks but the four, no leading zeros, no trailing commas, no
raw controls, no half of a surrogate pair. An integer text becomes an integer if it fits into 64
bits and a double otherwise; a double out of range is refused. Lists and objects may nest to
`Json.readDepth`, and the recursion is on what is left of that depth, so the reader is total; within
one list or object the length of the text bounds the number of items.
-/

namespace Pubsub

namespace Json

/-- A reader takes a value off the front of the text and returns the rest. -/
abbrev Reader (α : Type) := List Char → Option (α × List Char)

/-- The deepest nesting that is read. -/
def readDepth : Nat := 1024

/-- The four blanks of the grammar. -/
def isSpace (c : Char) : Bool := c = ' ' || c = '\t' || c = '\n' || c = '\r'

/-- The text after the blanks at its front. -/
def skipSpace (s : List Char) : List Char := s.dropWhile isSpace

/-! ## Texts -/

/-- The value of a hexadecimal digit. -/
def hexValue? (c : Char) : Option Nat :=
  if '0' ≤ c && c ≤ '9' then some (c.toNat - '0'.toNat)
  else if 'a' ≤ c && c ≤ 'f' then some (c.toNat - 'a'.toNat + 10)
  else if 'A' ≤ c && c ≤ 'F' then some (c.toNat - 'A'.toNat + 10)
  else none

/-- The code unit that four hexadecimal digits denote. -/
def codeUnit? (a b c d : Char) : Option Nat := do
  return (((← hexValue? a) * 16 + (← hexValue? b)) * 16 + (← hexValue? c)) * 16 + (← hexValue? d)

/-- Is the code unit the first half of a pair? -/
def isHighSurrogate (n : Nat) : Bool := 0xD800 ≤ n && n < 0xDC00

/-- Is the code unit the second half of a pair? -/
def isLowSurrogate (n : Nat) : Bool := 0xDC00 ≤ n && n < 0xE000

/-- The character that a backslash and the letter stand for. -/
def unescape? (c : Char) : Option Char :=
  if c = '"' || c = '\\' || c = '/' then some c
  else if c = 'n' then some '\n'
  else if c = 'r' then some '\r'
  else if c = 't' then some '\t'
  else if c = 'b' then some (Char.ofNat 8)
  else if c = 'f' then some (Char.ofNat 12)
  else none

/-- The characters of a text up to its closing quote. -/
def readQuoted : Reader (List Char)
  | [] => none
  | '"' :: rest => some ([], rest)
  | '\\' :: 'u' :: a :: b :: c :: d :: '\\' :: 'u' :: a' :: b' :: c' :: d' :: rest => do
    let n ← codeUnit? a b c d
    if isHighSurrogate n then
      let m ← codeUnit? a' b' c' d'
      if isLowSurrogate m then
        let (chars, rest) ← readQuoted rest
        return (Char.ofNat (0x10000 + (n - 0xD800) * 0x400 + (m - 0xDC00)) :: chars, rest)
      else none
    else if isLowSurrogate n then none
    else
      let (chars, rest) ← readQuoted ('\\' :: 'u' :: a' :: b' :: c' :: d' :: rest)
      return (Char.ofNat n :: chars, rest)
  | '\\' :: 'u' :: a :: b :: c :: d :: rest => do
    let n ← codeUnit? a b c d
    if isHighSurrogate n || isLowSurrogate n then none
    else
      let (chars, rest) ← readQuoted rest
      return (Char.ofNat n :: chars, rest)
  | '\\' :: c :: rest => do
    let c ← unescape? c
    let (chars, rest) ← readQuoted rest
    return (c :: chars, rest)
  | c :: rest =>
    if c.toNat < 32 || c = '\\' then none
    else do
      let (chars, rest) ← readQuoted rest
      return (c :: chars, rest)

/-! ## Numbers -/

/-- The number that a text of ASCII digits denotes. -/
def digitsValue (digits : List Char) : Nat := Nat.ofDigitChars 10 digits 0

/-- The digits of the fraction, if a point and a digit follow. -/
def readFraction : List Char → List Char × List Char
  | '.' :: rest =>
    let digits := rest.takeWhile Char.isDigit
    if digits.isEmpty then ([], '.' :: rest) else (digits, rest.dropWhile Char.isDigit)
  | s => ([], s)

/-- The exponent after its mark: a sign, if there is one, and at least one digit. -/
def readExponentDigits (s : List Char) : Option (Int × List Char) :=
  let (negative, s) := match s with
    | '-' :: rest => (true, rest)
    | '+' :: rest => (false, rest)
    | s => (false, s)
  let digits := s.takeWhile Char.isDigit
  if digits.isEmpty then none
  else
    let n : Int := digitsValue digits
    some (if negative then -n else n, s.dropWhile Char.isDigit)

/-- The exponent, if a mark and an exponent follow. -/
def readExponent : List Char → Option Int × List Char
  | c :: rest =>
    if c = 'e' || c = 'E' then
      match readExponentDigits rest with
      | some (n, rest) => (some n, rest)
      | none => (none, c :: rest)
    else (none, c :: rest)
  | [] => (none, [])

/-- The digits before the point: a zero alone, or digits that do not begin with one. -/
def readWhole : Reader (List Char)
  | '0' :: rest => some (['0'], rest)
  | s =>
    let digits := s.takeWhile Char.isDigit
    if digits.isEmpty then none else some (digits, s.dropWhile Char.isDigit)

/-- The double that is nearest to a decimal, unless that is out of range. -/
def finiteDecimal? (negative : Bool) (digits : Nat) (exponent : Int) : Option Json :=
  let x := Binary64.ofDecimal negative digits exponent
  if x.isFinite then some (.float x) else none

/-- The value of a text that is an integer: an integer if it fits into 64 bits, else a double. -/
def integerValue? (negative : Bool) (n : Nat) : Option Json :=
  let value : Int := if negative then -n else n
  if isWireInteger value then some (.int value)
  else finiteDecimal? negative n 0

/-- A number after its sign. -/
def readUnsigned (negative : Bool) : Reader Json := fun s => do
  let (whole, rest) ← readWhole s
  let (fraction, rest) := readFraction rest
  let (exponent, rest) := readExponent rest
  if fraction.isEmpty && exponent.isNone then
    return (← integerValue? negative (digitsValue whole), rest)
  else
    let value ← finiteDecimal? negative (digitsValue (whole ++ fraction))
      (exponent.getD 0 - fraction.length)
    return (value, rest)

/-! ## Values -/

/-- The value, if the text begins with the word. -/
def readWord (word : String) (value : Json) : Reader Json := fun s =>
  if word.toList.isPrefixOf s then some (value, s.drop word.length) else none

/-- A value that is neither a list nor an object. -/
def readScalar : Reader Json
  | '"' :: rest => (readQuoted rest).map fun (chars, rest) => (.str (String.ofList chars), rest)
  | '-' :: rest => readUnsigned true rest
  | 'n' :: rest => readWord "null" .null ('n' :: rest)
  | 't' :: rest => readWord "true" (.bool true) ('t' :: rest)
  | 'f' :: rest => readWord "false" (.bool false) ('f' :: rest)
  | s => readUnsigned false s

/-- The items of a list up to its closing bracket; the fuel bounds their number. -/
def readItems (item : Reader Json) : Nat → Reader (List Json)
  | 0, _ => none
  | fuel + 1, s => do
    let (value, rest) ← item (skipSpace s)
    match skipSpace rest with
    | ',' :: rest =>
      let (values, rest) ← readItems item fuel rest
      return (value :: values, rest)
    | ']' :: rest => return ([value], rest)
    | _ => none

/-- The fields of an object up to its closing brace; the fuel bounds their number. -/
def readFields (item : Reader Json) : Nat → Reader (List (String × Json))
  | 0, _ => none
  | fuel + 1, s => do
    match skipSpace s with
    | '"' :: rest =>
      let (key, rest) ← readQuoted rest
      match skipSpace rest with
      | ':' :: rest =>
        let (value, rest) ← item (skipSpace rest)
        match skipSpace rest with
        | ',' :: rest =>
          let (fields, rest) ← readFields item fuel rest
          return ((String.ofList key, value) :: fields, rest)
        | '}' :: rest => return ([(String.ofList key, value)], rest)
        | _ => none
      | _ => none
    | _ => none

/-- A value whose lists and objects nest at most as deep as given. -/
def readValue : Nat → Reader Json
  | 0 => fun s => match s with
    | '[' :: _ => none
    | '{' :: _ => none
    | s => readScalar s
  | depth + 1 => fun s => match s with
    | '[' :: rest =>
      match skipSpace rest with
      | ']' :: rest => some (.arr [], rest)
      | rest => (readItems (readValue depth) (rest.length + 1) rest).map
          fun (items, rest) => (.arr items, rest)
    | '{' :: rest =>
      match skipSpace rest with
      | '}' :: rest => some (.obj [], rest)
      | rest => (readFields (readValue depth) (rest.length + 1) rest).map
          fun (fields, rest) => (.obj (ofSettings fields), rest)
    | s => readScalar s

/-- The value of a text that is JSON, with nothing but blanks around it. -/
def parse? (s : List Char) : Option Json := do
  let (value, rest) ← readValue readDepth (skipSpace s)
  if (skipSpace rest).isEmpty then some value else none

/-- The value of bytes that are a JSON text in UTF-8. -/
def decode? (bytes : Bytes) : Option Json := do
  parse? (← ofUtf8? bytes).toList

end Json

end Pubsub
