import Pubsub.Text.Printable

/-!
# Quoting text in messages

A message that mentions a text shows it between quotes, on one line and with nothing invisible in
it. The quotes are single ones, unless the text holds a single quote and no double one. The
backslash and the quote that is used are escaped with a backslash, tab, line feed and carriage
return get their letters, and every other character that is not printable is given by its code
point, in the shortest of three hexadecimal forms that holds it.
-/

namespace Pubsub

/-- `n` in lower-case hexadecimal, with zeros in front up to `width` digits. -/
def hexPadded (width n : Nat) : List Char :=
  let digits := Nat.toDigits 16 n
  List.replicate (width - digits.length) '0' ++ digits

/-- The escape of a character by its code point. -/
def codePointEscape (c : Char) : List Char :=
  if c.toNat < 0x100 then ['\\', 'x'] ++ hexPadded 2 c.toNat
  else if c.toNat < 0x10000 then ['\\', 'u'] ++ hexPadded 4 c.toNat
  else ['\\', 'U'] ++ hexPadded 8 c.toNat

/-- A character as it appears between quotes of the given kind. -/
def quotedChar (quote : Char) (c : Char) : List Char :=
  if c = quote || c = '\\' then ['\\', c]
  else if c = '\t' then ['\\', 't']
  else if c = '\n' then ['\\', 'n']
  else if c = '\r' then ['\\', 'r']
  else if isPrintable c then [c]
  else codePointEscape c

/-- The quote that a text is put between. -/
def quoteFor (s : List Char) : Char :=
  if s.contains '\'' && !s.contains '"' then '"' else '\''

/-- A text as messages quote it. -/
def quoteText (s : String) : List Char :=
  let quote := quoteFor s.toList
  quote :: s.toList.flatMap (quotedChar quote) ++ [quote]

end Pubsub
