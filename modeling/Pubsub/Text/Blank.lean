import Pubsub.Text.Range

/-!
# Blank characters

The characters that are cut off at both ends of an origin and of a numeral: the separators of
Unicode 14 and the ASCII and Latin-1 controls that separate lines, words or records. Core's notion
of whitespace is narrower.
-/

namespace Pubsub

/-- The blank code points of Unicode 14, as closed ranges. -/
def blanks : List (Nat × Nat) :=
  [(0x9, 0xD), (0x1C, 0x20), (0x85, 0x85), (0xA0, 0xA0), (0x1680, 0x1680), (0x2000, 0x200A),
   (0x2028, 0x2029), (0x202F, 0x202F), (0x205F, 0x205F), (0x3000, 0x3000)]

/-- Is the character blank? -/
def isBlank (c : Char) : Bool :=
  inRanges blanks c.toNat

/-- The text without the characters at its end that satisfy `p`. -/
def dropTail (p : Char → Bool) (s : List Char) : List Char :=
  (s.reverse.dropWhile p).reverse

/-- The text without the blank characters at both ends. -/
def trimBlanks (s : List Char) : List Char :=
  dropTail isBlank (s.dropWhile isBlank)

end Pubsub
