import Pubsub.Text.Blank
import Pubsub.Text.Digit
import Pubsub.Number.Binary64

/-!
# Numbers written as text

Settings and arguments may give a number as text. A numeral may have blanks around it, a sign in
front, an underscore between two of its digits, and the decimal digits of any script; `normalize`
turns it into ASCII, so the two grammars below see only ASCII digits and plain spaces. An integer of
more than `maxIntegerDigits` digits is refused rather than computed.
-/

namespace Pubsub

namespace Numeral

/-- A blank around a numeral. The four ASCII separators, blank elsewhere, are not. -/
def isNumeralBlank (c : Char) : Bool :=
  isBlank c && !(0x1C ≤ c.toNat && c.toNat ≤ 0x1F)

/-- A character of a numeral in ASCII: digits of every script become ASCII digits. -/
def normalizeChar (c : Char) : Char :=
  if isNumeralBlank c then ' '
  else match decimalValue c with
    | some n => Nat.digitChar n
    | none => c

/-- A numeral in ASCII. -/
def normalize (s : String) : List Char := s.toList.map normalizeChar

/-- The most digits that the text of an integer may have. -/
def maxIntegerDigits : Nat := 4300

/-! ## Integers -/

/-- Why a text is no integer. -/
inductive IntegerFault where
  /-- It has not the form of one. -/
  | malformed
  /-- It has more digits than are read. -/
  | tooLong (digits : Nat)
deriving DecidableEq, Repr

/-- Does no underscore stand at either end or beside another one? -/
def underscoresSeparate : List Char → Bool
  | [] => true
  | ['_'] => false
  | '_' :: '_' :: _ => false
  | _ :: rest => underscoresSeparate rest

/-- The integer that an unsigned numeral denotes. The digits are counted before what follows them is
looked at. -/
def readDigits (s : List Char) : Except IntegerFault Nat :=
  let body := s.takeWhile (fun c => c.isDigit || c = '_')
  let digits := body.filter Char.isDigit
  if body.head? == some '_' || !underscoresSeparate body then .error .malformed
  else if maxIntegerDigits < digits.length then .error (.tooLong digits.length)
  else if digits.isEmpty || !(s.drop body.length).all (· = ' ') then .error .malformed
  else .ok (Nat.ofDigitChars 10 digits 0)

/-- The integer that a numeral denotes. -/
def readInteger (s : String) : Except IntegerFault Int :=
  match (normalize s).dropWhile (· = ' ') with
  | '-' :: rest => (readDigits rest).map fun n => -(n : Int)
  | '+' :: rest => (readDigits rest).map fun n => (n : Int)
  | rest => (readDigits rest).map fun n => (n : Int)

/-! ## Doubles -/

/-- The numeral without its underscores, if each of them stands between two digits. -/
def dropUnderscores (previous : Char) : List Char → Option (List Char)
  | [] => if previous = '_' then none else some []
  | '_' :: rest => if previous.isDigit then dropUnderscores '_' rest else none
  | c :: rest =>
    if previous = '_' && !c.isDigit then none
    else (dropUnderscores c rest).map (c :: ·)

/-- The exponent that the rest of a numeral denotes: none if nothing is left. -/
def exponent? : List Char → Option Int
  | [] => some 0
  | mark :: rest =>
    if mark = 'e' || mark = 'E' then
      let (negative, digits) := match rest with
        | '-' :: rest => (true, rest)
        | '+' :: rest => (false, rest)
        | rest => (false, rest)
      if digits.isEmpty || !digits.all Char.isDigit then none
      else
        let n : Int := Nat.ofDigitChars 10 digits 0
        some (if negative then -n else n)
    else none

/-- The double that an unsigned numeral denotes. -/
def unsignedDouble? (negative : Bool) (s : List Char) : Option Binary64 :=
  let word := String.ofList (s.map Char.toLower)
  if word = "inf" || word = "infinity" then some (.infinity negative)
  else if word = "nan" then some .nan
  else
    let whole := s.takeWhile Char.isDigit
    let (fraction, rest) := match s.dropWhile Char.isDigit with
      | '.' :: rest => (rest.takeWhile Char.isDigit, rest.dropWhile Char.isDigit)
      | rest => ([], rest)
    if (whole ++ fraction).isEmpty then none
    else (exponent? rest).map fun e =>
      Binary64.ofDecimal negative (Nat.ofDigitChars 10 (whole ++ fraction) 0) (e - fraction.length)

/-- The double that a numeral denotes. -/
def readDouble? (s : String) : Option Binary64 := do
  let body ← dropUnderscores ' ' (dropTail (· = ' ') ((normalize s).dropWhile (· = ' ')))
  match body with
  | '-' :: rest => unsignedDouble? true rest
  | '+' :: rest => unsignedDouble? false rest
  | rest => unsignedDouble? false rest

end Numeral

end Pubsub
