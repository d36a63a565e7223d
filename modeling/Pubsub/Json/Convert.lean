import Pubsub.Error
import Pubsub.Text.Numeral

/-!
# Arguments as numbers

Some arguments and settings may be given in several ways: a limit or a mask by an integer, a double,
a truth value or a text, a delay likewise. The conversions say which values are meant and with which
cause the others are refused.
-/

namespace Pubsub

namespace Json

/-- The integer that a text denotes. -/
def integerOfText (s : String) : Except Error Int :=
  match Numeral.readInteger s with
  | .ok n => .ok n
  | .error .malformed => .error (.malformedInteger s)
  | .error (.tooLong digits) => .error (.tooManyDigits digits)

/-- The integer that a value denotes; a double loses its fraction. -/
def toInteger : Json → Except Error Int
  | int n => .ok n
  | bool b => .ok (if b then 1 else 0)
  | float .nan => .error .integerOfNan
  | float (.infinity _) => .error .integerOfInfinity
  | float x => .ok (x.truncate?.getD 0)
  | str s => integerOfText s
  | value => .error (.notAnInteger value.kindName)

/-- The double nearest to an integer. -/
def doubleOfInteger (n : Int) : Except Error Binary64 :=
  let x := Binary64.ofInt n
  if x.isFinite then .ok x else .error .doubleOutOfRange

/-- The double that a text denotes. -/
def doubleOfText (s : String) : Except Error Binary64 :=
  match Numeral.readDouble? s with
  | some x => .ok x
  | none => .error (.malformedDouble s)

/-- The double that a value denotes. -/
def toDouble : Json → Except Error Binary64
  | int n => doubleOfInteger n
  | bool b => .ok (if b then 1 else 0)
  | float x => .ok x
  | str s => doubleOfText s
  | value => .error (.notADouble value.kindName)

/-- Is the value, as a number, below zero? -/
def isNegative : Json → Except Error Bool
  | int n => .ok (n < 0)
  | bool _ => .ok false
  | float x => .ok (x.lt 0)
  | value => .error (.incomparable value.kindName)

/-- The elements of a value: the items of a list, the keys of an object, the characters of a
text. -/
def elements : Json → Except Error (List Json)
  | arr items => .ok items
  | obj fields => .ok (fields.map fun (key, _) => str key)
  | str s => .ok (s.toList.map fun c => str (String.singleton c))
  | value => .error (.notIterable value.kindName)

end Json

end Pubsub
