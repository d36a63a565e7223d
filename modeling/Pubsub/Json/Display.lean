import Pubsub.Json.Text
import Pubsub.Text.Quoted

/-!
# Values in messages

How a value is shown to people, in error messages and in the text fields of results: `display`
quotes texts wherever they stand, `toText` leaves a text that is the whole value as it is. Lists and
objects are spaced, constants are capitalised, and doubles are laid out by `FloatStyle.report`.
-/

namespace Pubsub

namespace Json

mutual

/-- The characters of a value as messages show it. -/
def displayChars : Json → List Char
  | null => "None".toList
  | bool b => if b then "True".toList else "False".toList
  | int n => integerText n
  | float x => FloatStyle.report.text x
  | str s => quoteText s
  | arr items => '[' :: displayItems items ++ [']']
  | obj fields => '{' :: displayFields fields ++ ['}']

/-- The items of a list, with commas and spaces between them. -/
def displayItems : List Json → List Char
  | [] => []
  | [item] => item.displayChars
  | item :: rest => item.displayChars ++ ',' :: ' ' :: displayItems rest

/-- The fields of an object, with commas and spaces between them. -/
def displayFields : List (String × Json) → List Char
  | [] => []
  | [(key, value)] => quoteText key ++ ':' :: ' ' :: value.displayChars
  | (key, value) :: rest =>
    quoteText key ++ ':' :: ' ' :: value.displayChars ++ ',' :: ' ' :: displayFields rest

end

/-- A value as messages show it. -/
def display (value : Json) : String := String.ofList value.displayChars

/-- A value where a text is wanted: a text is itself, anything else is shown. -/
def toText : Json → String
  | str s => s
  | value => value.display

end Json

end Pubsub
