import Pubsub.Number.Shortest

/-!
# JSON values

The values that travel: messages, response bodies, settings files. Numbers keep the distinction that
their texts make, between integers, which are exact, and doubles. The fields of an object are a
list, because their order is kept and shown; a field that is set again keeps its place and takes the
new value (`setField`), so an object read from a text never repeats a key.
-/

namespace Pubsub

/-- A JSON value. -/
inductive Json where
  | null
  | bool (b : Bool)
  | int (n : Int)
  | float (x : Binary64)
  | str (s : String)
  | arr (items : List Json)
  | obj (fields : List (String × Json))
deriving Inhabited

namespace Json

/-- The value of the field `key`, if there is such a field. -/
def field? (fields : List (String × Json)) (key : String) : Option Json :=
  (fields.find? (·.1 == key)).map (·.2)

/-- The fields with `key` set to `value`: in its place if the key is there, else at the end. -/
def setField (key : String) (value : Json) : List (String × Json) → List (String × Json)
  | [] => [(key, value)]
  | (k, v) :: rest => if k = key then (k, value) :: rest else (k, v) :: setField key value rest

/-- The object that a sequence of settings of fields leaves. -/
def ofSettings (settings : List (String × Json)) : List (String × Json) :=
  settings.foldl (fun fields setting => setField setting.1 setting.2 fields) []

/-- The integers that a JSON text may hold: those of 64 bits, signed or not. -/
def isWireInteger (n : Int) : Bool := -9223372036854775808 ≤ n && n < 18446744073709551616

/-- The name that messages give to the kind of a value. -/
def kindName : Json → String
  | null => "NoneType"
  | bool _ => "bool"
  | int _ => "int"
  | float _ => "float"
  | str _ => "str"
  | arr _ => "list"
  | obj _ => "dict"

/-- Is there anything to the value? Absent values, false, zeros, and empty texts, lists and objects
count as nothing. -/
def isTruthy : Json → Bool
  | null => false
  | bool b => b
  | int n => n != 0
  | float x => !(x.eq 0)
  | str s => s != ""
  | arr items => !items.isEmpty
  | obj fields => !fields.isEmpty

/-! ## How deep a value nests -/

mutual

/-- The number of lists and objects around the innermost value. -/
def depth : Json → Nat
  | arr items => depthOfItems items + 1
  | obj fields => depthOfFields fields + 1
  | _ => 0

/-- The greatest depth among the items of a list. -/
def depthOfItems : List Json → Nat
  | [] => 0
  | item :: rest => max item.depth (depthOfItems rest)

/-- The greatest depth among the fields of an object. -/
def depthOfFields : List (String × Json) → Nat
  | [] => 0
  | (_, value) :: rest => max value.depth (depthOfFields rest)

end

/-! ## Equality of values

Two values are **alike** when they compare equal as values of the application: numbers by what they
denote, so that `1`, `1.0` and `true` are alike, and objects by their fields in any order. -/

/-- The number that a value denotes, in units of `2⁻¹⁰⁷⁴`. -/
def units? : Json → Option Int
  | bool b => some (if b then Binary64.unitsPerOne else 0)
  | int n => some (n * Binary64.unitsPerOne)
  | float x => x.units?
  | _ => none

mutual

/-- Do the two values compare equal? -/
def alike : Json → Json → Bool
  | null, null => true
  | str s, str t => s == t
  | arr items, arr items' => alikeItems items items'
  | obj fields, obj fields' => fields.length == fields'.length && alikeFields fields fields'
  | bool b, other => (bool b).units? == other.units?
  | int n, other => (int n).units? == other.units?
  | float x, other => x.isFinite && x.units? == other.units?
  | _, _ => false

/-- Do the two lists compare equal, item by item? -/
def alikeItems : List Json → List Json → Bool
  | [], [] => true
  | item :: rest, item' :: rest' => alike item item' && alikeItems rest rest'
  | _, _ => false

/-- Does every field have its like in `others`? -/
def alikeFields : List (String × Json) → List (String × Json) → Bool
  | [], _ => true
  | (key, value) :: rest, others =>
    (match field? others key with
      | some value' => alike value value'
      | none => false) && alikeFields rest others

end

end Json

end Pubsub
