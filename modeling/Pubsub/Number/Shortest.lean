import Pubsub.Number.Binary64

/-!
# Writing doubles in decimal

A double is written with the fewest significant digits that read back as it. Every finite value owns
the interval of reals that round to it; a decimal reads back iff it lies there, ends included when
the significand is even. For one, two, … digits the two neighbours of the value on that decimal grid
are tested in exact arithmetic, and the first grid with a hit wins: if any point of a grid lies in
the interval, so does one of the value's two neighbours. Of two hits the nearer is taken, and of two
equally near ones the even one.

How the digits are laid out is a decision of the format that prints them, and is a record:
`FloatStyle.wire` for JSON texts and `FloatStyle.report` for messages to people.
-/

namespace Pubsub

/-- The value `0.d₁d₂…dₙ · 10 ^ point`, where the digits are those of `digits`. -/
structure Decimal where
  /-- The significant digits, as one number. -/
  digits : Nat
  /-- Where the decimal point stands, counted from the first digit. -/
  point : Int
deriving DecidableEq, Repr

namespace Binary64

/-- Is `d * 10 ^ e` among the reals that round to the finite magnitude `m > 0`? All quantities are
in quarters of a unit, so that half the distance to either neighbour is an integer. -/
def readsBack (m d : Nat) (e : Int) : Bool :=
  let s := scale m
  let above := 2 * Nat.pow 2 s
  let below := if m = Nat.pow 2 52 * Nat.pow 2 s && 0 < s then Nat.pow 2 s else above
  let up := if 0 ≤ e then Nat.pow 10 e.natAbs else 1
  let down := if 0 ≤ e then 1 else Nat.pow 10 e.natAbs
  let x := 4 * d * up * unitsPerOne
  let low := (4 * m - below) * down
  let high := (4 * m + above) * down
  if m / Nat.pow 2 s % 2 = 0 then low ≤ x && x ≤ high else low < x && x < high

/-- The place of the decimal point of a magnitude `m > 0`: the least `k` with `m` units below
`10 ^ k`. -/
def decimalPoint (m : Nat) : Int :=
  let k : Int := ((m.log2 : Int) - 1074) * 30103 / 100000 + 1
  let small := if 0 ≤ k then m < Nat.pow 10 k.natAbs * unitsPerOne
    else m * Nat.pow 10 k.natAbs < unitsPerOne
  if small then k else k + 1

/-- The best decimal of `n` digits that reads back as the magnitude `m > 0`, if there is one: the
digits as a number that counts steps of the grid `10 ^ (point - n)`. -/
def decimalOfLength? (m : Nat) (point : Int) (n : Nat) : Option Nat :=
  let e := point - n
  let num := if 0 ≤ e then m else m * Nat.pow 10 e.natAbs
  let den := if 0 ≤ e then Nat.pow 10 e.natAbs * unitsPerOne else unitsPerOne
  let nearest := divideToEven num den
  let other := if nearest * den ≤ num then nearest + 1 else nearest - 1
  if readsBack m nearest e then some nearest
  else if readsBack m other e then some other
  else none

/-- The decimal without zeros at the end of its digits; the fuel bounds how many are dropped. -/
def dropZeros : Nat → Nat → Nat
  | 0, d => d
  | fuel + 1, d => if d % 10 = 0 && d != 0 then dropZeros fuel (d / 10) else d

/-- The shortest decimal that reads back as the magnitude `m > 0`, and of those the nearest.
Seventeen digits always suffice. -/
def shortest (m : Nat) : Decimal :=
  let point := decimalPoint m
  let found := (List.range 17).findSome? fun n =>
    (decimalOfLength? m point (n + 1)).map fun d => (d, n + 1)
  match found with
  | some (d, n) => ⟨dropZeros 17 d, if d = Nat.pow 10 n then point + 1 else point⟩
  | none => ⟨0, 0⟩

end Binary64

/-- How a double is laid out. -/
structure FloatStyle where
  /-- The least place of the decimal point at which the number is written without an exponent. -/
  leastPoint : Int
  /-- The greatest such place. -/
  greatestPoint : Int
  /-- Whether a positive exponent carries a sign. -/
  signedExponent : Bool
  /-- The least number of digits of an exponent. -/
  exponentDigits : Nat

namespace FloatStyle

/-- JSON texts: positional from `1e-5` to below `1e16`, exponents signed and as short as they can
be. -/
def wire : FloatStyle := ⟨-4, 16, true, 1⟩

/-- Messages to people: positional from `1e-4` to below `1e16`, exponents signed and of at least two
digits. -/
def report : FloatStyle := ⟨-3, 16, true, 2⟩

/-- The exponent, with its mark. -/
def exponentText (style : FloatStyle) (e : Int) : List Char :=
  let digits := Nat.toDigits 10 e.natAbs
  let sign := if e < 0 then ['-'] else if style.signedExponent then ['+'] else []
  'e' :: sign ++ List.replicate (style.exponentDigits - digits.length) '0' ++ digits

/-- The layout of a positive decimal. -/
def decimalText (style : FloatStyle) (x : Decimal) : List Char :=
  let digits := Nat.toDigits 10 x.digits
  if style.leastPoint ≤ x.point && x.point ≤ style.greatestPoint then
    if x.point ≤ 0 then
      ['0', '.'] ++ List.replicate x.point.natAbs '0' ++ digits
    else
      let whole := x.point.natAbs
      if digits.length ≤ whole then
        digits ++ List.replicate (whole - digits.length) '0' ++ ['.', '0']
      else
        digits.take whole ++ '.' :: digits.drop whole
  else
    let fraction := digits.drop 1
    digits.take 1 ++ (if fraction.isEmpty then [] else '.' :: fraction)
      ++ style.exponentText (x.point - 1)

/-- The text of a double. -/
def text (style : FloatStyle) : Binary64 → List Char
  | .nan => "nan".toList
  | .infinity negative => if negative then "-inf".toList else "inf".toList
  | .finite negative m _ =>
    let sign := if negative then ['-'] else []
    if m = 0 then sign ++ ['0', '.', '0']
    else sign ++ style.decimalText (Binary64.shortest m)

end FloatStyle

namespace Binary64

/-- The text of a double as messages show it. -/
def toText (x : Binary64) : String := String.ofList (FloatStyle.report.text x)

/-- The text of a double with one decimal place, a half going to the even digit. -/
def toTenths : Binary64 → String
  | .nan => "nan"
  | .infinity negative => if negative then "-inf" else "inf"
  | .finite negative m _ =>
    let tenths := divideToEven (m * 10) unitsPerOne
    String.ofList ((if negative then ['-'] else [])
      ++ Nat.toDigits 10 (tenths / 10) ++ '.' :: Nat.toDigits 10 (tenths % 10))

end Binary64

end Pubsub
