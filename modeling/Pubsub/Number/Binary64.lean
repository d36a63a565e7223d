/-!
# Binary floating-point numbers

Clock readings, timeouts, delays and the fractional numbers of JSON are IEEE 754 doubles. They are
modelled here exactly, and in the plainest way the format allows: every finite double is a whole
multiple of the least positive one, `2⁻¹⁰⁷⁴`, so a finite value is a sign and a natural number of
those **units**. Comparison is then comparison of integers, and an operation computes its exact
result in units and rounds it once, to the nearest value of the format and to an even significand
where two are equally near. `Fits` says which multiples the format has, and each finite value
carries the proof that its magnitude is one of them; `representable_roundQuotient` is what lets
rounding produce it.
-/

namespace Pubsub

namespace Binary64

/-- `num / den` rounded to the nearest integer, a half to the even one. -/
def divideToEven (num den : Nat) : Nat :=
  let q := num / den
  let r := num % den
  if 2 * r < den then q else if den < 2 * r then q + 1 else q + q % 2

/-- The binary places that the significand of a value of about `n` units lies above the unit: none
below `2⁵³`, and from there on the position that leaves 53 binary digits. -/
def scale (n : Nat) : Nat :=
  if n < Nat.pow 2 53 then 0 else n.log2 - 52

/-- The magnitude, in units, nearest to `num / den` units. -/
def roundQuotient (num den : Nat) : Nat :=
  let s := scale (num / den)
  divideToEven num (den * Nat.pow 2 s) * Nat.pow 2 s

/-- The first magnitude, in units, that is too large for the format: `2¹⁰²⁴`. -/
def ceiling : Nat := Nat.pow 2 2098

/-- A magnitude that the format has: a significand below `2⁵³`, scaled by a power of two. -/
def Representable (n : Nat) : Prop := ∃ q s, q < Nat.pow 2 53 ∧ n = q * Nat.pow 2 s

/-- A magnitude of a finite value: representable, and below the ceiling. -/
def Fits (n : Nat) : Prop := Representable n ∧ n < ceiling

theorem divideToEven_le (num den : Nat) : divideToEven num den ≤ num / den + 1 := by
  unfold divideToEven
  dsimp only
  split
  · omega
  · split <;> omega

/-- At its scale the significand of `n` is below `2⁵³`. -/
theorem div_scale_lt (n : Nat) : n / Nat.pow 2 (scale n) < Nat.pow 2 53 := by
  show n / 2 ^ scale n < 2 ^ 53
  unfold scale
  split
  · simpa using ‹n < 2 ^ 53›
  · rename_i h
    have hn : n ≠ 0 := by rintro rfl; exact h (by decide)
    have h53 : 53 ≤ n.log2 := (Nat.le_log2 hn).2 (Nat.not_lt.1 h)
    rw [Nat.div_lt_iff_lt_mul (Nat.two_pow_pos _), ← Nat.pow_add]
    have hlt : n < 2 ^ (n.log2 + 1) := Nat.lt_log2_self
    have he : 53 + (n.log2 - 52) = n.log2 + 1 := by omega
    rw [he]
    exact hlt

/-- **Rounding lands on a value of the format.** -/
theorem representable_roundQuotient (num den : Nat) : Representable (roundQuotient num den) := by
  unfold roundQuotient
  dsimp only
  generalize hs : scale (num / den) = s
  show Representable (divideToEven num (den * 2 ^ s) * 2 ^ s)
  have hq : divideToEven num (den * 2 ^ s) ≤ 2 ^ 53 := by
    refine Nat.le_trans (divideToEven_le _ _) ?_
    rw [← Nat.div_div_eq_div_mul, ← hs]
    exact div_scale_lt (num / den)
  rcases Nat.lt_or_eq_of_le hq with h | h
  · exact ⟨_, s, h, rfl⟩
  · refine ⟨2 ^ 52, s + 1, by decide, ?_⟩
    show _ = 2 ^ 52 * 2 ^ (s + 1)
    rw [h, Nat.pow_succ 2 s, Nat.pow_succ 2 52, Nat.mul_assoc, Nat.mul_comm 2 (2 ^ s)]

end Binary64

/-- A double of IEEE 754. -/
inductive Binary64 where
  /-- The outcome of an operation without a value; it differs from everything, itself included. -/
  | nan
  /-- The two infinities. -/
  | infinity (negative : Bool)
  /-- A finite value: its sign and its magnitude in units of `2⁻¹⁰⁷⁴`. Zero has two signs. -/
  | finite (negative : Bool) (magnitude : Nat) (fits : Binary64.Fits magnitude)

namespace Binary64

instance : DecidableEq Binary64
  | .nan, .nan => isTrue rfl
  | .nan, .infinity _ => isFalse (by simp)
  | .nan, .finite _ _ _ => isFalse (by simp)
  | .infinity _, .nan => isFalse (by simp)
  | .infinity a, .infinity b => if h : a = b then isTrue (h ▸ rfl) else isFalse (by simp [h])
  | .infinity _, .finite _ _ _ => isFalse (by simp)
  | .finite _ _ _, .nan => isFalse (by simp)
  | .finite _ _ _, .infinity _ => isFalse (by simp)
  | .finite a m _, .finite b n _ =>
    if h : a = b ∧ m = n then isTrue (by obtain ⟨rfl, rfl⟩ := h; rfl)
    else isFalse (by simp only [finite.injEq]; exact h)

/-! ## Making values -/

/-- The value nearest to `num / den` units with the given sign; an infinity if that is out of
range. -/
def ofQuotient (negative : Bool) (num den : Nat) : Binary64 :=
  if h : roundQuotient num den < ceiling then
    .finite negative (roundQuotient num den) ⟨representable_roundQuotient num den, h⟩
  else
    .infinity negative

/-- The units in one. -/
def unitsPerOne : Nat := Nat.pow 2 1074

/-- The value nearest to a signed number of units. -/
def ofUnits (n : Int) : Binary64 :=
  ofQuotient (n < 0) n.natAbs 1

/-- The value nearest to an integer. -/
def ofInt (n : Int) : Binary64 :=
  ofUnits (n * unitsPerOne)

instance : OfNat Binary64 n := ⟨ofInt n⟩

instance : Inhabited Binary64 := ⟨0⟩

/-- The value nearest to `digits * 10 ^ exponent`. Exponents far outside the format decide the
outcome at once, so no large power is computed for them. -/
def ofDecimal (negative : Bool) (digits : Nat) (exponent : Int) : Binary64 :=
  if digits = 0 then ofQuotient negative 0 1
  else
    if exponent + digits.log2 / 3 < -402 then ofQuotient negative 0 1
    else if 400 < exponent then .infinity negative
    else if exponent < 0 then
      ofQuotient negative (digits * unitsPerOne) (Nat.pow 10 exponent.natAbs)
    else
      ofQuotient negative (digits * unitsPerOne * Nat.pow 10 exponent.natAbs) 1

/-! ## Reading values -/

/-- The signed number of units of a finite value. -/
def units? : Binary64 → Option Int
  | .finite negative m _ => some (if negative then -m else m)
  | _ => none

/-- Is the value finite? -/
def isFinite (x : Binary64) : Bool := x.units?.isSome

/-- The integer part of a finite value, toward zero. -/
def truncate? (x : Binary64) : Option Int :=
  x.units?.map (Int.tdiv · unitsPerOne)

/-! ## Comparison

A comparison with `nan` is false, whatever the comparison is; the two zeros are equal. -/

/-- Is `x` less than `y`? -/
def lt : Binary64 → Binary64 → Bool
  | .nan, _ => false
  | _, .nan => false
  | .infinity true, .infinity true => false
  | .infinity true, _ => true
  | .infinity false, _ => false
  | .finite _ _ _, .infinity negative => !negative
  | .finite a m _, .finite b n _ =>
    decide ((if a then -(m : Int) else m) < (if b then -(n : Int) else n))

/-- Are `x` and `y` equal as numbers? -/
def eq : Binary64 → Binary64 → Bool
  | .infinity a, .infinity b => a == b
  | .finite a m _, .finite b n _ =>
    decide ((if a then -(m : Int) else m) = (if b then -(n : Int) else n))
  | _, _ => false

/-- Is `x` at most `y`? -/
def le (x y : Binary64) : Bool := lt x y || eq x y

/-- `y` if it is greater, and otherwise `x`; so `x` where the two cannot be compared. -/
def max (x y : Binary64) : Binary64 := if lt x y then y else x

/-- `y` if it is less, and otherwise `x`; so `x` where the two cannot be compared. -/
def min (x y : Binary64) : Binary64 := if lt y x then y else x

/-! ## Arithmetic -/

/-- The value with the opposite sign. -/
def neg : Binary64 → Binary64
  | .nan => .nan
  | .infinity negative => .infinity !negative
  | .finite negative m h => .finite (!negative) m h

/-- The sum, rounded. A sum of zero is negative only if both terms are negative zeros. -/
def add : Binary64 → Binary64 → Binary64
  | .nan, _ => .nan
  | _, .nan => .nan
  | .infinity a, .infinity b => if a = b then .infinity a else .nan
  | .infinity a, .finite _ _ _ => .infinity a
  | .finite _ _ _, .infinity b => .infinity b
  | .finite a m _, .finite b n _ =>
    let total := (if a then -(m : Int) else m) + (if b then -(n : Int) else n)
    if total = 0 then ofQuotient (a && b) 0 1 else ofUnits total

/-- The difference, rounded. -/
def sub (x y : Binary64) : Binary64 := add x (neg y)

/-- The product, rounded. -/
def mul : Binary64 → Binary64 → Binary64
  | .nan, _ => .nan
  | _, .nan => .nan
  | .infinity a, .infinity b => .infinity (a != b)
  | .infinity a, .finite b n _ => if n = 0 then .nan else .infinity (a != b)
  | .finite a m _, .infinity b => if m = 0 then .nan else .infinity (a != b)
  | .finite a m _, .finite b n _ => ofQuotient (a != b) (m * n) unitsPerOne

instance : Add Binary64 := ⟨add⟩
instance : Sub Binary64 := ⟨sub⟩
instance : Mul Binary64 := ⟨mul⟩
instance : Neg Binary64 := ⟨neg⟩

end Binary64

end Pubsub
