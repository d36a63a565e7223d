import Mathlib.Algebra.Group.Nat.Defs
import Pubsub.Number.Binary64

/-!
# How far rounding moves a difference

The time that has passed is a difference of two readings of a clock, and like every result it is
rounded. Rounding never crosses a value of the format: what is at least such a value still is when
it is rounded, and what is at most such a value is so too. Hence a difference that reaches a bound
reaches it after rounding. The opposite need not hold, since a difference just below a bound may be
rounded up to it; but it does hold where the difference is a value of the format and so is not
rounded at all.
-/

namespace Pubsub

namespace Binary64

/-! ## Rounding to a value of the format -/

theorem le_divideToEven (num den : Nat) : num / den ≤ divideToEven num den := by
  unfold divideToEven
  dsimp only
  split
  · omega
  · split <;> omega

/-- From `2⁵³` on the significand uses all its places. -/
theorem le_div_scale {n : Nat} (h : scale n ≠ 0) : 2 ^ 52 ≤ n / 2 ^ scale n := by
  unfold scale at h ⊢
  split at h
  · exact absurd rfl h
  · rename_i hlt
    rw [if_neg hlt]
    have hn : n ≠ 0 := by
      rintro rfl
      exact hlt (by decide)
    rw [Nat.le_div_iff_mul_le (Nat.two_pow_pos _), ← Nat.pow_add]
    have hlog : 52 + (n.log2 - 52) = n.log2 := by omega
    rw [hlog]
    exact Nat.log2_self_le hn

/-- A value of the format on a finer grid than the one that `n` is rounded to is small. -/
theorem mul_two_pow_lt {p e n : Nat} (hp : p < Nat.pow 2 53) (he : e < scale n) :
    p * 2 ^ e < n / 2 ^ scale n * 2 ^ scale n := by
  have hfull := le_div_scale (Nat.ne_of_gt (Nat.lt_of_le_of_lt (Nat.zero_le e) he))
  have hpow : 2 ^ (e + 1) ≤ 2 ^ scale n := Nat.pow_le_pow_right (by decide) he
  calc p * 2 ^ e < 2 ^ 53 * 2 ^ e := Nat.mul_lt_mul_of_pos_right hp (Nat.two_pow_pos e)
    _ = 2 ^ 52 * 2 ^ (e + 1) := by
      rw [← Nat.pow_add, ← Nat.pow_add, Nat.add_left_comm, Nat.add_comm e]
    _ ≤ 2 ^ 52 * 2 ^ scale n := Nat.mul_le_mul_left _ hpow
    _ ≤ n / 2 ^ scale n * 2 ^ scale n := Nat.mul_le_mul_right _ hfull

theorem roundQuotient_one (n : Nat) :
    roundQuotient n 1 = divideToEven n (2 ^ scale n) * 2 ^ scale n := by
  unfold roundQuotient
  dsimp only
  rw [Nat.div_one, Nat.one_mul]
  rfl

/-- **Rounding does not fall below a value of the format.** -/
theorem le_roundQuotient {m n : Nat} (hm : Representable m) (h : m ≤ n) :
    m ≤ roundQuotient n 1 := by
  obtain ⟨p, e, hp, rfl⟩ := hm
  change p * 2 ^ e ≤ n at h
  show p * 2 ^ e ≤ roundQuotient n 1
  rw [roundQuotient_one]
  have hfloor := Nat.mul_le_mul_right (2 ^ scale n) (le_divideToEven n (2 ^ scale n))
  refine Nat.le_trans ?_ hfloor
  rcases Nat.lt_or_ge e (scale n) with he | he
  · exact Nat.le_of_lt (mul_two_pow_lt hp he)
  · -- The value is a multiple of the unit that `n` is rounded to.
    have hmul : p * 2 ^ e = p * 2 ^ (e - scale n) * 2 ^ scale n := by
      rw [Nat.mul_assoc, ← Nat.pow_add, Nat.sub_add_cancel he]
    rw [hmul] at h ⊢
    exact Nat.mul_le_mul_right _ ((Nat.le_div_iff_mul_le (Nat.two_pow_pos _)).2 h)

/-- Rounding to an integer does not rise above one. -/
theorem divideToEven_le_of_le {num den k : Nat} (hden : 0 < den) (h : num ≤ k * den) :
    divideToEven num den ≤ k := by
  have hdivide := Nat.div_add_mod num den
  rw [Nat.mul_comm] at hdivide
  rcases Nat.eq_zero_or_pos (num % den) with hzero | hpos
  · have hexact : divideToEven num den = num / den := by
      unfold divideToEven
      dsimp only
      rw [hzero, if_pos hden]
    rw [hexact]
    exact Nat.div_le_of_le_mul (by rw [Nat.mul_comm]; exact h)
  · refine Nat.le_trans (divideToEven_le _ _) (Nat.succ_le_of_lt ?_)
    refine Nat.lt_of_mul_lt_mul_right (a := den) ?_
    omega

/-- **Rounding does not rise above a value of the format.** -/
theorem roundQuotient_le_of_le_mul {m num den : Nat} (hm : Representable m) (hden : 0 < den)
    (h : num ≤ m * den) : roundQuotient num den ≤ m := by
  obtain ⟨p, e, hp, rfl⟩ := hm
  change num ≤ p * 2 ^ e * den at h
  show divideToEven num (den * 2 ^ scale (num / den)) * 2 ^ scale (num / den) ≤ p * 2 ^ e
  have hquotient : num / den ≤ p * 2 ^ e :=
    Nat.div_le_of_le_mul (by rw [Nat.mul_comm]; exact h)
  rcases Nat.lt_or_ge e (scale (num / den)) with he | he
  · have hlt := mul_two_pow_lt hp he
    have hfloor := Nat.div_mul_le_self (num / den) (2 ^ scale (num / den))
    omega
  · -- The value is a multiple of the unit that the quotient is rounded to.
    have hmul : p * 2 ^ e = p * 2 ^ (e - scale (num / den)) * 2 ^ scale (num / den) := by
      rw [Nat.mul_assoc, ← Nat.pow_add, Nat.sub_add_cancel he]
    rw [hmul] at h ⊢
    refine Nat.mul_le_mul_right _ (divideToEven_le_of_le ?_ ?_)
    · exact Nat.mul_pos hden (Nat.two_pow_pos _)
    · rw [Nat.mul_comm den, ← Nat.mul_assoc]
      exact h

theorem roundQuotient_le {m n : Nat} (hm : Representable m) (h : n ≤ m) :
    roundQuotient n 1 ≤ m :=
  roundQuotient_le_of_le_mul hm Nat.one_pos (by rw [Nat.mul_one]; exact h)

/-- A value of the format is not moved by rounding. -/
theorem roundQuotient_of_representable {n : Nat} (h : Representable n) : roundQuotient n 1 = n :=
  Nat.le_antisymm (roundQuotient_le h (Nat.le_refl n)) (le_roundQuotient h (Nat.le_refl n))

/-! ## Differences -/

/-- Finite values are compared by their units. -/
theorem le_eq_decide {x y : Binary64} {m n : Int} (hx : x.units? = some m)
    (hy : y.units? = some n) : x.le y = decide (m ≤ n) := by
  cases x with
  | nan => cases hx
  | infinity negative => cases hx
  | finite a k hk =>
    cases y with
    | nan => cases hy
    | infinity negative => cases hy
    | finite b l hl =>
      cases hx
      cases hy
      unfold le lt eq
      rw [← Bool.decide_or, decide_eq_decide]
      exact Int.le_iff_lt_or_eq.symm

theorem units?_ofQuotient {negative : Bool} {num den : Nat} (h : roundQuotient num den < ceiling) :
    (ofQuotient negative num den).units?
      = some (if negative then -(roundQuotient num den : Int) else roundQuotient num den) := by
  unfold ofQuotient
  rw [dif_pos h]
  rfl

/-- A difference of finite values that is positive, rounded. -/
theorem sub_eq_ofQuotient {x y : Binary64} {m n : Int} (hx : x.units? = some m)
    (hy : y.units? = some n) (h : n < m) : x - y = ofQuotient false (m - n).natAbs 1 := by
  cases x with
  | nan => cases hx
  | infinity negative => cases hx
  | finite a k hk =>
    cases y with
    | nan => cases hy
    | infinity negative => cases hy
    | finite b l hl =>
      have hneg : (if (!b) = true then -(l : Int) else l) = -n := by
        cases hy
        cases b <;> simp
      have hx' : (if a = true then -(k : Int) else k) = m := Option.some.inj hx
      show add (.finite a k hk) (.finite (!b) l hl) = _
      unfold add
      dsimp only
      rw [hneg, hx']
      have htotal : m + -n = m - n := rfl
      rw [htotal, if_neg (by omega)]
      unfold ofUnits
      rw [decide_eq_false (by omega)]

/-- A difference of two finite values that are the same number is a zero. -/
theorem units?_sub_self {x y : Binary64} {m : Int} (hx : x.units? = some m)
    (hy : y.units? = some m) : (x - y).units? = some 0 := by
  cases x with
  | nan => cases hx
  | infinity negative => cases hx
  | finite a k hk =>
    cases y with
    | nan => cases hy
    | infinity negative => cases hy
    | finite b l hl =>
      have hneg : (if (!b) = true then -(l : Int) else l) = -m := by
        cases hy
        cases b <;> simp
      have hx' : (if a = true then -(k : Int) else k) = m := Option.some.inj hx
      show (add (.finite a k hk) (.finite (!b) l hl)).units? = _
      unfold add
      dsimp only
      rw [hneg, hx', if_pos (Int.add_right_neg m)]
      have hzero : roundQuotient 0 1 = 0 := by decide +kernel
      have hfits : roundQuotient 0 1 < ceiling := by decide +kernel
      rw [units?_ofQuotient hfits, hzero]
      cases (a && !b) <;> rfl

/-- **A difference that reaches a bound reaches it after rounding.** -/
theorem le_sub {x y bound : Binary64} {m n g : Int} (hx : x.units? = some m)
    (hy : y.units? = some n) (hb : bound.units? = some g) (hmn : n ≤ m) (h : n + g ≤ m) :
    bound.le (x - y) = true := by
  rcases Int.lt_or_eq_of_le hmn with hlt | rfl
  · rw [sub_eq_ofQuotient hx hy hlt]
    by_cases hceiling : roundQuotient (m - n).natAbs 1 < ceiling
    · rw [le_eq_decide hb (units?_ofQuotient hceiling), decide_eq_true_iff]
      show g ≤ (roundQuotient (m - n).natAbs 1 : Int)
      cases bound with
      | nan => cases hb
      | infinity negative => cases hb
      | finite negative k hk =>
        cases hb
        cases negative with
        | true =>
          show -(k : Int) ≤ _
          omega
        | false =>
          change n + (k : Int) ≤ m at h
          show (k : Int) ≤ _
          have hround := le_roundQuotient hk.1 (n := (m - n).natAbs) (by omega)
          omega
    · -- The difference is rounded to infinity, which reaches every bound.
      unfold ofQuotient
      rw [dif_neg hceiling]
      cases bound with
      | nan => cases hb
      | infinity negative => cases hb
      | finite negative k hk => rfl
  · rw [le_eq_decide hb (units?_sub_self hx hy), decide_eq_true_iff]
    omega

/-- **A difference that is a value of the format is compared as it is.** -/
theorem le_sub_iff {x y bound : Binary64} {m n g : Int} (hx : x.units? = some m)
    (hy : y.units? = some n) (hb : bound.units? = some g) (hmn : n ≤ m)
    (hfits : Fits (m - n).natAbs) : bound.le (x - y) = true ↔ n + g ≤ m := by
  refine ⟨fun h => ?_, le_sub hx hy hb hmn⟩
  rcases Int.lt_or_eq_of_le hmn with hlt | rfl
  · rw [sub_eq_ofQuotient hx hy hlt] at h
    have hround := roundQuotient_of_representable hfits.1
    have hunits := @units?_ofQuotient false (m - n).natAbs 1 (hround.symm ▸ hfits.2)
    rw [le_eq_decide hb hunits, decide_eq_true_iff, hround] at h
    change g ≤ ((m - n).natAbs : Int) at h
    omega
  · rw [le_eq_decide hb (units?_sub_self hx hy), decide_eq_true_iff] at h
    omega

end Binary64

end Pubsub
