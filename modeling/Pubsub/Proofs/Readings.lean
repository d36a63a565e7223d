import Pubsub.Proofs.Rounding
import Pubsub.Reactor

/-!
# Readings of a clock

Readings are doubles, so comparing them and adding seconds to them needs some care: a value may not
be a number at all, and a sum is rounded. What holds nevertheless is said here once. Values that are
numbers are ordered like their **places**, which are integers (`lt_iff`, `le_iff`). A reading from
which something is still to happen in time is finite (`isFinite_of_le_lt`). Adding seconds never
leads back, and if it leads nowhere then the sum is the reading itself, and not only equal to it as
a number (`le_add`, `add_eq_of_add_le`).

So the loop of a reactor can always say how long to poll, and its timers stay in the order of their
deadlines.
-/

namespace Pubsub

namespace Binary64

/-! ## Places -/

/-- The place where the format ends. -/
@[irreducible]
def edge : Int := ceiling

theorem lt_edge {m : Nat} (hm : Fits m) : (m : Int) < edge := by
  unfold edge
  exact Int.ofNat_lt.2 hm.2

/-- Where a number lies among the integers: its units, with the infinities at the two ends of the
format. -/
def place : Binary64 → Int
  | .nan => 0
  | .infinity negative => if negative then -edge else edge
  | .finite negative m _ => if negative then -m else m

theorem place_infinity (negative : Bool) :
    (infinity negative).place = if negative then -edge else edge := rfl

theorem place_finite (negative : Bool) (m : Nat) (hm : Fits m) :
    (finite negative m hm).place = if negative then -(m : Int) else m := rfl

theorem edge_pos : 0 < edge := by
  have hzero : Fits 0 := ⟨⟨0, 0, by decide, rfl⟩, by decide +kernel⟩
  exact lt_edge hzero

theorem place_le_edge (x : Binary64) : x.place ≤ edge := by
  have he := edge_pos
  cases x with
  | nan => exact Int.le_of_lt he
  | infinity negative =>
    rw [place_infinity]
    split <;> omega
  | finite negative m hm =>
    have hm' := lt_edge hm
    cases negative <;> simp [place_finite] <;> omega

/-- **Numbers are ordered like their places**, and nothing is less or more than what is none. -/
theorem lt_iff {x y : Binary64} : x.lt y = true ↔ x ≠ .nan ∧ y ≠ .nan ∧ x.place < y.place := by
  have he := edge_pos
  cases x with
  | nan => simp [lt]
  | infinity a =>
    cases y with
    | nan => cases a <;> simp [lt]
    | infinity b => cases a <;> cases b <;> simp [lt, place_infinity] <;> omega
    | finite b n hn =>
      have hn' := lt_edge hn
      cases a <;> cases b <;> simp [lt, place_infinity, place_finite] <;> omega
  | finite a m hm =>
    have hm' := lt_edge hm
    cases y with
    | nan => simp [lt]
    | infinity b => cases a <;> cases b <;> simp [lt, place_infinity, place_finite] <;> omega
    | finite b n hn => simp [lt, place_finite]

theorem eq_iff {x y : Binary64} : x.eq y = true ↔ x ≠ .nan ∧ y ≠ .nan ∧ x.place = y.place := by
  have he := edge_pos
  cases x with
  | nan => simp [eq]
  | infinity a =>
    cases y with
    | nan => simp [eq]
    | infinity b => cases a <;> cases b <;> simp [eq, place_infinity] <;> omega
    | finite b n hn =>
      have hn' := lt_edge hn
      cases a <;> cases b <;> simp [eq, place_infinity, place_finite] <;> omega
  | finite a m hm =>
    have hm' := lt_edge hm
    cases y with
    | nan => simp [eq]
    | infinity b => cases a <;> cases b <;> simp [eq, place_infinity, place_finite] <;> omega
    | finite b n hn => simp [eq, place_finite]

theorem le_iff {x y : Binary64} : x.le y = true ↔ x ≠ .nan ∧ y ≠ .nan ∧ x.place ≤ y.place := by
  unfold le
  rw [Bool.or_eq_true, lt_iff, eq_iff, ← and_or_left, ← and_or_left, Int.le_iff_lt_or_eq]

theorem le_refl {x : Binary64} (h : x ≠ .nan) : x.le x = true := le_iff.2 ⟨h, h, Int.le_refl _⟩

theorem le_trans {x y z : Binary64} (h : x.le y = true) (h' : y.le z = true) : x.le z = true := by
  obtain ⟨hx, -, hxy⟩ := le_iff.1 h
  obtain ⟨-, hz, hyz⟩ := le_iff.1 h'
  exact le_iff.2 ⟨hx, hz, Int.le_trans hxy hyz⟩

theorem lt_of_le_of_lt {x y z : Binary64} (h : x.le y = true) (h' : y.lt z = true) :
    x.lt z = true := by
  obtain ⟨hx, -, hxy⟩ := le_iff.1 h
  obtain ⟨-, hz, hyz⟩ := lt_iff.1 h'
  exact lt_iff.2 ⟨hx, hz, Int.lt_of_le_of_lt hxy hyz⟩

theorem not_le_of_lt {x y : Binary64} (h : x.lt y = true) : ¬ y.le x = true := by
  intro h'
  obtain ⟨-, -, hxy⟩ := lt_iff.1 h
  obtain ⟨-, -, hyx⟩ := le_iff.1 h'
  omega

/-- A number other than the two zeros is determined by its place. -/
theorem eq_of_place_eq {x y : Binary64} (hx : x ≠ .nan) (hy : y ≠ .nan) (hzero : x.place ≠ 0)
    (h : x.place = y.place) : x = y := by
  have he := edge_pos
  cases x with
  | nan => exact absurd rfl hx
  | infinity a =>
    cases y with
    | nan => exact absurd rfl hy
    | infinity b =>
      have hsame : a = b := by
        cases a <;> cases b <;> simp [place_infinity] at h ⊢ <;> omega
      rw [hsame]
    | finite b n hn =>
      have hn' := lt_edge hn
      cases a <;> cases b <;> simp [place_infinity, place_finite] at h <;> omega
  | finite a m hm =>
    have hm' := lt_edge hm
    cases y with
    | nan => exact absurd rfl hy
    | infinity b => cases a <;> cases b <;> simp [place_infinity, place_finite] at h <;> omega
    | finite b n hn =>
      have hsame : a = b ∧ m = n := by
        cases a <;> cases b <;> simp [place_finite] at h hzero ⊢ <;> omega
      obtain ⟨rfl, rfl⟩ := hsame
      rfl

/-! ## Numbers that are written out -/

/-- One, and the first magnitude that is too large, are powers of two. -/
theorem exists_exponents :
    ∃ s t, unitsPerOne = Nat.pow 2 s ∧ ceiling = Nat.pow 2 t ∧ 53 + s ≤ t :=
  ⟨1074, 2098, by decide +kernel, by decide +kernel, by decide⟩

theorem unitsPerOne_pos : 0 < unitsPerOne := by
  obtain ⟨s, -, hs, -, -⟩ := exists_exponents
  rw [hs]
  exact Nat.two_pow_pos s

theorem fits_units {n : Nat} (hn : n < 2 ^ 53) : Fits (n * unitsPerOne) := by
  obtain ⟨s, t, hs, ht, hst⟩ := exists_exponents
  refine ⟨⟨n, s, hn, by rw [hs]⟩, ?_⟩
  rw [hs, ht]
  calc n * 2 ^ s < 2 ^ 53 * 2 ^ s := Nat.mul_lt_mul_of_pos_right hn (Nat.two_pow_pos s)
    _ = 2 ^ (53 + s) := (Nat.pow_add 2 53 s).symm
    _ ≤ 2 ^ t := Nat.pow_le_pow_right (by decide) hst

/-- What the format has is not rounded. -/
theorem ofUnits_of_fits {m : Nat} (hm : Fits m) : ofUnits m = .finite false m hm := by
  have hround := roundQuotient_of_representable hm.1
  have hsign : decide ((m : Int) < 0) = false :=
    decide_eq_false (Int.not_lt.2 (Int.natCast_nonneg m))
  rw [ofUnits, hsign, Int.natAbs_natCast, ofQuotient, dif_pos (by rw [hround]; exact hm.2)]
  simp only [hround]

/-- **Small whole numbers are what they say.** -/
theorem ofNat_eq {n : Nat} (hn : n < 2 ^ 53) :
    (OfNat.ofNat n : Binary64) = .finite false (n * unitsPerOne) (fits_units hn) := by
  have hunfold : (OfNat.ofNat n : Binary64) = ofInt n := rfl
  rw [hunfold, ofInt, ← Int.natCast_mul]
  exact ofUnits_of_fits _

theorem isFinite_ofNat {n : Nat} (hn : n < 2 ^ 53) :
    (OfNat.ofNat n : Binary64).isFinite = true := by
  rw [ofNat_eq hn]
  rfl

theorem place_ofNat {n : Nat} (hn : n < 2 ^ 53) :
    (OfNat.ofNat n : Binary64).place = (n * unitsPerOne : Nat) := by
  rw [ofNat_eq hn, place_finite, if_neg Bool.false_ne_true]

theorem place_zero : (0 : Binary64).place = 0 := by
  rw [place_ofNat (by decide), Nat.zero_mul]
  rfl

theorem place_one : (1 : Binary64).place = unitsPerOne := by
  rw [place_ofNat (by decide), Nat.one_mul]

/-! ## Adding seconds -/

theorem finite_add_infinity (a : Bool) (m : Nat) (hm : Fits m) (b : Bool) :
    finite a m hm + infinity b = infinity b := rfl

theorem finite_add_finite (a : Bool) (m : Nat) (hm : Fits m) (b : Bool) (n : Nat) (hn : Fits n) :
    finite a m hm + finite b n hn
      = if (finite a m hm).place + (finite b n hn).place = 0 then ofQuotient (a && b) 0 1
        else ofUnits ((finite a m hm).place + (finite b n hn).place) := rfl

theorem ofQuotient_ne_nan (negative : Bool) (num den : Nat) :
    ofQuotient negative num den ≠ .nan := by
  unfold ofQuotient
  split <;> simp

theorem place_ofQuotient_zero (negative : Bool) : (ofQuotient negative 0 1).place = 0 := by
  cases negative <;> decide +kernel

/-- Rounding does not lead below a finite value. -/
theorem place_le_ofUnits {a : Bool} {m : Nat} {hm : Fits m} {n : Int}
    (h : (finite a m hm).place ≤ n) : (finite a m hm).place ≤ (ofUnits n).place := by
  unfold ofUnits ofQuotient
  split
  · rename_i hround
    show (finite a m hm).place
      ≤ if decide (n < 0) then -(roundQuotient n.natAbs 1 : Int) else roundQuotient n.natAbs 1
    rw [place_finite] at h ⊢
    by_cases hn : n < 0
    · rw [if_pos (decide_eq_true hn)]
      cases a with
      | false => simp at h; omega
      | true =>
        simp only [if_true] at h ⊢
        have hle := roundQuotient_le hm.1 (n := n.natAbs) (by omega)
        omega
    · rw [decide_eq_false hn]
      cases a with
      | false =>
        simp only [Bool.false_eq_true, if_false] at h ⊢
        have hle := le_roundQuotient hm.1 (n := n.natAbs) (by omega)
        omega
      | true => simp
  · rename_i hround
    by_cases hn : n < 0
    · -- What is rounded upwards from below zero does not leave the format.
      refine absurd ?_ hround
      cases a with
      | false => simp [place_finite] at h; omega
      | true =>
        simp only [place_finite, if_true] at h
        exact Nat.lt_of_le_of_lt (roundQuotient_le hm.1 (by omega)) hm.2
    · rw [decide_eq_false hn]
      exact place_le_edge _

/-- The seconds that a clock goes on by. -/
theorem exists_of_pos {d : Binary64} (h : Binary64.lt 0 d = true) :
    d = .infinity false ∨ ∃ n hn, d = .finite false n hn ∧ 0 < n := by
  obtain ⟨-, hd, hlt⟩ := lt_iff.1 h
  rw [place_zero] at hlt
  have he := edge_pos
  cases d with
  | nan => exact absurd rfl hd
  | infinity negative =>
    cases negative with
    | true =>
      simp only [place_infinity, if_true] at hlt
      omega
    | false => exact .inl rfl
  | finite negative n hn =>
    cases negative with
    | true =>
      simp only [place_finite, if_true] at hlt
      omega
    | false => exact .inr ⟨n, hn, rfl, by simpa [place_finite] using hlt⟩

/-- **Adding seconds does not lead back.** -/
theorem le_add {x d : Binary64} (hx : x.isFinite = true) (hd : Binary64.lt 0 d = true) :
    x.le (x + d) = true := by
  cases x with
  | nan => cases hx
  | infinity negative => cases hx
  | finite a m hm =>
    obtain rfl | ⟨n, hn, rfl, hpos⟩ := exists_of_pos hd
    · rw [finite_add_infinity]
      exact le_iff.2 ⟨by simp, by simp, place_le_edge _⟩
    · rw [finite_add_finite, le_iff]
      have hn' : (finite false n hn).place = n := rfl
      split
      · rename_i hsum
        refine ⟨by simp, ofQuotient_ne_nan _ _ _, ?_⟩
        rw [place_ofQuotient_zero]
        omega
      · exact ⟨by simp, ofQuotient_ne_nan _ _ _, place_le_ofUnits (by omega)⟩

/-- **Adding seconds that lead nowhere gives the same reading.** -/
theorem add_eq_of_add_le {x d : Binary64} (hx : x.isFinite = true) (hd : Binary64.lt 0 d = true)
    (h : (x + d).le x = true) : x + d = x := by
  obtain ⟨hsum, hnan, hle⟩ := le_iff.1 h
  obtain ⟨-, -, hge⟩ := le_iff.1 (le_add hx hd)
  have hsame := Int.le_antisymm hle hge
  refine eq_of_place_eq hsum hnan ?_ hsame
  -- If the reading were a zero, the sum would be what is added.
  intro hzero
  rw [hzero] at hsame
  cases x with
  | nan => cases hx
  | infinity negative => cases hx
  | finite a m hm =>
    obtain rfl | ⟨n, hn, rfl, hpos⟩ := exists_of_pos hd
    · have he := edge_pos
      rw [finite_add_infinity, place_infinity, if_neg (by simp)] at hzero
      omega
    · have hn' : (finite false n hn).place = n := rfl
      rw [finite_add_finite, ← hsame, hn', Int.zero_add, if_neg (by omega)] at hzero
      have hround := place_le_ofUnits (Int.le_of_eq hn')
      omega

/-- **A reading from which something happens in time is finite**, and so is the time at which it
happens. -/
theorem isFinite_of_le_lt {x s t : Binary64} (h : x.le (x + s) = true)
    (h' : (x + s).lt (x + t) = true) : x.isFinite = true ∧ (x + s).isFinite = true := by
  obtain ⟨hs, ht, hlt⟩ := lt_iff.1 h'
  cases x with
  | nan => cases h
  | infinity a =>
    -- Whatever is added to an infinity, the sum is the infinity or no number.
    have hsum : ∀ d : Binary64, infinity a + d = infinity a ∨ infinity a + d = nan := by
      intro d
      cases d with
      | nan => exact .inr rfl
      | infinity b =>
        show (if a = b then infinity a else nan) = _ ∨ (if a = b then infinity a else nan) = _
        split <;> simp
      | finite b n hn => exact .inl rfl
    rw [(hsum s).resolve_right hs, (hsum t).resolve_right ht] at hlt
    omega
  | finite a m hm =>
    refine ⟨rfl, ?_⟩
    obtain ⟨-, -, hle⟩ := le_iff.1 h
    have hm' := lt_edge hm
    have hx : -edge < (finite a m hm).place := by
      rw [place_finite]
      cases a <;> simp <;> omega
    have hz := place_le_edge (finite a m hm + t)
    -- The sum is neither of the infinities.
    cases hy : finite a m hm + s with
    | nan => exact absurd hy hs
    | infinity b =>
      rw [hy, place_infinity] at hle hlt
      cases b <;> simp at hle hlt <;> omega
    | finite b n hn => rfl

/-! ## The time of a poll -/

theorem ne_nan_of_isFinite {x : Binary64} (h : x.isFinite = true) : x ≠ .nan := by
  rintro rfl
  cases h

/-- Seconds may be added to a reading, infinitely many as well. -/
theorem add_ne_nan {x y : Binary64} (hx : x.isFinite = true) (hy : y ≠ .nan) : x + y ≠ .nan := by
  cases x with
  | nan => cases hx
  | infinity negative => cases hx
  | finite a m hm =>
    cases y with
    | nan => exact absurd rfl hy
    | infinity negative =>
      rw [finite_add_infinity]
      simp
    | finite b n hn =>
      rw [finite_add_finite]
      split <;> exact ofQuotient_ne_nan _ _ _

theorem nan_sub (x : Binary64) : nan - x = nan := rfl

theorem nan_mul (x : Binary64) : nan * x = nan := rfl

/-- What is no number is kept within no bounds. -/
theorem clamp_nan (x y : Binary64) : min (max nan x) y = nan := by
  have hlt : lt y nan = false := by cases y <;> rfl
  show min nan y = nan
  unfold min
  rw [hlt, if_neg (by decide)]

theorem sub_ne_nan {x y : Binary64} (hx : x ≠ .nan) (hy : y.isFinite = true) : x - y ≠ .nan := by
  cases y with
  | nan => cases hy
  | infinity negative => cases hy
  | finite b n hn =>
    cases x with
    | nan => exact absurd rfl hx
    | infinity a =>
      show infinity a ≠ .nan
      simp
    | finite a m hm =>
      show finite a m hm + finite (!b) n hn ≠ .nan
      rw [finite_add_finite]
      split <;> exact ofQuotient_ne_nan _ _ _

/-- What is kept between zero and one is a number there. -/
theorem place_clamp {x : Binary64} (hx : x ≠ .nan) :
    min (max x 0) 1 ≠ .nan ∧ 0 ≤ (min (max x 0) 1).place
      ∧ (min (max x 0) 1).place ≤ unitsPerOne := by
  have hzero : (0 : Binary64) ≠ .nan := ne_nan_of_isFinite (isFinite_ofNat (by decide))
  have hone : (1 : Binary64) ≠ .nan := ne_nan_of_isFinite (isFinite_ofNat (by decide))
  have hmax : max x 0 ≠ .nan ∧ 0 ≤ (max x 0).place := by
    unfold max
    split
    · exact ⟨hzero, Int.le_of_eq place_zero.symm⟩
    · rename_i hlt
      rw [lt_iff, place_zero] at hlt
      exact ⟨hx, by simpa [hx, hzero] using hlt⟩
  unfold min
  split
  · exact ⟨hone, by rw [place_one]; exact Int.natCast_nonneg _, Int.le_of_eq place_one⟩
  · rename_i hlt
    rw [lt_iff, place_one] at hlt
    exact ⟨hmax.1, hmax.2, Int.not_lt.1 fun hless => hlt ⟨hone, hmax.1, hless⟩⟩

theorem finite_mul_finite (a : Bool) (m : Nat) (hm : Fits m) (b : Bool) (n : Nat) (hn : Fits n) :
    finite a m hm * finite b n hn = ofQuotient (a != b) (m * n) unitsPerOne := by
  show mul (finite a m hm) (finite b n hn) = _
  simp only [mul]

/-- A part of one has at most as many units. -/
theorem exists_finite_of_part {x : Binary64} (hx : x ≠ .nan) (hlo : 0 ≤ x.place)
    (hhi : x.place ≤ unitsPerOne) :
    ∃ a m hm, x = .finite a m hm ∧ m ≤ unitsPerOne ∧ (a = true → m = 0) := by
  have hone := lt_edge (fits_units (n := 1) (by decide))
  rw [Nat.one_mul] at hone
  generalize unitsPerOne = u at *
  cases x with
  | nan => exact absurd rfl hx
  | infinity a =>
    rw [place_infinity] at hlo hhi
    cases a <;> simp at hlo hhi <;> omega
  | finite a m hm =>
    rw [place_finite] at hlo hhi
    refine ⟨a, m, hm, rfl, ?_⟩
    cases a <;> simp at hlo hhi ⊢ <;> omega

/-- A part of one, multiplied by a whole number, is at most that number. -/
theorem exists_truncate?_mul {x : Binary64} {k : Nat} (hx : x ≠ .nan) (hlo : 0 ≤ x.place)
    (hhi : x.place ≤ unitsPerOne) (hk : k < 2 ^ 53) :
    ∃ i, (x * OfNat.ofNat k).truncate? = some i ∧ 0 ≤ i ∧ i ≤ k := by
  obtain ⟨a, m, hm, rfl, hle, hsign⟩ := exists_finite_of_part hx hlo hhi
  have hfits := fits_units hk
  have hround : roundQuotient (m * (k * unitsPerOne)) unitsPerOne ≤ k * unitsPerOne := by
    refine roundQuotient_le_of_le_mul hfits.1 unitsPerOne_pos ?_
    rw [Nat.mul_comm m]
    exact Nat.mul_le_mul_left _ hle
  rw [ofNat_eq hk, finite_mul_finite, truncate?,
    units?_ofQuotient (Nat.lt_of_le_of_lt hround hfits.2), Option.map_some]
  refine ⟨_, rfl, ?_⟩
  have hpos := unitsPerOne_pos
  generalize unitsPerOne = u at *
  cases a with
  | false =>
    have hdivide : roundQuotient (m * (k * u)) u / u ≤ k := by
      refine Nat.div_le_of_le_mul ?_
      rw [Nat.mul_comm u]
      exact hround
    simp only [Bool.bne_false, Bool.false_eq_true, if_false]
    rw [← Int.ofNat_tdiv]
    exact ⟨Int.natCast_nonneg _, Int.ofNat_le.2 hdivide⟩
  | true =>
    have hzero : roundQuotient (m * (k * u)) u ≤ 0 :=
      roundQuotient_le_of_le_mul ⟨0, 0, by decide, rfl⟩ hpos (by simp [hsign rfl])
    simp [Nat.le_zero.1 hzero]

end Binary64

namespace Reactor

variable {Job : Type}

/-- The seconds that a poll may take. -/
def pollSeconds (now : Binary64) : List (Timer Job) → Binary64
  | [] => 1
  | timer :: _ => Binary64.min (Binary64.max (timer.deadline - now) 0) 1

variable {r : Reactor Job} {now : Binary64}

theorem pollTime_eq_ok {n : Int} (h : (pollSeconds now r.timers * 1000).truncate? = some n) :
    r.pollTime now = .ok n := by
  revert h
  unfold pollSeconds pollTime longestPoll
  cases r.timers <;> intro h <;> dsimp only at h ⊢ <;> split
  · rename_i hnan
    rw [hnan] at h
    cases h
  · rw [h]
    rfl
  · rename_i hnan
    rw [hnan] at h
    cases h
  · rw [h]
    rfl

theorem pollTime_eq_error (h : pollSeconds now r.timers = .nan) :
    r.pollTime now = .error .integerOfNan := by
  revert h
  unfold pollSeconds pollTime longestPoll
  cases r.timers <;> intro h <;> dsimp only at h ⊢ <;> rw [h, Binary64.nan_mul]

/-- Parts of a second are at most a thousand milliseconds. -/
theorem exists_pollTime_of_part (hx : pollSeconds now r.timers ≠ .nan)
    (hlo : 0 ≤ (pollSeconds now r.timers).place)
    (hhi : (pollSeconds now r.timers).place ≤ Binary64.unitsPerOne) :
    ∃ n, r.pollTime now = .ok n ∧ 0 ≤ n ∧ n ≤ 1000 := by
  obtain ⟨n, hn, hbounds⟩ := Binary64.exists_truncate?_mul (k := 1000) hx hlo hhi (by decide)
  exact ⟨n, pollTime_eq_ok hn, hbounds⟩

/-- **How long a reactor polls** while the clock can be read: from no time to a second, unless its
first timer has no deadline; then it cannot say. -/
theorem pollTime_spec (r : Reactor Job) (hnow : now.isFinite = true) :
    ((∀ timer ∈ r.timers.head?, timer.deadline ≠ .nan)
        ∧ ∃ n, r.pollTime now = .ok n ∧ 0 ≤ n ∧ n ≤ 1000)
      ∨ (∃ timer ∈ r.timers.head?, timer.deadline = .nan)
        ∧ r.pollTime now = .error .integerOfNan := by
  cases ht : r.timers with
  | nil =>
    have hone : pollSeconds now r.timers = 1 := by rw [ht, pollSeconds]
    refine .inl ⟨by rintro timer ⟨⟩, exists_pollTime_of_part ?_ ?_ ?_⟩
    · rw [hone]
      exact Binary64.ne_nan_of_isFinite (Binary64.isFinite_ofNat (by decide))
    · rw [hone, Binary64.place_one]
      exact Int.natCast_nonneg _
    · rw [hone]
      exact Int.le_of_eq Binary64.place_one
  | cons timer rest =>
    have hclamp : pollSeconds now r.timers
        = Binary64.min (Binary64.max (timer.deadline - now) 0) 1 := by rw [ht, pollSeconds]
    by_cases hd : timer.deadline = .nan
    · refine .inr ⟨⟨timer, rfl, hd⟩, pollTime_eq_error ?_⟩
      rw [hclamp, hd, Binary64.nan_sub, Binary64.clamp_nan]
    · have hpart := Binary64.place_clamp (Binary64.sub_ne_nan hd hnow)
      rw [← hclamp] at hpart
      obtain ⟨hx, hlo, hhi⟩ := hpart
      refine .inl ⟨?_, exists_pollTime_of_part hx hlo hhi⟩
      rintro first ⟨⟩
      exact hd

/-- **A reactor can say how long to poll** while the clock can be read and its first timer has a
deadline. -/
theorem exists_pollTime (hnow : now.isFinite = true)
    (h : ∀ timer ∈ r.timers, timer.deadline ≠ .nan) : ∃ n, r.pollTime now = .ok n := by
  rcases r.pollTime_spec hnow with ⟨-, n, hn, -⟩ | ⟨⟨timer, ht, hnan⟩, -⟩
  · exact ⟨n, hn⟩
  · exact absurd hnan (h timer (List.mem_of_mem_head? ht))

end Reactor

end Pubsub
