import CurrencyDesk.Proofs.Binary64.Rounding
/-!
# Correct rounding

What the format asks of reading and multiplying, said without the way it is computed:
the answer is a finite number such that none is nearer, with the even mantissa where
another one is as near, and infinity from half a unit past the largest number on. The
sign is given, so that zero has it too.

There is one such answer for every magnitude and sign (`RoundsTo.unique`), as between two
numbers with even mantissas there is always a third.

Key definitions: `Finite.Rounds`, `RoundsTo`.
Key theorems: `roundsTo_nearest`, `RoundsTo.unique`, `Finite.roundsTo_mul`,
`Finite.Rounds.abs_sub_le`, `Finite.Rounds.toRat_mono`.
-/

namespace CurrencyDesk.Binary64

/-- A finite number is what a magnitude rounds to under a sign. -/
structure Finite.Rounds (x : Finite) (negative : Bool) (r : ℚ) : Prop where
  sign : x.negative = negative
  inRange : r < overflow
  /-- No finite number is nearer. -/
  nearest : ∀ y : Finite, |x.magnitude - r| ≤ |y.magnitude - r|
  /-- Where another one is as near, the mantissa is even. -/
  tie : ∀ y : Finite, y.magnitude ≠ x.magnitude → |y.magnitude - r| = |x.magnitude - r| →
    Even x.mantissa

/-- A number is what a magnitude rounds to under a sign. -/
def RoundsTo (negative : Bool) (r : ℚ) : Binary64 → Prop
  | .finite x => x.Rounds negative r
  | .infinity s => s = negative ∧ overflow ≤ r
  | .nan => False

/-! ### `nearest` rounds correctly -/

/-- At most half the least magnitude there is rounds to zero. -/
theorem rounds_zero (negative : Bool) {r : ℚ} (hr : 0 ≤ r) (h : 2 * r ≤ 2 ^ (-1074 : ℤ)) :
    (Finite.zero negative).Rounds negative r := by
  refine ⟨rfl, ?_, fun y => ?_, fun _ _ _ => (by decide : Even 0)⟩
  · calc r ≤ 2 * r := by linarith
      _ ≤ 2 ^ (-1074 : ℤ) := h
      _ < 2 ^ (1023 : ℤ) := zpow_lt_zpow_right₀ one_lt_two (by omega)
      _ ≤ overflow := two_zpow_le_overflow
  · rw [Finite.magnitude_zero, zero_sub, abs_neg, abs_of_nonneg hr]
    by_cases hm : y.mantissa = 0
    · rw [Finite.magnitude_eq, hm, Nat.cast_zero, zero_mul, zero_sub, abs_neg]
      exact le_abs_self r
    · have hle : (2 : ℚ) ^ (-1074 : ℤ) ≤ y.magnitude := by
        have hone : (1 : ℚ) ≤ y.mantissa := by exact_mod_cast Nat.pos_of_ne_zero hm
        rw [Finite.magnitude_eq]
        calc (2 : ℚ) ^ (-1074 : ℤ) ≤ 2 ^ y.exponent :=
              zpow_le_zpow_right₀ one_le_two y.canonical.2.1
          _ ≤ y.mantissa * 2 ^ y.exponent := le_mul_of_one_le_left (two_zpow_pos _).le hone
      exact le_trans (by linarith) (le_abs_self _)

section Fractions

variable {n d : Nat}

/-- A finite number that is as near to a fraction as its units are is a multiple of the unit. -/
theorem eq_mul_of_tie (hn : 0 < n) (hd : 0 < d) {y : Finite}
    (h : |y.magnitude - n / d| = |units n d * 2 ^ unitExponent n d - (n / d : ℚ)|) :
    ∃ k : Nat, y.magnitude = k * 2 ^ unitExponent n d := by
  rcases y.eq_mul_or_le (unitExponent n d) with hk | ⟨he, hy⟩
  · exact hk
  · -- the power of two between the two is a multiple, and as near only if it is `y`
    refine ⟨2 ^ 52, ?_⟩
    have hpow : (2 : ℚ) ^ 52 * 2 ^ unitExponent n d ≤ n / d :=
      (le_div_iff₀ (two_zpow_pos _)).mp (le_div_unit hn hd he.ne')
    have hrival := abs_units_sub_le (abs_units_sub_le_half n hd) (2 ^ 52)
    rw [← h, Nat.cast_pow, Nat.cast_ofNat, abs_of_nonpos (sub_nonpos.mpr hpow),
      abs_of_nonpos (sub_nonpos.mpr (hy.trans hpow))] at hrival
    rw [Nat.cast_pow, Nat.cast_ofNat]
    linarith

theorem roundsTo_nearest (negative : Bool) (n : Nat) (hd : 0 < d) :
    RoundsTo negative (n / d) (nearest negative n d) := by
  rcases Nat.eq_zero_or_pos n with rfl | hn
  · rw [nearest, if_pos rfl, Nat.cast_zero, zero_div]
    refine rounds_zero negative le_rfl ?_
    rw [mul_zero]
    exact (two_zpow_pos _).le
  · rcases lt_or_ge (n / d : ℚ) overflow with hsmall | hlarge
    · obtain ⟨x, hx, hsign, hmag, heven⟩ := nearest_finite negative hn hd hsmall
      rw [hx]
      refine ⟨hsign, hsmall, fun y => ?_, fun y hne heq => heven ?_⟩
      · rw [hmag]
        exact units_nearest hn hd y
      · rw [hmag] at heq hne
        obtain ⟨k, hk⟩ := eq_mul_of_tie hn hd heq
        rw [hk] at heq hne
        have hku : k ≠ units n d := fun h => hne (by rw [h])
        rw [mul_zpow_sub_abs, mul_zpow_sub_abs] at heq
        exact even_units n hd (half_of_tie (abs_units_sub_le_half n hd) hku
          (mul_right_cancel₀ (two_zpow_pos _).ne' heq))
    · rw [nearest_infinite negative hn hd hlarge]
      exact ⟨rfl, hlarge⟩

end Fractions

/-! ### There is one correct answer -/

namespace Finite

theorem eq_of_magnitude_eq {x y : Finite} (hs : x.negative = y.negative)
    (h : x.magnitude = y.magnitude) : x = y := by
  have hx := nearest_of_magnitude x.negative x.denominator_pos (x := x) rfl
  have hy := nearest_of_magnitude x.negative x.denominator_pos (x := y) h
  rw [hx] at hy
  have heq : x = { y with negative := x.negative } := by injection hy
  rw [heq, hs]

/-- Between two numbers with even mantissas lies a third. -/
theorem exists_between {x y : Finite} (hx : Even x.mantissa) (hy : Even y.mantissa)
    (hlt : x.magnitude < y.magnitude) :
    ∃ z : Finite, x.magnitude < z.magnitude ∧ z.magnitude < y.magnitude := by
  obtain ⟨hm, hmin, hmax, hlead⟩ := x.canonical
  have hpos := two_zpow_pos x.exponent
  -- the number one unit above `x`
  have hc : Canonical (x.mantissa + 1) x.exponent := by
    obtain ⟨k, hk⟩ := hx
    exact ⟨by omega, hmin, hmax, by omega⟩
  let z : Finite := ⟨y.negative, x.mantissa + 1, x.exponent, hc⟩
  have hz : z.magnitude = x.magnitude + 2 ^ x.exponent := by
    rw [magnitude_eq, magnitude_eq]
    push_cast [z]
    ring
  refine ⟨z, by linarith, ?_⟩
  rcases y.eq_mul_or_le x.exponent with ⟨k, hk⟩ | ⟨he, hle⟩
  · have hkm : x.mantissa + 1 ≤ k := by
      rw [hk, magnitude_eq, mul_lt_mul_iff_of_pos_right hpos] at hlt
      exact_mod_cast hlt
    have hle : z.magnitude ≤ y.magnitude := by
      have hkm' : (x.mantissa + 1 : ℚ) ≤ k := by exact_mod_cast hkm
      rw [hz, hk, magnitude_eq, ← add_one_mul]
      exact mul_le_mul_of_nonneg_right hkm' hpos.le
    refine lt_of_le_of_ne hle fun heq => ?_
    have hyz : z = y := eq_of_magnitude_eq rfl heq
    rw [← hyz] at hy
    exact (Nat.even_add_one.mp hy) hx
  · -- `y` cannot be below the binade of `x`
    have hm' : (2 : ℚ) ^ 52 ≤ x.mantissa := by
      exact_mod_cast hlead.resolve_left (by omega)
    have hge : (2 : ℚ) ^ 52 * 2 ^ x.exponent ≤ x.magnitude := by
      rw [magnitude_eq]
      exact mul_le_mul_of_nonneg_right hm' hpos.le
    linarith

theorem Rounds.magnitude_le {x y : Finite} {s t : Bool} {r : ℚ} (hx : x.Rounds s r)
    (hy : y.Rounds t r) : y.magnitude ≤ x.magnitude := by
  by_contra hlt
  rw [not_le] at hlt
  have heq : |y.magnitude - r| = |x.magnitude - r| :=
    le_antisymm (hy.nearest x) (hx.nearest y)
  obtain ⟨z, hz, hz'⟩ :=
    exists_between (hx.tie y hlt.ne' heq) (hy.tie x hlt.ne heq.symm) hlt
  -- `r` lies half-way between the two, so what is between them is nearer
  have hmid : y.magnitude - r = r - x.magnitude := by
    rcases abs_eq_abs.mp heq with h | h
    · linarith
    · linarith
  have hnearer : |z.magnitude - r| < y.magnitude - r := by
    rw [abs_lt]
    constructor <;> linarith
  exact absurd (hy.nearest z) (not_le.mpr (hnearer.trans_le (le_abs_self _)))

theorem Rounds.unique {x y : Finite} {negative : Bool} {r : ℚ} (hx : x.Rounds negative r)
    (hy : y.Rounds negative r) : x = y :=
  eq_of_magnitude_eq (hx.sign.trans hy.sign.symm)
    (le_antisymm (hy.magnitude_le hx) (hx.magnitude_le hy))

end Finite

/-- **A magnitude under a sign rounds to one number.** -/
theorem RoundsTo.unique {negative : Bool} {r : ℚ} {b b' : Binary64} (h : RoundsTo negative r b)
    (h' : RoundsTo negative r b') : b = b' := by
  cases b with
  | nan => exact h.elim
  | infinity s =>
    cases b' with
    | nan => exact h'.elim
    | infinity s' => rw [h.1, h'.1]
    | finite y => exact absurd h.2 (not_le.mpr h'.inRange)
  | finite x =>
    cases b' with
    | nan => exact h'.elim
    | infinity s' => exact absurd h'.2 (not_le.mpr h.inRange)
    | finite y => rw [Finite.Rounds.unique h h']

theorem Finite.rounds_magnitude (x : Finite) : x.Rounds x.negative x.magnitude := by
  have h := roundsTo_nearest x.negative x.numerator x.denominator_pos
  rwa [nearest_of_magnitude x.negative x.denominator_pos (x := x) rfl] at h

/-- A product is the exact one, rounded. -/
theorem Finite.roundsTo_mul (x y : Finite) :
    RoundsTo (x.negative != y.negative) |x.toRat * y.toRat| (x.mul y) := by
  have hfraction : ((x.numerator * y.numerator : Nat) : ℚ) / (x.denominator * y.denominator : Nat) =
      |x.toRat * y.toRat| := by
    rw [abs_mul, abs_toRat, abs_toRat, magnitude, magnitude]
    push_cast
    rw [mul_div_mul_comm]
  rw [← hfraction]
  exact roundsTo_nearest _ _ (Nat.mul_pos x.denominator_pos y.denominator_pos)

/-! ### How far correct rounding moves a number -/

namespace Finite.Rounds

variable {x y : Finite} {negative : Bool} {r : ℚ}

/-- Zero is a rival, so the number is at most twice the magnitude. -/
theorem magnitude_le_two_mul (h : x.Rounds negative r) (hr : 0 ≤ r) : x.magnitude ≤ 2 * r := by
  have hzero := h.nearest (.zero false)
  rw [magnitude_zero, zero_sub, abs_neg, abs_of_nonneg hr] at hzero
  linarith [(abs_le.mp hzero).2]

theorem magnitude_mono {s t : Bool} {q : ℚ} (hx : x.Rounds s q) (hy : y.Rounds t r) (h : q ≤ r) :
    x.magnitude ≤ y.magnitude := by
  by_contra hlt
  rw [not_le] at hlt
  -- each is as near to its own number as to the other one, so both lie half-way between
  have hq : x.magnitude + y.magnitude ≤ 2 * q := by
    by_contra hlow
    have hnearer : |y.magnitude - q| < x.magnitude - q := by
      rw [abs_lt]
      constructor <;> linarith
    exact absurd (hx.nearest y) (not_le.mpr (hnearer.trans_le (le_abs_self _)))
  have hr : 2 * r ≤ x.magnitude + y.magnitude := by
    by_contra hhigh
    have hnearer : |x.magnitude - r| < -(y.magnitude - r) := by
      rw [abs_lt]
      constructor <;> linarith
    exact absurd (hy.nearest x) (not_le.mpr (hnearer.trans_le (neg_le_abs _)))
  obtain rfl : q = r := by linarith
  exact absurd (hy.magnitude_le hx) (not_le.mpr hlt)

theorem toRat_mono {s t : Bool} {q r : ℚ} (hx : x.Rounds s |q|) (hq : q = withSign s |q|)
    (hy : y.Rounds t |r|) (hr : r = withSign t |r|) (h : q ≤ r) : x.toRat ≤ y.toRat := by
  have hzero {z : Finite} {u : Bool} {a : ℚ} (hz : z.Rounds u |a|) (ha : |a| = 0) :
      z.magnitude = 0 := by
    have hle := hz.magnitude_le_two_mul (abs_nonneg a)
    rw [ha, mul_zero] at hle
    exact le_antisymm hle z.magnitude_nonneg
  rw [hq, hr] at h
  rw [toRat, toRat, hx.sign, hy.sign]
  exact withSign_le_withSign (abs_nonneg q) (abs_nonneg r) x.magnitude_nonneg y.magnitude_nonneg
    (hx.magnitude_mono hy) (hy.magnitude_mono hx) (hzero hx) (hzero hy) h

/-- No finite number is nearer to what has the magnitude and the sign. -/
theorem isNearest {q : ℚ} (h : x.Rounds negative |q|) (hq : q = withSign negative |q|) :
    IsNearest x q := by
  intro y
  have hdist : |x.toRat - q| = |x.magnitude - (|q|)| := by
    rw [hq, abs_withSign, abs_abs, toRat, h.sign, withSign_sub, abs_withSign]
  rw [hdist]
  exact (h.nearest y).trans (abs_magnitude_sub_le y q)

/-- Where the format keeps all its digits, the error is at most `2 ^ (-53)` of the magnitude. -/
theorem abs_sub_le (h : x.Rounds negative r) (hr : 2 ^ (-1022 : ℤ) ≤ r) :
    |x.magnitude - r| ≤ r / 2 ^ 53 := by
  have hpos : 0 < r := (two_zpow_pos _).trans_le hr
  have hn : 0 < r.num.natAbs := Int.natAbs_pos.mpr (Rat.num_ne_zero.mpr hpos.ne')
  have hfraction : (r.num.natAbs / r.den : ℚ) = r := by
    rw [Nat.cast_natAbs, Int.cast_abs, ← Nat.abs_cast r.den, ← abs_div, Rat.num_div_den,
      abs_of_pos hpos]
  have hlead := leadingExponent_spec hn r.den_pos
  have hmin := le_leadingExponent hn r.den_pos (hr.trans_eq hfraction.symm)
  obtain ⟨y, hy, -, hmag, -⟩ := nearest_finite negative hn r.den_pos
    (hfraction.trans_lt h.inRange)
  have hrounds := roundsTo_nearest negative r.num.natAbs r.den_pos
  have herr := abs_units_sub_le_half r.num.natAbs r.den_pos
  rw [hfraction] at hrounds hlead herr
  rw [hy] at hrounds
  have hunit : unitExponent r.num.natAbs r.den = leadingExponent r.num.natAbs r.den - 52 := by
    unfold unitExponent
    omega
  rw [h.unique hrounds, hmag, mul_zpow_sub_abs]
  calc |(units r.num.natAbs r.den : ℚ) - r / 2 ^ unitExponent r.num.natAbs r.den| *
        2 ^ unitExponent r.num.natAbs r.den
      ≤ 1 / 2 * 2 ^ unitExponent r.num.natAbs r.den :=
        mul_le_mul_of_nonneg_right herr (two_zpow_pos _).le
    _ = 2 ^ leadingExponent r.num.natAbs r.den / 2 ^ 53 := by
        rw [hunit, zpow_sub₀ two_ne_zero]
        norm_num
        ring
    _ ≤ r / 2 ^ 53 := by
        gcongr
        exact hlead.1

end Finite.Rounds

end CurrencyDesk.Binary64
