import CurrencyDesk.Binary64.Nearest
import Mathlib.Algebra.Order.Archimedean.Basic
import Mathlib.Algebra.Order.Field.Power
import Mathlib.Data.Rat.Floor
import Mathlib.Tactic.FieldSimp
import Mathlib.Tactic.Linarith
import Mathlib.Tactic.Positivity
/-!
# How far rounding moves a number

The exact arithmetic of the format, read in the rationals. A finite number is
`± mantissa * 2 ^ exponent`, and `nearest` answers with a whole multiple of the
unit of the last place that is at most half a unit away, the even one of two, unless
the fraction reaches `overflow`. Every other finite number is a multiple of that unit
too, or lies below the power of two that the fraction has reached, so none is nearer.

What is used later of short decimals is only `IsNearest`: it bounds the error by the
magnitude (`IsNearest.abs_sub_le`) whichever way a tie went.

Key definitions: `Finite.magnitude`, `Finite.toRat`, `units`, `overflow`, `IsNearest`.
Key theorems: `leadingExponent_spec`, `nearest_finite`, `nearest_infinite`,
`nearest_of_magnitude`, `mul_ofInt_one`, `isNearest_of_nearest`, `exists_isNearest`,
`IsNearest.abs_sub_le`, `IsNearest.negative_eq`.
-/

namespace CurrencyDesk

/-- A magnitude under a sign. -/
def withSign (negative : Bool) (r : ℚ) : ℚ :=
  if negative then -r else r

@[simp] theorem withSign_zero (negative : Bool) : withSign negative 0 = 0 := by
  simp [withSign]

@[simp] theorem abs_withSign (negative : Bool) (r : ℚ) : |withSign negative r| = |r| := by
  cases negative <;> simp [withSign]

theorem withSign_not (negative : Bool) (r : ℚ) : withSign (!negative) r = -withSign negative r := by
  cases negative <;> simp [withSign]

theorem withSign_sub (negative : Bool) (r t : ℚ) :
    withSign negative r - withSign negative t = withSign negative (r - t) := by
  cases negative
  · rfl
  · simp only [withSign, ↓reduceIte]
    ring

theorem abs_withSign_sub_not (negative : Bool) (r t : ℚ) :
    |withSign negative r - withSign (!negative) t| = |r + t| := by
  cases negative
  · simp [withSign]
  · rw [← abs_neg (r + t)]
    simp only [withSign, Bool.not_true, Bool.false_eq_true, ↓reduceIte]
    ring_nf

/-- What keeps the order of magnitudes, zero included, keeps the order of the values under
their signs. -/
theorem withSign_le_withSign {s t : Bool} {a b a' b' : ℚ} (ha : 0 ≤ a) (hb : 0 ≤ b)
    (ha' : 0 ≤ a') (hb' : 0 ≤ b') (hle : a ≤ b → a' ≤ b') (hge : b ≤ a → b' ≤ a')
    (hzero : a = 0 → a' = 0) (hzero' : b = 0 → b' = 0) (h : withSign s a ≤ withSign t b) :
    withSign s a' ≤ withSign t b' := by
  cases s <;> cases t <;> simp only [withSign, Bool.false_eq_true, ↓reduceIte] at h ⊢
  · exact hle h
  · rw [hzero (by linarith), hzero' (by linarith), neg_zero]
  · linarith
  · exact neg_le_neg (hge (neg_le_neg_iff.mp h))

theorem withSign_abs (q : ℚ) : withSign (decide (q < 0)) |q| = q := by
  by_cases hq : q < 0
  · simp [withSign, hq, abs_of_neg hq]
  · simp [withSign, hq, abs_of_nonneg (not_lt.mp hq)]

/-- A power with an integer exponent, as the quotient of two with natural ones. -/
theorem pow_toNat_div (b : ℚ) (e : ℤ) : b ^ e.toNat / b ^ (-e).toNat = b ^ e := by
  obtain ⟨n, rfl | rfl⟩ := e.eq_nat_or_neg
  · simp
  · simp [zpow_neg]

namespace Binary64

theorem two_zpow_pos (e : ℤ) : (0 : ℚ) < 2 ^ e :=
  zpow_pos two_pos e

namespace Finite

/-- The magnitude of a finite number. -/
def magnitude (x : Finite) : ℚ :=
  x.numerator / x.denominator

/-- The value of a finite number. -/
def toRat (x : Finite) : ℚ :=
  withSign x.negative x.magnitude

theorem magnitude_eq (x : Finite) : x.magnitude = x.mantissa * 2 ^ x.exponent := by
  rw [magnitude, numerator, denominator, ← pow_toNat_div]
  push_cast
  ring

theorem magnitude_nonneg (x : Finite) : 0 ≤ x.magnitude := by
  unfold magnitude
  positivity

@[simp] theorem abs_toRat (x : Finite) : |x.toRat| = x.magnitude := by
  rw [toRat, abs_withSign, abs_of_nonneg x.magnitude_nonneg]

theorem exponent_neg {x : Finite} (h : x.magnitude < 2 ^ 52) : x.exponent < 0 := by
  by_contra he
  have hm : 2 ^ 52 ≤ x.mantissa := x.canonical.2.2.2.resolve_left (by omega)
  have hm' : (2 ^ 52 : ℚ) ≤ x.mantissa := by exact_mod_cast hm
  have hone : (1 : ℚ) ≤ 2 ^ x.exponent := one_le_zpow₀ one_le_two (not_lt.mp he)
  rw [magnitude_eq] at h
  have := mul_le_mul hm' hone zero_le_one (le_trans (by positivity) hm')
  linarith

theorem magnitude_of_exponent_nonneg {x : Finite} (h : 0 ≤ x.exponent) :
    x.magnitude = x.numerator := by
  rw [magnitude, denominator, Int.toNat_of_nonpos (by omega), pow_zero, Nat.cast_one, div_one]

theorem le_magnitude_of_exponent_nonneg {x : Finite} (h : 0 ≤ x.exponent) : 2 ^ 52 ≤ x.magnitude :=
  not_lt.mp fun hlt => absurd (exponent_neg hlt) (not_lt.mpr h)

theorem magnitude_lt_of_exponent_neg {x : Finite} (h : x.exponent < 0) : x.magnitude < 2 ^ 52 := by
  have hm : (x.mantissa : ℚ) < 2 ^ 53 := by exact_mod_cast x.canonical.1
  have hhalf : (2 : ℚ) ^ x.exponent ≤ 2 ^ (-1 : ℤ) := zpow_le_zpow_right₀ one_le_two (by omega)
  rw [magnitude_eq]
  calc (x.mantissa : ℚ) * 2 ^ x.exponent < 2 ^ 53 * 2 ^ x.exponent :=
        mul_lt_mul_of_pos_right hm (two_zpow_pos _)
    _ ≤ 2 ^ 53 * 2 ^ (-1 : ℤ) := mul_le_mul_of_nonneg_left hhalf (by norm_num)
    _ = 2 ^ 52 := by norm_num

theorem magnitude_eq_div {x : Finite} (h : x.exponent < 0) :
    x.magnitude = x.mantissa / 2 ^ (-x.exponent).toNat := by
  rw [magnitude, numerator, denominator, Int.toNat_of_nonpos h.le, pow_zero,
    mul_one]
  push_cast
  rfl

@[simp] theorem magnitude_zero (negative : Bool) : (zero negative).magnitude = 0 := by
  simp [magnitude_eq, zero]

end Finite

/-! ### The power of two a fraction has reached -/

section Exponents

variable {n d : Nat}

theorem pow_toNat_mul_le_iff (hd : 0 < d) (g : Int) :
    d * 2 ^ g.toNat ≤ n * 2 ^ (-g).toNat ↔ (2 : ℚ) ^ g ≤ n / d := by
  have hd' : (0 : ℚ) < d := by exact_mod_cast hd
  rw [← pow_toNat_div 2 g, div_le_div_iff₀ (by positivity) hd', mul_comm ((2 : ℚ) ^ _)]
  exact_mod_cast Iff.rfl

theorem leadingExponent_spec (hn : 0 < n) (hd : 0 < d) :
    (2 : ℚ) ^ leadingExponent n d ≤ n / d ∧ (n / d : ℚ) < 2 ^ (leadingExponent n d + 1) := by
  have hd' : (0 : ℚ) < d := by exact_mod_cast hd
  have hn₁ : (2 : ℚ) ^ n.log2 ≤ n := by exact_mod_cast Nat.log2_self_le hn.ne'
  have hn₂ : (n : ℚ) < 2 ^ (n.log2 + 1) := by exact_mod_cast Nat.lt_log2_self
  have hd₁ : (2 : ℚ) ^ d.log2 ≤ d := by exact_mod_cast Nat.log2_self_le hd.ne'
  have hd₂ : (d : ℚ) < 2 ^ (d.log2 + 1) := by exact_mod_cast Nat.lt_log2_self
  set g : Int := (n.log2 : Int) - d.log2 with hg
  -- the two bit lengths leave only the guess and its predecessor
  have hhigh : (n / d : ℚ) < 2 ^ (g + 1) := by
    rw [div_lt_iff₀ hd']
    calc (n : ℚ) < 2 ^ (n.log2 + 1) := hn₂
      _ = 2 ^ (g + 1) * 2 ^ d.log2 := by
        rw [← zpow_natCast, ← zpow_natCast, ← zpow_add₀ two_ne_zero, hg]
        congr 1
        push_cast
        ring
      _ ≤ 2 ^ (g + 1) * d := by gcongr
  have hlow : (2 : ℚ) ^ (g - 1) ≤ n / d := by
    rw [le_div_iff₀ hd']
    calc (2 : ℚ) ^ (g - 1) * d ≤ 2 ^ (g - 1) * 2 ^ (d.log2 + 1) := by gcongr
      _ = 2 ^ n.log2 := by
        rw [← zpow_natCast, ← zpow_natCast, ← zpow_add₀ two_ne_zero, hg]
        congr 1
        push_cast
        ring
      _ ≤ n := hn₁
  unfold leadingExponent
  simp only [← hg, pow_toNat_mul_le_iff hd]
  split_ifs with h
  · exact ⟨h, hhigh⟩
  · rw [sub_add_cancel]
    exact ⟨hlow, not_le.mp h⟩

theorem le_leadingExponent (hn : 0 < n) (hd : 0 < d) {e : Int} (h : (2 : ℚ) ^ e ≤ n / d) :
    e ≤ leadingExponent n d := by
  have hlt := h.trans_lt (leadingExponent_spec hn hd).2
  rw [zpow_lt_zpow_iff_right₀ one_lt_two] at hlt
  omega

theorem leadingExponent_lt (hn : 0 < n) (hd : 0 < d) {e : Int} (h : (n / d : ℚ) < 2 ^ e) :
    leadingExponent n d < e := by
  have hlt := (leadingExponent_spec hn hd).1.trans_lt h
  rwa [zpow_lt_zpow_iff_right₀ one_lt_two] at hlt

end Exponents

/-! ### Whole units

`nearest` counts units of `2 ^ unitExponent n d`. The fraction is below `2 ^ 53`
of them, and at least `2 ^ 52` unless the unit is the least there is. -/

theorem abs_roundQuotient_sub_le (n : Nat) {d : Nat} (hd : 0 < d) :
    |(roundQuotient n d : ℚ) - n / d| ≤ 1 / 2 := by
  have hd' : (0 : ℚ) < d := by exact_mod_cast hd
  have h₁ : (2 * (roundQuotient n d * d) : ℚ) ≤ 2 * n + d := by
    exact_mod_cast two_mul_roundQuotient_mul_le n d
  have h₂ : (2 * n : ℚ) ≤ 2 * (roundQuotient n d * d) + d := by
    exact_mod_cast le_two_mul_roundQuotient_mul n hd
  have h : (roundQuotient n d : ℚ) - n / d = (roundQuotient n d * d - n) / d := by
    field_simp
  rw [h, abs_le, le_div_iff₀ hd', div_le_iff₀ hd']
  constructor <;> linarith

theorem even_roundQuotient (n : Nat) {d : Nat} (hd : 0 < d)
    (h : |(roundQuotient n d : ℚ) - n / d| = 1 / 2) : Even (roundQuotient n d) := by
  have hd' : (0 : ℚ) < d := by exact_mod_cast hd
  have hn : (n / d : ℚ) * d = n := div_mul_cancel₀ _ hd'.ne'
  refine Nat.even_iff.mpr (roundQuotient_even_of_tie n hd ?_)
  rcases (abs_eq (by norm_num)).mp h with hup | hdown
  · left
    have : (2 * (roundQuotient n d * d) : ℚ) = 2 * n + d := by
      rw [← hn, eq_add_of_sub_eq hup]
      ring
    exact_mod_cast this
  · right
    have : (2 * n : ℚ) = 2 * (roundQuotient n d * d) + d := by
      rw [← hn, eq_add_of_sub_eq hdown]
      ring
    exact_mod_cast this

theorem ofParts_of_canonical (negative : Bool) {m : Nat} {e : Int} (h : Canonical m e) :
    ofParts negative m e = .finite ⟨negative, m, e, h⟩ := by
  rw [ofParts, dif_pos h]

section Units

variable {n d : Nat}

/-- The fraction in units of `2 ^ e`, as `nearest` computes it. -/
theorem scaled_div (n d : Nat) (e : Int) :
    ((n * 2 ^ (-e).toNat : Nat) : ℚ) / (d * 2 ^ e.toNat : Nat) = n / d / 2 ^ e := by
  rw [← pow_toNat_div 2 e]
  push_cast
  field_simp

theorem div_unit_lt (hn : 0 < n) (hd : 0 < d) : (n / d : ℚ) / 2 ^ unitExponent n d < 2 ^ 53 := by
  rw [div_lt_iff₀ (two_zpow_pos _)]
  calc (n / d : ℚ) < 2 ^ (leadingExponent n d + 1) := (leadingExponent_spec hn hd).2
    _ ≤ 2 ^ (53 + unitExponent n d) := by
      refine zpow_le_zpow_right₀ one_le_two ?_
      unfold unitExponent
      omega
    _ = 2 ^ 53 * 2 ^ unitExponent n d := by rw [zpow_add₀ two_ne_zero]; norm_cast

theorem le_div_unit (hn : 0 < n) (hd : 0 < d) (he : unitExponent n d ≠ -1074) :
    (2 : ℚ) ^ 52 ≤ n / d / 2 ^ unitExponent n d := by
  rw [le_div_iff₀ (two_zpow_pos _)]
  calc (2 : ℚ) ^ 52 * 2 ^ unitExponent n d = 2 ^ (52 + unitExponent n d) := by
        rw [zpow_add₀ two_ne_zero]; norm_cast
    _ = 2 ^ leadingExponent n d := by
      unfold unitExponent at he ⊢
      congr 1
      omega
    _ ≤ n / d := (leadingExponent_spec hn hd).1

/-- The whole number of units that the fraction rounds to. -/
def units (n d : Nat) : Nat :=
  roundQuotient (n * 2 ^ (-unitExponent n d).toNat) (d * 2 ^ (unitExponent n d).toNat)

theorem nearest_eq (negative : Bool) (hn : 0 < n) : nearest negative n d =
    if units n d = 2 ^ 53 then ofParts negative (2 ^ 52) (unitExponent n d + 1)
    else ofParts negative (units n d) (unitExponent n d) := by
  unfold nearest
  rw [if_neg hn.ne']
  rfl

theorem abs_units_sub_le_half (n : Nat) (hd : 0 < d) :
    |(units n d : ℚ) - n / d / 2 ^ unitExponent n d| ≤ 1 / 2 := by
  rw [← scaled_div]
  exact abs_roundQuotient_sub_le _ (Nat.mul_pos hd (Nat.two_pow_pos _))

/-- Half a unit is rounded to an even number of units. -/
theorem even_units (n : Nat) (hd : 0 < d)
    (h : |(units n d : ℚ) - n / d / 2 ^ unitExponent n d| = 1 / 2) : Even (units n d) := by
  rw [← scaled_div] at h
  exact even_roundQuotient _ (Nat.mul_pos hd (Nat.two_pow_pos _)) h

theorem units_le (hn : 0 < n) (hd : 0 < d) : units n d ≤ 2 ^ 53 := by
  have hlt := div_unit_lt hn hd
  have herr := (abs_le.mp (abs_units_sub_le_half n hd)).2
  have hunits : (units n d : ℚ) < 2 ^ 53 + 1 := by linarith
  exact Nat.lt_succ_iff.mp (by exact_mod_cast hunits)

theorem le_units (hn : 0 < n) (hd : 0 < d) (he : unitExponent n d ≠ -1074) :
    2 ^ 52 ≤ units n d := by
  have hle := le_div_unit hn hd he
  have herr := (abs_le.mp (abs_units_sub_le_half n hd)).1
  have hunits : (2 : ℚ) ^ 52 < units n d + 1 := by linarith
  exact Nat.lt_succ_iff.mp (by exact_mod_cast hunits)

/-- Half a unit past the largest finite number: what reaches it is rounded to infinity. -/
def overflow : ℚ :=
  (2 ^ 53 - 1 / 2) * 2 ^ (971 : ℤ)

theorem overflow_lt : overflow < 2 ^ (1024 : ℤ) :=
  calc overflow < 2 ^ 53 * 2 ^ (971 : ℤ) := by
        refine mul_lt_mul_of_pos_right ?_ (two_zpow_pos _)
        norm_num
    _ = 2 ^ (1024 : ℤ) := by rw [← zpow_natCast, ← zpow_add₀ two_ne_zero]; norm_num

theorem two_zpow_le_overflow : 2 ^ (1023 : ℤ) ≤ overflow :=
  calc (2 : ℚ) ^ (1023 : ℤ) = 2 ^ 52 * 2 ^ (971 : ℤ) := by
        rw [← zpow_natCast, ← zpow_add₀ two_ne_zero]; norm_num
    _ ≤ overflow := by
        refine mul_le_mul_of_nonneg_right ?_ (two_zpow_pos _).le
        norm_num

/-- Below `overflow` a fraction is rounded to the number that its units make up. -/
theorem nearest_finite (negative : Bool) (hn : 0 < n) (hd : 0 < d)
    (hsmall : (n / d : ℚ) < overflow) :
    ∃ x : Finite, nearest negative n d = .finite x ∧ x.negative = negative ∧
      x.magnitude = units n d * 2 ^ unitExponent n d ∧ (Even (units n d) → Even x.mantissa) := by
  have hlead : leadingExponent n d < 1024 := leadingExponent_lt hn hd (hsmall.trans overflow_lt)
  have hunit : unitExponent n d ≤ 971 ∧ -1074 ≤ unitExponent n d := by
    unfold unitExponent
    omega
  rw [nearest_eq negative hn]
  split_ifs with hu
  · -- the units round up to the next power of two, which is not past the largest number
    have he : unitExponent n d ≠ 971 := by
      intro he
      have herr := (abs_le.mp (abs_units_sub_le_half n hd)).2
      rw [hu, he] at herr
      rw [overflow, ← div_lt_iff₀ (two_zpow_pos _)] at hsmall
      generalize (n / d : ℚ) / 2 ^ (971 : ℤ) = r at *
      push_cast at herr
      linarith
    have hc : Canonical (2 ^ 52) (unitExponent n d + 1) :=
      ⟨by decide, by omega, by omega, .inr le_rfl⟩
    refine ⟨_, ofParts_of_canonical negative hc, rfl, ?_, fun _ => (by decide : Even (2 ^ 52))⟩
    rw [Finite.magnitude_eq, hu, zpow_add₀ two_ne_zero]
    push_cast
    ring
  · have hle := units_le hn hd
    have hge := le_units hn hd
    have hc : Canonical (units n d) (unitExponent n d) := ⟨by omega, by omega, by omega, by tauto⟩
    exact ⟨_, ofParts_of_canonical negative hc, rfl, Finite.magnitude_eq _, id⟩

theorem ofParts_of_lt (negative : Bool) (m : Nat) {e : Int} (h : 971 < e) :
    ofParts negative m e = .infinity negative := by
  rw [ofParts, dif_neg fun hc => absurd hc.2.2.1 (not_le.mpr h)]

theorem nearest_infinite (negative : Bool) (hn : 0 < n) (hd : 0 < d)
    (hlarge : overflow ≤ (n / d : ℚ)) : nearest negative n d = .infinity negative := by
  have hlead : 1023 ≤ leadingExponent n d :=
    le_leadingExponent hn hd (two_zpow_le_overflow.trans hlarge)
  rw [nearest_eq negative hn]
  by_cases he : unitExponent n d = 971
  · -- a half unit below the next power of two is rounded to the even side, which is that power
    have hu : units n d = 2 ^ 53 := by
      have hle := units_le hn hd
      have herr := abs_units_sub_le_half n hd
      have htie := even_units n hd
      rw [overflow, ← le_div_iff₀ (two_zpow_pos _)] at hlarge
      rw [he] at herr htie
      by_contra hne
      have hlt : (units n d : ℚ) ≤ 2 ^ 53 - 1 := by
        have : units n d + 1 ≤ 2 ^ 53 := by omega
        rw [le_sub_iff_add_le]
        exact_mod_cast this
      have hlow := (abs_le.mp herr).1
      have hunits : (units n d : ℚ) = 2 ^ 53 - 1 := by linarith
      have heq : units n d + 1 = 2 ^ 53 := by
        have : (units n d : ℚ) + 1 = 2 ^ 53 := by linarith
        exact_mod_cast this
      have hhalf : |(units n d : ℚ) - n / d / 2 ^ (971 : ℤ)| = 1 / 2 := by
        refine le_antisymm herr ?_
        rw [abs_sub_comm]
        refine le_trans ?_ (le_abs_self _)
        linarith
      obtain ⟨k, hk⟩ := htie hhalf
      omega
    rw [if_pos hu]
    exact ofParts_of_lt negative _ (by omega)
  · have hlt : 971 < unitExponent n d := by
      unfold unitExponent at he ⊢
      omega
    split_ifs
    · exact ofParts_of_lt negative _ (by omega)
    · exact ofParts_of_lt negative _ hlt

/-! ### Fractions that the format has -/

theorem unitExponent_of_magnitude {x : Finite} (hn : 0 < n) (hd : 0 < d)
    (h : (n / d : ℚ) = x.magnitude) : unitExponent n d = x.exponent := by
  obtain ⟨hm, hmin, -, hlead⟩ := x.canonical
  rw [Finite.magnitude_eq] at h
  have hlt : leadingExponent n d < 53 + x.exponent := by
    refine leadingExponent_lt hn hd ?_
    rw [h, zpow_add₀ two_ne_zero]
    gcongr
    exact_mod_cast hm
  unfold unitExponent
  rcases hlead with he | hm'
  · omega
  · have hge : 52 + x.exponent ≤ leadingExponent n d := by
      refine le_leadingExponent hn hd ?_
      rw [h, zpow_add₀ two_ne_zero]
      gcongr
      exact_mod_cast hm'
    omega

theorem nearest_of_magnitude (negative : Bool) {x : Finite} (hd : 0 < d)
    (h : (n / d : ℚ) = x.magnitude) :
    nearest negative n d = .finite { x with negative := negative } := by
  obtain ⟨sign, m, e, hc⟩ := x
  by_cases hn : n = 0
  · have hm : m = 0 := by
      simpa [hn, Finite.magnitude_eq, (two_zpow_pos e).ne'] using h.symm
    subst hm
    obtain rfl : e = -1074 := hc.2.2.2.resolve_right (by decide)
    rw [nearest, if_pos hn]
    rfl
  · have hunit : unitExponent n d = e := unitExponent_of_magnitude (Nat.pos_of_ne_zero hn) hd h
    have herr := abs_roundQuotient_sub_le (n * 2 ^ (-e).toNat)
      (Nat.mul_pos hd (Nat.two_pow_pos e.toNat))
    rw [scaled_div, h, Finite.magnitude_eq, mul_div_cancel_right₀ _ (two_zpow_pos _).ne'] at herr
    unfold nearest
    simp only [if_neg hn, hunit]
    generalize roundQuotient (n * 2 ^ (-e).toNat) (d * 2 ^ e.toNat) = u at *
    obtain rfl : u = m := by
      obtain ⟨herr₁, herr₂⟩ := abs_le.mp herr
      have h₁ : (u : ℚ) < m + 1 := by linarith
      have h₂ : (m : ℚ) < u + 1 := by linarith
      norm_cast at h₁ h₂
      omega
    rw [if_neg (by have := hc.1; omega), ofParts_of_canonical negative hc]

end Units

/-- The number one. -/
def Finite.one : Finite :=
  ⟨false, 2 ^ 52, -52, by decide⟩

theorem ofInt_one : ofInt 1 = .finite .one := by
  decide

theorem mul_ofInt_one (x : Finite) : mul (.finite x) (.ofInt 1) = .finite x := by
  have hone : Finite.one.magnitude = 1 := by
    rw [Finite.magnitude_eq]
    norm_num [Finite.one]
  rw [ofInt_one]
  have hmul : ((x.numerator * Finite.one.numerator : Nat) : ℚ) /
      (x.denominator * Finite.one.denominator : Nat) = x.magnitude := by
    push_cast
    rw [mul_div_mul_comm]
    exact (congrArg (x.magnitude * ·) hone).trans (mul_one _)
  have hpos : 0 < x.denominator * Finite.one.denominator :=
    Nat.mul_pos x.denominator_pos Finite.one.denominator_pos
  calc mul (.finite x) (.finite .one)
      = nearest (x.negative != false) (x.numerator * Finite.one.numerator)
          (x.denominator * Finite.one.denominator) := rfl
    _ = .finite { x with negative := x.negative != false } := nearest_of_magnitude _ hpos hmul
    _ = .finite x := by simp

/-! ### No finite number is nearer -/

/-- No finite number is nearer to `q`. -/
def IsNearest (x : Finite) (q : ℚ) : Prop :=
  ∀ y : Finite, |x.toRat - q| ≤ |y.toRat - q|

theorem one_le_abs_sub_add_abs_sub {u k : Nat} (hk : k ≠ u) (r : ℚ) :
    1 ≤ |(u : ℚ) - r| + |(k : ℚ) - r| := by
  have hone : (1 : ℚ) ≤ |(u : ℚ) - k| := by
    have : (u : ℤ) - k ≠ 0 := by omega
    exact_mod_cast Int.one_le_abs this
  rw [abs_sub_comm (k : ℚ) r]
  exact hone.trans (abs_sub_le _ _ _)

theorem abs_sub_le_of_half {u : Nat} {r : ℚ} (h : |(u : ℚ) - r| ≤ 1 / 2) (k : Nat) :
    |(u : ℚ) - r| ≤ |(k : ℚ) - r| := by
  by_cases hk : k = u
  · rw [hk]
  · linarith [one_le_abs_sub_add_abs_sub hk r]

/-- Where another whole number is as near, the two are half a unit away. -/
theorem half_of_tie {u k : Nat} {r : ℚ} (h : |(u : ℚ) - r| ≤ 1 / 2) (hk : k ≠ u)
    (heq : |(k : ℚ) - r| = |(u : ℚ) - r|) : |(u : ℚ) - r| = 1 / 2 :=
  le_antisymm h (by linarith [one_le_abs_sub_add_abs_sub hk r])

theorem mul_zpow_sub_abs (k r : ℚ) (e : ℤ) : |k * 2 ^ e - r| = |k - r / 2 ^ e| * 2 ^ e := by
  have he := two_zpow_pos e
  rw [← abs_of_pos he, ← abs_mul, abs_of_pos he, sub_mul, div_mul_cancel₀ _ he.ne']

/-- A whole number of units at most half a unit away from `r` is as near as any. -/
theorem abs_units_sub_le {u : Nat} {r : ℚ} {e : ℤ} (h : |(u : ℚ) - r / 2 ^ e| ≤ 1 / 2) (k : Nat) :
    |u * 2 ^ e - r| ≤ |k * 2 ^ e - r| := by
  rw [mul_zpow_sub_abs, mul_zpow_sub_abs]
  exact mul_le_mul_of_nonneg_right (abs_sub_le_of_half h k) (two_zpow_pos e).le

/-- Every finite number is a multiple of a unit, or has less than `2 ^ 52` of it
and the unit is not the least there is. -/
theorem Finite.eq_mul_or_le (y : Finite) (e : ℤ) :
    (∃ k : Nat, y.magnitude = k * 2 ^ e) ∨ -1074 < e ∧ y.magnitude ≤ 2 ^ 52 * 2 ^ e := by
  obtain ⟨hm, hmin, -, -⟩ := y.canonical
  rw [Finite.magnitude_eq]
  by_cases he : e ≤ y.exponent
  · refine .inl ⟨y.mantissa * 2 ^ (y.exponent - e).toNat, ?_⟩
    push_cast
    rw [mul_assoc, ← zpow_natCast, ← zpow_add₀ two_ne_zero]
    congr 2
    omega
  · refine .inr ⟨by omega, ?_⟩
    calc (y.mantissa : ℚ) * 2 ^ y.exponent ≤ 2 ^ 53 * 2 ^ (e - 1) := by
          gcongr
          · exact_mod_cast hm.le
          · exact one_le_two
          · omega
      _ = 2 ^ 52 * 2 ^ e := by rw [zpow_sub_one₀ two_ne_zero]; ring

/-- Two magnitudes of the format are apart by half a unit of the larger one at least. -/
theorem Finite.magnitude_le_of_lt {x y : Finite} (h : x.magnitude < y.magnitude) :
    x.magnitude ≤ (1 - 1 / 2 ^ 54) * y.magnitude := by
  obtain ⟨hm, -, -, hlead⟩ := y.canonical
  have hm' : (y.mantissa : ℚ) < 2 ^ 53 := by exact_mod_cast hm
  have hpos := two_zpow_pos (y.exponent - 1)
  have hy : y.magnitude = 2 * y.mantissa * 2 ^ (y.exponent - 1) := by
    rw [magnitude_eq, zpow_sub_one₀ two_ne_zero]
    ring
  rw [hy] at h ⊢
  rw [← mul_assoc]
  rcases x.eq_mul_or_le (y.exponent - 1) with ⟨k, hk⟩ | ⟨he, hle⟩
  · rw [hk] at h ⊢
    have hlt : k < 2 * y.mantissa := by
      have := lt_of_mul_lt_mul_right h hpos.le
      exact_mod_cast this
    have hk' : (k : ℚ) + 1 ≤ 2 * y.mantissa := by exact_mod_cast hlt
    exact mul_le_mul_of_nonneg_right (by linarith) hpos.le
  · -- a binade below
    have hlong : (2 : ℚ) ^ 52 ≤ y.mantissa := by exact_mod_cast hlead.resolve_left (by omega)
    exact hle.trans (mul_le_mul_of_nonneg_right (by linarith) hpos.le)

/-- The units that a fraction rounds to are as near to it as any finite number. -/
theorem units_nearest {n d : Nat} (hn : 0 < n) (hd : 0 < d) (y : Finite) :
    |units n d * 2 ^ unitExponent n d - (n / d : ℚ)| ≤ |y.magnitude - n / d| := by
  have hu := abs_units_sub_le_half n hd
  have hle := le_div_unit hn hd
  have hpos := two_zpow_pos (unitExponent n d)
  generalize units n d = u at *
  generalize unitExponent n d = e at *
  rcases y.eq_mul_or_le e with ⟨k, hk⟩ | ⟨he, hy⟩
  · rw [hk]
    exact abs_units_sub_le hu k
  · -- the power of two between `y` and the fraction is a rival that is a multiple
    have hpow : (2 : ℚ) ^ 52 * 2 ^ e ≤ n / d := (le_div_iff₀ hpos).mp (hle he.ne')
    have hrival : |u * 2 ^ e - (n / d : ℚ)| ≤ |2 ^ 52 * 2 ^ e - (n / d : ℚ)| := by
      have h := abs_units_sub_le hu (2 ^ 52)
      rwa [Nat.cast_pow, Nat.cast_ofNat] at h
    refine hrival.trans ?_
    rw [abs_of_nonpos (sub_nonpos.mpr hpow), abs_of_nonpos (sub_nonpos.mpr (hy.trans hpow))]
    linarith

/-- The distance to a number of the other sign is no less than that of the magnitudes. -/
theorem abs_magnitude_sub_le (y : Finite) (q : ℚ) : |y.magnitude - (|q|)| ≤ |y.toRat - q| := by
  rw [← y.abs_toRat]
  exact abs_abs_sub_abs_le _ _

/-- `nearest` answers with a number nearest to the fraction under its sign. -/
theorem isNearest_of_nearest (negative : Bool) {n d : Nat} (hn : 0 < n) (hd : 0 < d)
    (hsmall : (n / d : ℚ) < overflow) :
    ∃ x : Finite, nearest negative n d = .finite x ∧ IsNearest x (withSign negative (n / d)) ∧
      |x.toRat - withSign negative (n / d)| ≤ 2 ^ unitExponent n d / 2 := by
  obtain ⟨x, hx, hsign, hmag, -⟩ := nearest_finite negative hn hd hsmall
  have hdist : |x.toRat - withSign negative (n / d)| =
      |units n d * 2 ^ unitExponent n d - (n / d : ℚ)| := by
    rw [Finite.toRat, hsign, withSign_sub, abs_withSign, hmag]
  refine ⟨x, hx, fun y => ?_, ?_⟩
  · have hfraction : |withSign negative (n / d : ℚ)| = n / d := by
      rw [abs_withSign, abs_of_nonneg (by positivity)]
    rw [hdist]
    refine (units_nearest hn hd y).trans ?_
    simpa only [hfraction] using abs_magnitude_sub_le y (withSign negative (n / d))
  · rw [hdist, mul_zpow_sub_abs]
    calc |(units n d : ℚ) - n / d / 2 ^ unitExponent n d| * 2 ^ unitExponent n d
        ≤ 1 / 2 * 2 ^ unitExponent n d :=
          mul_le_mul_of_nonneg_right (abs_units_sub_le_half n hd) (two_zpow_pos _).le
      _ = 2 ^ unitExponent n d / 2 := by ring

/-- There is a nearest number, at most half a unit away, the unit being that of any power
of two above the magnitude. -/
theorem exists_isNearest {q : ℚ} {e : ℤ} (he : -1022 ≤ e) (he' : e ≤ 1022)
    (hq : |q| < 2 ^ (e + 1)) : ∃ x : Finite, IsNearest x q ∧ |x.toRat - q| ≤ 2 ^ (e - 53) := by
  by_cases hzero : q = 0
  · subst hzero
    have hdist : |(Finite.zero false).toRat - 0| = 0 := by simp
    exact ⟨.zero false, fun y => hdist.trans_le (abs_nonneg _),
      hdist.trans_le (two_zpow_pos _).le⟩
  · have hn : 0 < q.num.natAbs := Int.natAbs_pos.mpr (Rat.num_ne_zero.mpr hzero)
    have hfraction : (q.num.natAbs / q.den : ℚ) = |q| := by
      rw [Nat.cast_natAbs, Int.cast_abs, ← Nat.abs_cast q.den, ← abs_div, Rat.num_div_den]
    have hsmall : (q.num.natAbs / q.den : ℚ) < 2 ^ (1023 : ℤ) := by
      rw [hfraction]
      exact hq.trans_le (zpow_le_zpow_right₀ one_le_two (by omega))
    obtain ⟨x, -, hx, herr⟩ := isNearest_of_nearest (decide (q < 0)) hn q.den_pos
      (hsmall.trans_le two_zpow_le_overflow)
    rw [hfraction, withSign_abs] at hx herr
    have hlead : leadingExponent q.num.natAbs q.den < e + 1 :=
      leadingExponent_lt hn q.den_pos (hfraction ▸ hq)
    refine ⟨x, hx, ?_⟩
    calc |x.toRat - q| ≤ 2 ^ unitExponent q.num.natAbs q.den / 2 := herr
      _ = 2 ^ (unitExponent q.num.natAbs q.den - 1) := by
        rw [zpow_sub_one₀ two_ne_zero, div_eq_mul_inv]
      _ ≤ 2 ^ (e - 53) := by
        refine zpow_le_zpow_right₀ one_le_two ?_
        unfold unitExponent
        omega

namespace IsNearest

variable {x : Finite} {q : ℚ}

/-- The nearest number is at most half a unit away. -/
theorem abs_sub_le (h : IsNearest x q) {e : ℤ} (he : -1022 ≤ e) (he' : e ≤ 1022)
    (hq : |q| < 2 ^ (e + 1)) : |x.toRat - q| ≤ 2 ^ (e - 53) := by
  obtain ⟨y, -, hy⟩ := exists_isNearest he he' hq
  exact (h y).trans hy

/-- Where the format keeps all its digits, the error is at most `2 ^ (-53)` of the number. -/
theorem abs_sub_le_mul (h : IsNearest x q) (hq : 2 ^ (-1022 : ℤ) ≤ |q|)
    (hq' : |q| < 2 ^ (1023 : ℤ)) : |x.toRat - q| ≤ |q| / 2 ^ 53 := by
  obtain ⟨e, he, he'⟩ := exists_mem_Ico_zpow ((two_zpow_pos _).trans_le hq) one_lt_two
  have hmin : -1022 < e + 1 := (zpow_lt_zpow_iff_right₀ one_lt_two).mp (hq.trans_lt he')
  have hmax : e < 1023 := (zpow_lt_zpow_iff_right₀ one_lt_two).mp (he.trans_lt hq')
  calc |x.toRat - q| ≤ 2 ^ (e - 53) := h.abs_sub_le (by omega) (by omega) he'
    _ = 2 ^ e / 2 ^ 53 := by rw [zpow_sub₀ two_ne_zero]; norm_cast
    _ ≤ |q| / 2 ^ 53 := by gcongr

/-- The nearest number has the sign of the number, unless that is tiny. -/
theorem negative_eq (h : IsNearest x q) (hq : 2 ^ (-1022 : ℤ) ≤ |q|) (hq' : |q| < 2 ^ (1023 : ℤ)) :
    x.negative = decide (q < 0) := by
  have hpos : 0 < |q| := (two_zpow_pos _).trans_le hq
  have herr := h.abs_sub_le_mul hq hq'
  by_contra hsign
  have hother : decide (q < 0) = !x.negative := by
    cases hneg : x.negative <;> simp_all
  have hvalue : withSign (!x.negative) |q| = q := by
    rw [← hother, withSign_abs]
  have hdist : |x.toRat - q| = x.magnitude + |q| := by
    calc |x.toRat - q| = |withSign x.negative x.magnitude - withSign (!x.negative) (|q|)| := by
          rw [hvalue, Finite.toRat]
      _ = x.magnitude + |q| := by
          rw [abs_withSign_sub_not, abs_of_nonneg (add_nonneg x.magnitude_nonneg hpos.le)]
  have := x.magnitude_nonneg
  rw [hdist] at herr
  linarith

end IsNearest

end Binary64

end CurrencyDesk
