import CurrencyDesk.Binary64.Numeral
import CurrencyDesk.Proofs.Binary64.Correct
/-!
# A numeral reads as the nearest number

`Numeral.toBinary64` tells from the count of digits and the exponent when a magnitude
is too small or too large, and rounds the exact fraction otherwise. Whichever way it
takes, its answer is the one number that what the numeral denotes rounds to: zero below
`10 ^ (-324)`, which is less than half of the least magnitude there is, and infinity from
`10 ^ 309` on.

Key definitions: `Numeral.toRat`.
Key theorems: `Numeral.roundsTo_toBinary64`, `Numeral.isNearest_toBinary64`.
-/

namespace CurrencyDesk

open Binary64

namespace Numeral

/-- What a numeral denotes. -/
def toRat (n : Numeral) : ℚ :=
  withSign n.negative (n.significand * 10 ^ n.scale)

theorem abs_toRat (n : Numeral) : |n.toRat| = n.significand * 10 ^ n.scale := by
  rw [toRat, abs_withSign, abs_of_nonneg (by positivity)]

/-- The count of digits of a significand. -/
def digitCount (n : Numeral) : Nat :=
  (Nat.toDigits 10 n.significand).length

theorem toBinary64_eq (n : Numeral) : n.toBinary64 =
    if n.significand = 0 ∨ (n.digitCount : ℤ) + n.scale ≤ -324 then Binary64.zero n.negative
    else if 310 ≤ (n.digitCount : ℤ) + n.scale then .infinity n.negative
    else .nearest n.negative (n.significand * 10 ^ n.scale.toNat) (10 ^ (-n.scale).toNat) :=
  rfl

theorem digitCount_pos (n : Numeral) : 0 < n.digitCount :=
  Nat.length_toDigits_pos

theorem significand_lt (n : Numeral) : n.significand < 10 ^ n.digitCount :=
  (Nat.length_toDigits_le_iff (by decide) n.digitCount_pos).mp le_rfl

theorem le_significand (n : Numeral) (h : n.significand ≠ 0) :
    10 ^ (n.digitCount - 1) ≤ n.significand := by
  by_contra hlt
  by_cases hone : n.digitCount - 1 = 0
  · rw [hone, pow_zero] at hlt
    omega
  · have hle : n.digitCount ≤ n.digitCount - 1 :=
      (Nat.length_toDigits_le_iff (by decide) (Nat.pos_of_ne_zero hone)).mpr (not_le.mp hlt)
    omega

/-- The magnitude is below the power of ten that the digits and the scale reach. -/
theorem abs_toRat_lt (n : Numeral) : |n.toRat| < 10 ^ ((n.digitCount : ℤ) + n.scale) := by
  rw [abs_toRat, zpow_add₀ (by norm_num), zpow_natCast]
  have h : (n.significand : ℚ) < 10 ^ n.digitCount := by exact_mod_cast n.significand_lt
  gcongr

theorem le_abs_toRat (n : Numeral) (h : n.significand ≠ 0) :
    10 ^ ((n.digitCount : ℤ) + n.scale - 1) ≤ |n.toRat| := by
  have hle : (10 ^ (n.digitCount - 1) : ℚ) ≤ n.significand := by exact_mod_cast n.le_significand h
  have hpred : ((n.digitCount : ℤ) + n.scale - 1) = (n.digitCount - 1 : Nat) + n.scale := by
    have := n.digitCount_pos
    omega
  rw [abs_toRat, hpred, zpow_add₀ (by norm_num), zpow_natCast]
  gcongr

end Numeral

/-- A power of ten below the range of the format. -/
theorem two_mul_ten_zpow_le : (2 : ℚ) * 10 ^ (-324 : ℤ) ≤ 2 ^ (-1074 : ℤ) := by
  have h : 2 * 2 ^ 1074 ≤ 10 ^ 324 := by decide +kernel
  have h' : (2 * 2 ^ 1074 : ℚ) ≤ 10 ^ 324 := by exact_mod_cast h
  rw [zpow_neg, zpow_neg, ← div_eq_mul_inv, ← one_div,
    div_le_div_iff₀ (by positivity) (by positivity), one_mul]
  exact_mod_cast h'

/-- A power of ten above it. -/
theorem overflow_le_ten_zpow : overflow ≤ 10 ^ (309 : ℤ) := by
  have h : 2 ^ 1024 ≤ 10 ^ 309 := by decide +kernel
  refine overflow_lt.le.trans ?_
  exact_mod_cast h

/-- **A numeral reads as the number that it rounds to**, however many digits it has and
however large its exponent is. -/
theorem Numeral.roundsTo_toBinary64 (n : Numeral) : RoundsTo n.negative |n.toRat| n.toBinary64 := by
  rw [toBinary64_eq]
  split_ifs with hsmall hlarge
  · refine rounds_zero n.negative (abs_nonneg _) ?_
    rcases hsmall with hzero | hlow
    · rw [abs_toRat, hzero, Nat.cast_zero, zero_mul, mul_zero]
      exact (two_zpow_pos _).le
    · refine le_trans ?_ two_mul_ten_zpow_le
      gcongr
      exact n.abs_toRat_lt.le.trans (zpow_le_zpow_right₀ (by norm_num) hlow)
  · have hne : n.significand ≠ 0 := fun hz => hsmall (.inl hz)
    refine ⟨rfl, overflow_le_ten_zpow.trans ?_⟩
    exact (zpow_le_zpow_right₀ (by norm_num) (by omega)).trans (n.le_abs_toRat hne)
  · have hfraction : ((n.significand * 10 ^ n.scale.toNat : Nat) : ℚ) /
        (10 ^ (-n.scale).toNat : Nat) = |n.toRat| := by
      rw [abs_toRat, ← pow_toNat_div 10 n.scale]
      push_cast
      ring
    rw [← hfraction]
    exact roundsTo_nearest n.negative _ (Nat.pow_pos (by decide : 0 < 10))

/-- A numeral below `2 ^ 1023` reads as a finite number, and none is nearer. -/
theorem Numeral.isNearest_toBinary64 (n : Numeral) (h : |n.toRat| < 2 ^ (1023 : ℤ)) :
    ∃ x : Finite, n.toBinary64 = .finite x ∧ IsNearest x n.toRat := by
  have hrounds := n.roundsTo_toBinary64
  rcases hb : n.toBinary64 with _ | s | x
  · rw [hb] at hrounds
    exact hrounds.elim
  · rw [hb] at hrounds
    exact absurd hrounds.2 (not_le.mpr (h.trans_le two_zpow_le_overflow))
  · rw [hb] at hrounds
    refine ⟨x, rfl, hrounds.isNearest ?_⟩
    rw [abs_toRat, toRat]

end CurrencyDesk
