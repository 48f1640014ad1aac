import CurrencyDesk.Amount.Converted
import Mathlib.Algebra.Order.Ring.Nat
import Mathlib.Tactic.Ring
/-!
# Whole numbers beyond the mantissa

A number whose exponent is not negative is whole. `absorbDoubles?` starts with as many
factors ten to come as doublings, and takes one off both with every doubling; so when the
coefficient has no room left, the tens to come are more than half of the doublings, and the
number is refused. What is not refused has been doubled all the way: such a number is shown
as it is, as a decimal below `limit` and as a binary64 number from there on.

Key theorems: `absorbDoubles?_self`, `ofFinite?_of_exponent_nonneg`,
`ConvertedAmount.ofFinite_of_exponent_nonneg`.
-/

namespace CurrencyDesk

open Binary64

namespace Decimal

/-- With as many tens to come as doublings, doubling goes through or the number is refused. -/
theorem absorbDoubles?_self : ∀ (k c : Nat), c < limit →
    absorbDoubles? k c k = if c * 2 ^ k < limit then some (c * 2 ^ k) else none
  | 0, c, hc => by
    rw [absorbDoubles?, absorbTens?, pow_zero, mul_one, if_pos hc]
  | k + 1, c, hc => by
    have hlimit : limit = 2 * (limit / 2) := by decide
    have hpow : c * 2 ^ (k + 1) = 2 * c * 2 ^ k := by ring
    rw [absorbDoubles?, Nat.add_sub_cancel, hpow]
    by_cases hroom : c < limit / 2
    · rw [if_pos hroom, absorbDoubles?_self k (2 * c) (by omega)]
    · have hbig : limit ≤ 2 * c * 2 ^ k :=
        (by omega : limit ≤ 2 * c).trans (Nat.le_mul_of_pos_right _ (Nat.two_pow_pos k))
      rw [if_neg hroom, if_pos (by omega), if_neg (not_lt.mpr hbig)]

theorem ofFinite?_of_exponent_nonneg {x : Finite} (h : 0 ≤ x.exponent) :
    ofFinite? x = if x.numerator < limit then some ⟨x.negative, x.numerator, 0⟩ else none := by
  obtain ⟨n, hn⟩ := Int.eq_ofNat_of_zero_le h
  have hm : x.mantissa < limit := x.canonical.1.trans (by decide)
  have hnum : x.numerator = x.mantissa * 2 ^ n := by
    rw [Finite.numerator, hn, Int.toNat_natCast]
  unfold ofFinite?
  rw [hn]
  simp only [ofWhole?, absorbDoubles?_self n x.mantissa hm, hnum]
  split_ifs <;> rfl

end Decimal

theorem ConvertedAmount.ofFinite_of_exponent_nonneg {x : Finite} (h : 0 ≤ x.exponent) :
    ofFinite x = if x.numerator < Decimal.limit then .exact ⟨x.negative, x.numerator, 0⟩
      else .float (.finite x) := by
  have hne : x.numerator ≠ 0 := by
    have hm : 2 ^ 52 ≤ x.mantissa := x.canonical.2.2.2.resolve_left (by omega)
    have hpos : 0 < x.mantissa * 2 ^ x.exponent.toNat :=
      Nat.mul_pos (lt_of_lt_of_le (by decide) hm) (Nat.two_pow_pos _)
    exact hpos.ne'
  unfold ofFinite
  rw [Decimal.ofFinite?_of_exponent_nonneg h]
  split_ifs with hlt
  · simp only [Decimal.round, Nat.zero_le, ↓reduceIte, Decimal.normalize, if_neg hne,
      Decimal.dropZeros]
  · simp only [Finite.roundWhole, if_pos h]

end CurrencyDesk
