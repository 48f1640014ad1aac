import CurrencyDesk.Proofs.Amount.FaceValue
import CurrencyDesk.Proofs.Amount.Whole
/-!
# How far a converted amount is from the exact product

An amount and a rate are multiplied and rounded to the format, shortened to about 15 digits,
and rounded to hundredths. The first two steps are off by a part of the number: `2 ^ (-53)`
for the product, and less than `2 ^ (-49)` for the digits, because places are rounded away
only while a tenth of `2 ^ 52` or more is left. The last step is off by half a hundredth.
Together this stays below half a hundredth and the part `2 ^ (-48)`, at every magnitude:

* below a thousandth the result is zero, which is less than half a hundredth away, however
  far into the subnormal numbers the product lies;
* a whole number beyond the mantissa is shown as it is, so that only the product was rounded.

A conversion fails only when the product has no finite number.

Key definitions: `ConvertedAmount.value?`.
Key theorems: `Shortened.abs_sub_le`, `abs_hundredths_sub_le`, `exists_value_of_rounds`,
`conversion_accuracy`.
-/

namespace CurrencyDesk

open Binary64

/-- What a converted amount is worth, if it is a number. -/
def ConvertedAmount.value? : ConvertedAmount → Option ℚ
  | .exact d => some d.toRat
  | .float (.finite x) => some x.toRat
  | .float _ => none

/-! ### The errors of the steps -/

namespace Decimal

/-- A value that is not too small loses less than `2 ^ (-49)` of itself with its digits. -/
theorem Shortened.abs_sub_le {v : ℚ} {c p : Nat} (h : Shortened v c p) (hv : 1 / 10 ^ 4 ≤ v) :
    |(c / 10 ^ p : ℚ) - v| ≤ v / 2 ^ 49 := by
  have hp := ten_pow_pos p
  have hscaled : |(c : ℚ) - v * 10 ^ p| ≤ v * 10 ^ p / 2 ^ 49 := by
    have hupper := h.upper
    have hlower := h.lower
    rw [abs_le]
    rcases h.long with rfl | ⟨hlong, -⟩ | ⟨hkept₁, hkept₂⟩
    · constructor <;> linarith
    · have hlong' : (450359962737050 : ℚ) ≤ c := by exact_mod_cast hlong
      constructor <;> linarith
    · have hpos : 0 ≤ v * 10 ^ p := mul_nonneg (le_trans (by norm_num) hv) hp.le
      constructor <;> linarith
  calc |(c / 10 ^ p : ℚ) - v| = |(c : ℚ) - v * 10 ^ p| / 10 ^ p := by
        rw [← abs_of_pos hp, ← abs_div, abs_of_pos hp, sub_div, mul_div_cancel_right₀ _ hp.ne']
    _ ≤ v * 10 ^ p / 2 ^ 49 / 10 ^ p := div_le_div_of_nonneg_right hscaled hp.le
    _ = v / 2 ^ 49 := by field_simp

/-- Rounding to hundredths moves a number by half a hundredth at most. -/
theorem abs_hundredths_sub_le (r : ℚ) : |(hundredths r / 100 : ℚ) - r| ≤ 1 / 200 := by
  have hle := Int.floor_le (100 * r + 1 / 2)
  have hlt := Int.lt_floor_add_one (100 * r + 1 / 2)
  rw [hundredths, abs_le]
  constructor <;> linarith

end Decimal

theorem ConvertedAmount.value?_ofFinite_of_exponent_neg {x : Finite} (h : x.exponent < 0) :
    (ofFinite x).value? =
      some (withSign x.negative (Decimal.hundredths (Decimal.ofFractional x).magnitude / 100)) := by
  rw [ofFinite, Decimal.ofFinite?_of_exponent_neg h]
  simp only [value?]
  rw [Decimal.normalize_toRat, Decimal.toRat, Decimal.round_magnitude, Decimal.round_negative]
  rfl

theorem ConvertedAmount.value?_ofFinite_of_exponent_nonneg {x : Finite} (h : 0 ≤ x.exponent) :
    (ofFinite x).value? = some x.toRat := by
  rw [ofFinite_of_exponent_nonneg h]
  split_ifs
  · simp only [value?, Decimal.toRat, Decimal.magnitude, Finite.toRat,
      Finite.magnitude_of_exponent_nonneg h, pow_zero, div_one]
  · rfl

section Rounded

variable {x : Finite} {negative : Bool} {q : ℚ}

/-- Values of one sign are as far apart as their magnitudes. -/
theorem abs_withSign_sub_of_eq (hq : q = withSign negative |q|) (r : ℚ) :
    |withSign negative r - q| = |r - (|q|)| := by
  conv_lhs => rw [hq]
  rw [withSign_sub, abs_withSign]

/-- Below a thousandth nothing is shown. -/
theorem Decimal.hundredths_ofFractional_of_lt (hx : x.Rounds negative q) (hq : 0 ≤ q)
    (hlt : q < 1 / 10 ^ 3) (he : x.exponent < 0) : hundredths (ofFractional x).magnitude = 0 := by
  have hle := hx.magnitude_le_two_mul hq
  rw [magnitude_ofFractional]
  exact hundredths_of_small (by linarith) (shortened_le_of_exponent_neg he)

/-- From a thousandth on the three errors add up. -/
theorem Decimal.abs_hundredths_ofFractional_sub_le (hx : x.Rounds negative q)
    (hge : 1 / 10 ^ 3 ≤ q) (he : x.exponent < 0) :
    |(hundredths (ofFractional x).magnitude / 100 : ℚ) - q| ≤ 1 / 200 + q / 2 ^ 48 := by
  have hround := hx.abs_sub_le (two_zpow_le_of_thousandth hge)
  have hv : 1 / 10 ^ 4 ≤ x.magnitude := by
    have := (abs_le.mp hround).1
    linarith
  have hdigits := (shortened_of_exponent_neg he hv).abs_sub_le hv
  rw [← magnitude_ofFractional] at hdigits
  have hcents := abs_hundredths_sub_le (ofFractional x).magnitude
  rw [abs_le] at hround hdigits hcents ⊢
  constructor <;> linarith

/-- A number that a magnitude has been rounded to is shown within half a hundredth and the part
`2 ^ (-48)` of that magnitude. -/
theorem exists_value_of_rounds (hx : x.Rounds negative |q|) (hq : q = withSign negative |q|) :
    ∃ v, (ConvertedAmount.ofFinite x).value? = some v ∧ |v - q| ≤ 1 / 200 + |q| / 2 ^ 48 := by
  have hpos := abs_nonneg q
  rcases lt_or_ge x.exponent 0 with he | he
  · refine ⟨_, ConvertedAmount.value?_ofFinite_of_exponent_neg he, ?_⟩
    rw [hx.sign, abs_withSign_sub_of_eq hq]
    rcases lt_or_ge |q| (1 / 10 ^ 3) with hlt | hge
    · rw [Decimal.hundredths_ofFractional_of_lt hx hpos hlt he, Int.cast_zero, zero_div, zero_sub,
        abs_neg, abs_abs]
      linarith
    · exact Decimal.abs_hundredths_ofFractional_sub_le hx hge he
  · refine ⟨_, ConvertedAmount.value?_ofFinite_of_exponent_nonneg he, ?_⟩
    have hge : (1 / 10 ^ 3 : ℚ) ≤ |q| := by
      linarith [Finite.le_magnitude_of_exponent_nonneg he, hx.magnitude_le_two_mul hpos]
    have hround := hx.abs_sub_le (two_zpow_le_of_thousandth hge)
    rw [Finite.toRat, hx.sign, abs_withSign_sub_of_eq hq]
    linarith

end Rounded

/-! ### The conversion -/

theorem withSign_mul_withSign (s t : Bool) (q r : ℚ) :
    withSign s q * withSign t r = withSign (s != t) (q * r) := by
  cases s <;> cases t <;> simp [withSign]

theorem Binary64.Finite.toRat_mul_toRat (x y : Finite) : x.toRat * y.toRat =
    withSign (x.negative != y.negative) |x.toRat * y.toRat| := by
  rw [abs_mul, abs_toRat, abs_toRat, toRat, toRat, withSign_mul_withSign]

/-- **A conversion is accurate to half a hundredth and the part `2 ^ (-48)`.** The product that
is converted is the exact one, rounded correctly. The conversion fails exactly when that is
infinite, and otherwise it succeeds with an amount that is as near to the exact product as
the bound says. -/
theorem conversion_accuracy (amount rate : Finite) (source target : String) :
    let request : Request := ⟨.finite amount, source, target⟩
    let product := Binary64.mul (.finite amount) (.finite rate)
    let exactProduct := amount.toRat * rate.toRat
    RoundsTo (amount.negative != rate.negative) |exactProduct| product ∧
    (Conversion.make request (.ok (.finite rate)) =
        .error (.outOfRange (.finite amount) (.finite rate)) ↔ ∃ s, product = .infinity s) ∧
    ((∀ s, product ≠ .infinity s) → ∃ c v,
      Conversion.make request (.ok (.finite rate)) = .ok ⟨request, .finite rate, c⟩ ∧
      c.value? = some v ∧ |v - exactProduct| ≤ 1 / 200 + |exactProduct| / 2 ^ 48) := by
  intro request product exactProduct
  have hrounds : RoundsTo (amount.negative != rate.negative) |exactProduct| product :=
    amount.roundsTo_mul rate
  refine ⟨hrounds, ?_⟩
  rcases hp : product with _ | s | x
  · rw [hp] at hrounds
    exact hrounds.elim
  · have hnone : ConvertedAmount.ofProduct? (request.amount.mul (.finite rate)) = none :=
      congrArg ConvertedAmount.ofProduct? hp
    exact ⟨iff_of_true (Conversion.make_of_ofProduct?_eq_none hnone) ⟨s, rfl⟩,
      fun h => absurd rfl (h s)⟩
  · have hsome : ConvertedAmount.ofProduct? (request.amount.mul (.finite rate)) =
        some (ConvertedAmount.ofFinite x) :=
      congrArg ConvertedAmount.ofProduct? hp
    have hmake := Conversion.make_of_ofProduct? hsome
    rw [hp] at hrounds
    obtain ⟨v, hv, herr⟩ := exists_value_of_rounds hrounds (amount.toRat_mul_toRat rate)
    refine ⟨iff_of_false ?_ ?_, fun _ => ⟨ConvertedAmount.ofFinite x, v, hmake, hv, herr⟩⟩
    · rw [hmake]
      simp
    · rintro ⟨s, h⟩
      cases h

end CurrencyDesk
