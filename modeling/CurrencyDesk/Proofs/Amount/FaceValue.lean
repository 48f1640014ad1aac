import CurrencyDesk.Conversion
import CurrencyDesk.Proofs.Amount.Reduced
import CurrencyDesk.Proofs.Binary64.Numeral
/-!
# A short decimal is converted at its face value

What a reader of a numeral expects of a conversion at rate 1: the numeral itself in
hundredths, a half going away from zero. The amount that is converted is the nearest
binary64 number, which may lie on the other side of a half: `1.005` is read as a number
below 1.005 and still gives 1.01. For decimals of at most 15 digits below `10 ^ 15` the
expectation holds without exception.

The number is read (`Numeral.isNearest_toBinary64`), multiplied by 1 without being moved
(`Binary64.mul_ofInt_one`), shortened and rounded (`hundredths_shortened`), and reduced
(`Decimal.normalize_reduced`).

Key definitions: `roundHundredths`, `ShortDecimal`.
Key theorems: `hundredths_ofFraction`, `ofFinite_of_isNearest`,
`conversion_at_one_of_shortDecimal`.
-/

namespace CurrencyDesk

open Binary64

/-- A number in hundredths, a half going away from zero. -/
def roundHundredths (q : ℚ) : ℚ :=
  withSign (decide (q < 0)) (Decimal.hundredths |q| / 100)

/-- A decimal of at most 15 significant digits, below `10 ^ 15`. -/
def ShortDecimal (q : ℚ) : Prop :=
  |q| < 10 ^ 15 ∧ ∃ (s : Nat) (e : ℤ), s < 10 ^ 15 ∧ |q| = s * 10 ^ e

/-- Its digits are one natural number, some of them behind the point. -/
theorem ShortDecimal.places {q : ℚ} (h : ShortDecimal q) :
    ∃ s j : Nat, s < 10 ^ 15 ∧ |q| * 10 ^ j = s := by
  obtain ⟨hlt, s, e, hs, hq⟩ := h
  obtain ⟨n, rfl | rfl⟩ := e.eq_nat_or_neg
  · rw [zpow_natCast] at hq
    refine ⟨s * 10 ^ n, 0, ?_, ?_⟩
    · rw [hq] at hlt
      exact_mod_cast hlt
    · rw [hq]
      push_cast
      ring
  · refine ⟨s, n, hs, ?_⟩
    rw [hq, zpow_neg, zpow_natCast, mul_assoc, inv_mul_cancel₀ (Decimal.ten_pow_pos n).ne', mul_one]

theorem ShortDecimal.lt_two_zpow {q : ℚ} (h : ShortDecimal q) : |q| < 2 ^ (1023 : ℤ) :=
  calc |q| < 10 ^ 15 := h.1
    _ ≤ 2 ^ (50 : ℤ) := by norm_num
    _ ≤ 2 ^ (1023 : ℤ) := zpow_le_zpow_right₀ one_le_two (by omega)

/-- From a thousandth on the format keeps all its digits. -/
theorem two_zpow_le_of_thousandth {r : ℚ} (h : 1 / 10 ^ 3 ≤ r) : 2 ^ (-1022 : ℤ) ≤ r :=
  calc (2 : ℚ) ^ (-1022 : ℤ) ≤ 2 ^ (-10 : ℤ) := zpow_le_zpow_right₀ one_le_two (by omega)
    _ ≤ 1 / 10 ^ 3 := by norm_num
    _ ≤ r := h

/-! ### Numbers with a fraction -/

section Fraction

variable {x : Finite} {q : ℚ}

namespace Decimal

/-- The decimal that a number with a fraction is shown as before it is rounded. -/
def ofFractional (x : Finite) : Decimal :=
  let (c, p) := ofFraction x.mantissa (-x.exponent).toNat
  ⟨x.negative, c, p⟩

theorem ofFinite?_of_exponent_neg (h : x.exponent < 0) : ofFinite? x = some (ofFractional x) := by
  obtain ⟨n, hn⟩ := Int.eq_negSucc_of_lt_zero h
  unfold ofFinite? ofFractional
  rw [hn]
  rfl

theorem magnitude_ofFractional (x : Finite) :
    (ofFractional x).magnitude = (shortened x.mantissa (-x.exponent).toNat).1 /
      10 ^ (shortened x.mantissa (-x.exponent).toNat).2 := by
  rw [← dropZeros_value, ← ofFraction_eq]
  rfl

theorem halvings_le (x : Finite) : (-x.exponent).toNat ≤ 1074 := by
  have := x.canonical.2.1
  omega

/-- However small a number is, its coefficient is not far above it. -/
theorem shortened_le_of_exponent_neg (he : x.exponent < 0) :
    ((shortened x.mantissa (-x.exponent).toNat).1 : ℚ) ≤
      x.magnitude * 10 ^ (shortened x.mantissa (-x.exponent).toNat).2 + 5 / 9 := by
  rw [Finite.magnitude_eq_div he]
  exact shortened_le x.mantissa (halvings_le x)

theorem shortened_of_exponent_neg (he : x.exponent < 0) (hv : 1 / 10 ^ 4 ≤ x.magnitude) :
    Shortened x.magnitude (shortened x.mantissa (-x.exponent).toNat).1
      (shortened x.mantissa (-x.exponent).toNat).2 := by
  rw [Finite.magnitude_eq_div he] at hv ⊢
  exact shortened_spec x.mantissa (halvings_le x) hv

/-- The hundredths of a short decimal come out of its binary form. -/
theorem hundredths_ofFraction (hx : IsNearest x q) (hq : ShortDecimal q) (he : x.exponent < 0) :
    hundredths (ofFractional x).magnitude = hundredths |q| := by
  obtain ⟨s, j, hs, hdigits⟩ := hq.places
  have herr := abs_magnitude_sub_le x q
  rw [magnitude_ofFractional]
  by_cases hlow : 1 / 10 ^ 3 ≤ |q|
  · have hrel := hx.abs_sub_le_mul (two_zpow_le_of_thousandth hlow) hq.lt_two_zpow
    have hv : (1 / 10 ^ 4 : ℚ) ≤ x.magnitude := by
      have := (abs_le.mp (herr.trans hrel)).1
      linarith
    refine hundredths_shortened hdigits hs hlow (herr.trans hrel) (fun hlt => ?_) (fun hlt => ?_)
      (shortened_of_exponent_neg he hv)
    · refine herr.trans ((hx.abs_sub_le (by omega : (-1022 : ℤ) ≤ 48) (by omega) ?_).trans ?_)
      · exact_mod_cast hlt
      · norm_num
    · refine herr.trans ((hx.abs_sub_le (by omega : (-1022 : ℤ) ≤ 45) (by omega) ?_).trans ?_)
      · exact_mod_cast hlt
      · norm_num
  · have habs := hx.abs_sub_le (by omega : (-1022 : ℤ) ≤ -10) (by omega) (by norm_num; linarith)
    have hv : x.magnitude < 2 / 10 ^ 3 := by
      have := (abs_le.mp (herr.trans habs)).2
      norm_num at this
      linarith
    rw [hundredths_eq_zero (abs_nonneg q) (by linarith)]
    exact hundredths_of_small hv (shortened_le_of_exponent_neg he)

end Decimal

/-- A number nearest to a short decimal is shown as the decimal in hundredths. -/
theorem ConvertedAmount.ofFinite_of_isNearest (hx : IsNearest x q) (hq : ShortDecimal q) :
    ∃ d : Decimal, ConvertedAmount.ofFinite x = .exact d ∧ d.Reduced ∧
      d.toRat = roundHundredths q := by
  have he : x.exponent < 0 := by
    have herr := (abs_magnitude_sub_le x q).trans
      (hx.abs_sub_le (by omega : (-1022 : ℤ) ≤ 49) (by omega) (hq.1.trans (by norm_num)))
    have hlt := hq.1
    refine Finite.exponent_neg ?_
    norm_num at herr hlt ⊢
    linarith [(abs_le.mp herr).2]
  have hhundredths := Decimal.hundredths_ofFraction hx hq he
  refine ⟨((Decimal.ofFractional x).round 2).normalize, ?_, Decimal.normalize_reduced _, ?_⟩
  · rw [ConvertedAmount.ofFinite, Decimal.ofFinite?_of_exponent_neg he]
  · rw [Decimal.normalize_toRat, Decimal.toRat, Decimal.round_magnitude, Decimal.round_negative,
      hhundredths, roundHundredths]
    by_cases hlow : 1 / 10 ^ 3 ≤ |q|
    · congr 1
      exact hx.negative_eq (two_zpow_le_of_thousandth hlow) hq.lt_two_zpow
    · -- the sign of what is rounded to zero does not matter
      rw [Decimal.hundredths_eq_zero (abs_nonneg q) (by linarith)]
      simp

end Fraction

/-! ### From the word to the conversion -/

/-- Reading a word that is a numeral of a number below `2 ^ 1023` yields the nearest number. -/
theorem Request.amount?_isNearest {word : List Char} {n : Numeral}
    (hword : Numeral.ofChars? word = some n) (h : |n.toRat| < 2 ^ (1023 : ℤ)) :
    ∃ x : Finite, Request.amount? word = some (.finite x) ∧ IsNearest x n.toRat := by
  obtain ⟨x, hx, hnear⟩ := n.isNearest_toBinary64 h
  refine ⟨x, ?_, hnear⟩
  rw [Request.amount?, Binary64.ofChars?, hword]
  simp only [hx]
  rfl

theorem Conversion.make_of_ofProduct? {request : Request} {rate : Binary64} {c : ConvertedAmount}
    (h : ConvertedAmount.ofProduct? (request.amount.mul rate) = some c) :
    Conversion.make request (.ok rate) = .ok ⟨request, rate, c⟩ := by
  rw [Conversion.make, h]

theorem Conversion.make_of_ofProduct?_eq_none {request : Request} {rate : Binary64}
    (h : ConvertedAmount.ofProduct? (request.amount.mul rate) = none) :
    Conversion.make request (.ok rate) = .error (.outOfRange request.amount rate) := by
  rw [Conversion.make, h]

theorem Conversion.eq_of_make {request : Request} {rate : Binary64} {c : Conversion}
    (h : Conversion.make request (.ok rate) = .ok c) : ∃ x : Finite,
      request.amount.mul rate = .finite x ∧ c = ⟨request, rate, ConvertedAmount.ofFinite x⟩ := by
  unfold make at h
  dsimp only at h
  rcases hp : request.amount.mul rate with _ | s | x
  · rw [hp] at h
    cases h
  · rw [hp] at h
    cases h
  · rw [hp] at h
    cases h
    exact ⟨x, rfl, rfl⟩

/-- **A short decimal is converted at rate 1 to its face value.** Some finite number is
nearest to it, whatever numeral denotes it is read as such a number, and every such number is
converted to the one reduced decimal that is the short decimal in hundredths, a half going
away from zero. -/
theorem conversion_at_one_of_shortDecimal {q : ℚ} (hq : ShortDecimal q) :
    (∃ x : Finite, IsNearest x q) ∧
    (∀ (word : List Char) (n : Numeral), Numeral.ofChars? word = some n → n.toRat = q →
      ∃ x : Finite, Request.amount? word = some (.finite x) ∧ IsNearest x q) ∧
    ∀ x : Finite, IsNearest x q → ∀ source target : String, ∃ d : Decimal,
      Conversion.make ⟨.finite x, source, target⟩ (.ok (.ofInt 1)) =
        .ok ⟨⟨.finite x, source, target⟩, .ofInt 1, .exact d⟩ ∧
      d.Reduced ∧ d.toRat = roundHundredths q := by
  refine ⟨?_, fun word n hword hn => ?_, fun x hx source target => ?_⟩
  · obtain ⟨x, hx, -⟩ := exists_isNearest (by omega : (-1022 : ℤ) ≤ 1022) le_rfl hq.lt_two_zpow
    exact ⟨x, hx⟩
  · subst hn
    exact Request.amount?_isNearest hword hq.lt_two_zpow
  · obtain ⟨d, hd, hreduced, hvalue⟩ := ConvertedAmount.ofFinite_of_isNearest hx hq
    refine ⟨d, Conversion.make_of_ofProduct? ?_, hreduced, hvalue⟩
    rw [Binary64.mul_ofInt_one, ConvertedAmount.ofProduct?, hd]

/-- `1.005` is read as a number below it and still gives 1.01. -/
theorem conversion_at_one_of_half_cent :
    ∃ x : Finite, Request.amount? "1.005".toList = some (.finite x) ∧
      Conversion.make ⟨.finite x, "eur", "usd"⟩ (.ok (.ofInt 1)) =
        .ok ⟨⟨.finite x, "eur", "usd"⟩, .ofInt 1, .exact ⟨false, 101, 2⟩⟩ := by
  have hshort : ShortDecimal (201 / 200) := by
    refine ⟨by norm_num [abs_of_pos], 1005, -3, by norm_num, ?_⟩
    rw [abs_of_pos (by norm_num), zpow_neg]
    norm_num
  have hvalue : Numeral.toRat ⟨false, ['1'], ['0', '0', '5'], 0⟩ = 201 / 200 := by
    have hsignificand : Numeral.significand ⟨false, ['1'], ['0', '0', '5'], 0⟩ = 1005 := by decide
    rw [Numeral.toRat, hsignificand]
    norm_num [withSign, Numeral.scale, zpow_neg]
  have hcents : roundHundredths (201 / 200) = 101 / 100 := by
    have hfloor : Decimal.hundredths (201 / 200) = 101 := by
      rw [Decimal.hundredths, Int.floor_eq_iff]
      norm_num
    rw [roundHundredths, abs_of_pos (by norm_num), hfloor]
    norm_num [withSign]
  obtain ⟨-, hread, hconvert⟩ := conversion_at_one_of_shortDecimal hshort
  obtain ⟨x, hx, hnear⟩ := hread "1.005".toList _ (by decide) hvalue
  obtain ⟨d, hd, hreduced, hd'⟩ := hconvert x hnear "eur" "usd"
  have hone : d = ⟨false, 101, 2⟩ := by
    refine hreduced.eq_of_toRat_eq ⟨.inr (by decide), by decide⟩ ?_
    rw [hd', hcents]
    norm_num [Decimal.toRat, Decimal.magnitude, withSign]
  exact ⟨x, hx, hone ▸ hd⟩

end CurrencyDesk
