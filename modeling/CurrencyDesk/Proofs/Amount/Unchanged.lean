import CurrencyDesk.Proofs.Amount.Shown
/-!
# Whole amounts are not changed

A whole number is shown as itself, with each of its digits. Below `2 ^ 52` it has a unit that
is a fraction, but its halvings leave no remainder and no places to round away
(`Decimal.ofFractional_of_whole`); from there on every number is whole, and the doublings go
through as long as the coefficient has room (`ConvertedAmount.ofFinite_of_exponent_nonneg`). So
the decimals end exactly at `2 ^ 96`, and what is kept as a binary64 number from there on has
no fraction to lose.

Key definitions: `Decimal.ofInt`.
Key theorems: `ofFinite_of_whole`, `exists_float_iff`, `exists_int_of_le`,
`whole_amounts_unchanged`.
-/

namespace CurrencyDesk

open Binary64

namespace Decimal

/-- A whole number as a decimal. -/
def ofInt (n : ℤ) : Decimal :=
  ⟨decide (n < 0), n.natAbs, 0⟩

theorem ofInt_reduced (n : ℤ) : (ofInt n).Reduced := by
  refine ⟨.inl rfl, fun h => decide_eq_false ?_⟩
  have hzero : n.natAbs = 0 := h
  omega

@[simp] theorem ofInt_toRat (n : ℤ) : (ofInt n).toRat = n := by
  have hmagnitude : (ofInt n).magnitude = |(n : ℚ)| := by
    rw [magnitude_of_places_eq_zero rfl, ofInt, Nat.cast_natAbs, Int.cast_abs]
  have hsign : (ofInt n).negative = decide ((n : ℚ) < 0) :=
    decide_eq_decide.mpr Int.cast_lt_zero.symm
  rw [toRat, hmagnitude, hsign, withSign_abs]

end Decimal

namespace ConvertedAmount

variable {x : Finite} {n : ℤ}

theorem magnitude_of_whole (h : x.toRat = n) : x.magnitude = n.natAbs := by
  rw [← x.abs_toRat, h, Nat.cast_natAbs, Int.cast_abs]

/-- A whole number with a fractional unit is shown as itself. -/
theorem ofFinite_of_whole_of_neg (he : x.exponent < 0) (h : x.toRat = n) :
    ofFinite x = .exact (.ofInt n) := by
  have hmagnitude := Decimal.magnitude_ofFractional_of_whole he (magnitude_of_whole h)
  have hvalue := value?_ofFinite_of_exponent_neg he
  have hcents : (Decimal.hundredths n.natAbs / 100 : ℚ) = n.natAbs := by
    simpa using Decimal.hundredths_of_places_le (c := n.natAbs) (Nat.zero_le 2)
  rw [hmagnitude, hcents, ← magnitude_of_whole h, ← Finite.toRat, h] at hvalue
  obtain ⟨d, hd, hshown⟩ := Decimal.shown_of_exponent_neg he
  rw [hd] at hvalue ⊢
  refine congrArg _ (hshown.reduced.eq_of_toRat_eq (Decimal.ofInt_reduced n) ?_)
  rw [Decimal.ofInt_toRat]
  exact Option.some.inj hvalue

/-- **A whole number is shown as itself**, as a decimal while there is room. -/
theorem ofFinite_of_whole (h : x.toRat = n) :
    ofFinite x = if n.natAbs < 2 ^ 96 then .exact (.ofInt n) else .float (.finite x) := by
  have hmagnitude := magnitude_of_whole h
  rcases lt_or_ge x.exponent 0 with he | he
  · have hlt : n.natAbs < 2 ^ 52 := by
      have := Finite.magnitude_lt_of_exponent_neg he
      rw [hmagnitude] at this
      exact_mod_cast this
    rw [if_pos (by omega), ofFinite_of_whole_of_neg he h]
  · have hnumerator : x.numerator = n.natAbs := by
      rw [Finite.magnitude_of_exponent_nonneg he] at hmagnitude
      exact_mod_cast hmagnitude
    have hlong : 2 ^ 52 ≤ x.numerator := by
      have := Finite.le_magnitude_of_exponent_nonneg he
      rw [Finite.magnitude_of_exponent_nonneg he] at this
      exact_mod_cast this
    have hvalue := value?_ofFinite_of_exponent_nonneg he
    rw [ofFinite_of_exponent_nonneg he, h] at hvalue
    rw [ofFinite_of_exponent_nonneg he]
    by_cases hroom : n.natAbs < 2 ^ 96
    · have hlimit : x.numerator < Decimal.limit := hnumerator ▸ hroom
      have hreduced : (Decimal.mk x.negative x.numerator 0).Reduced :=
        ⟨.inl rfl, fun hzero => by dsimp only at hzero; omega⟩
      rw [if_pos hlimit] at hvalue ⊢
      rw [if_pos hroom]
      refine congrArg _ (hreduced.eq_of_toRat_eq (Decimal.ofInt_reduced n) ?_)
      rw [Decimal.ofInt_toRat]
      exact Option.some.inj hvalue
    · have hlimit : ¬ x.numerator < Decimal.limit := hnumerator ▸ hroom
      rw [if_neg hlimit, if_neg hroom]

theorem value?_of_whole (h : x.toRat = n) : (ofFinite x).value? = some (n : ℚ) := by
  rw [ofFinite_of_whole h]
  split_ifs
  · rw [value?, Decimal.ofInt_toRat]
  · rw [value?, h]

theorem exists_int_of_le (h : 2 ^ 52 ≤ |x.toRat|) : ∃ n : ℤ, x.toRat = n := by
  have he : 0 ≤ x.exponent := by
    by_contra hneg
    rw [x.abs_toRat] at h
    exact absurd (Finite.magnitude_lt_of_exponent_neg (not_le.mp hneg)) (not_lt.mpr h)
  refine ⟨if x.negative then -x.numerator else x.numerator, ?_⟩
  rw [Finite.toRat, Finite.magnitude_of_exponent_nonneg he, withSign]
  push_cast
  rfl

/-- A number that is not shown as a decimal is `2 ^ 96` or more. -/
theorem exists_float_iff (x : Finite) : (∃ b, ofFinite x = .float b) ↔ 2 ^ 96 ≤ |x.toRat| := by
  rw [x.abs_toRat]
  rcases lt_or_ge x.exponent 0 with he | he
  · obtain ⟨d, hd, -⟩ := Decimal.shown_of_exponent_neg he
    have hlt := Finite.magnitude_lt_of_exponent_neg he
    rw [hd]
    exact iff_of_false (by simp) (by linarith)
  · rw [ofFinite_of_exponent_nonneg he, Finite.magnitude_of_exponent_nonneg he]
    have hlimit : (2 ^ 96 : ℚ) ≤ x.numerator ↔ ¬ x.numerator < Decimal.limit := by
      rw [not_lt]
      exact_mod_cast Iff.rfl
    rw [hlimit]
    split_ifs with hroom <;> simp [hroom]

end ConvertedAmount

/-- **Whole amounts are exact, and decimals end at `2 ^ 96`.** A finite number is kept as a
binary64 number exactly from `2 ^ 96` on, and is a decimal below. A whole number of any
magnitude is shown as itself; and every number from `2 ^ 52` on is whole, so that nothing is
lost where decimals end. -/
theorem whole_amounts_unchanged :
    (∀ x : Finite, (∃ b, ConvertedAmount.ofProduct? (.finite x) = some (.float b)) ↔
      2 ^ 96 ≤ |x.toRat|) ∧
    (∀ x : Finite, (∃ d, ConvertedAmount.ofProduct? (.finite x) = some (.exact d)) ↔
      |x.toRat| < 2 ^ 96) ∧
    (∀ (x : Finite) (n : ℤ), x.toRat = n → ∃ c, ConvertedAmount.ofProduct? (.finite x) = some c ∧
      c.value? = some (n : ℚ) ∧
      c = if n.natAbs < 2 ^ 96 then .exact (.ofInt n) else .float (.finite x)) ∧
    ∀ x : Finite, 2 ^ 52 ≤ |x.toRat| → ∃ n : ℤ, x.toRat = n := by
  have hfloat (x : Finite) : (∃ b, ConvertedAmount.ofProduct? (.finite x) = some (.float b)) ↔
      2 ^ 96 ≤ |x.toRat| := by
    rw [← ConvertedAmount.exists_float_iff]
    simp only [ConvertedAmount.ofProduct?, Option.some.injEq]
  refine ⟨hfloat, fun x => ?_, fun x n h => ?_, fun x => ConvertedAmount.exists_int_of_le⟩
  · rw [← not_le, ← hfloat]
    rcases hc : ConvertedAmount.ofFinite x with d | b <;> simp [ConvertedAmount.ofProduct?, hc]
  · exact ⟨_, rfl, ConvertedAmount.value?_of_whole h, ConvertedAmount.ofFinite_of_whole h⟩

/-- A whole number of 16 digits whose unit is a half, and the first one that is no decimal. -/
theorem whole_amounts_unchanged_at_ends :
    let x : Finite := ⟨true, 2 ^ 53 - 2, -1, by decide⟩
    let y : Finite := ⟨false, 2 ^ 52, 44, by decide⟩
    x.toRat = (-4503599627370495 : ℤ) ∧ y.toRat = (2 ^ 96 : ℤ) ∧
      ConvertedAmount.ofProduct? (.finite x) = some (.exact ⟨true, 4503599627370495, 0⟩) ∧
      ConvertedAmount.ofProduct? (.finite y) = some (.float (.finite y)) := by
  intro x y
  have hx : x.toRat = (-4503599627370495 : ℤ) := by
    simp only [Finite.toRat, Finite.magnitude_eq, withSign, x]
    norm_num
  have hy : y.toRat = (2 ^ 96 : ℤ) := by
    simp only [Finite.toRat, Finite.magnitude_eq, withSign, y]
    norm_num
  obtain ⟨c, hc, -, rfl⟩ := whole_amounts_unchanged.2.2.1 x _ hx
  obtain ⟨d, hd, -, rfl⟩ := whole_amounts_unchanged.2.2.1 y _ hy
  exact ⟨hx, hy, hc, hd⟩

end CurrencyDesk
