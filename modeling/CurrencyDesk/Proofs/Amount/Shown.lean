import CurrencyDesk.Proofs.Amount.Accuracy
/-!
# A shown decimal is shown as itself

A number with a fraction is shown as a reduced decimal of at most two places, whose
coefficient is below `2 ^ 52` where there are places and not above the mantissas where there
are none. Such a decimal is a fixed point: the number that it rounds to is shown as it again.

* A whole number below `2 ^ 53` is a binary64 number itself, and its halvings are absorbed
  without a remainder.
* With a coefficient below `10 ^ 15` the decimal is a short one, and the hundredths of a short
  decimal survive its binary form (`hundredths_ofFraction`).
* From `10 ^ 15` up to `2 ^ 52` the decimal has 16 digits, and the binary form is off by two
  fifths of its last place at most: with one place the number is below `2 ^ 49`, with two
  below `2 ^ 46`. More places would make the coefficient too long, a place less would have
  been rounded away only from a coefficient of `2 ^ 52` or more, and on its own scale the
  coefficient is off by less than 1.

Key definitions: `Decimal.Shown`.
Key theorems: `shown_of_exponent_neg`, `eq_of_shortened`, `Shown.ofFinite_eq`.
-/

namespace CurrencyDesk

open Binary64

namespace Decimal

/-- What a number with a fraction is shown as: a reduced decimal of at most two places, with a
coefficient that is not long. -/
structure Shown (d : Decimal) : Prop where
  reduced : d.Reduced
  places_le : d.places ≤ 2
  whole : d.places = 0 → d.coefficient < 2 ^ 53
  short : d.places ≠ 0 → d.coefficient < 2 ^ 52

/-! ### What is shown -/

theorem dropZeros_le : ∀ p c : Nat, (dropZeros p c).1 ≤ c ∧ (dropZeros p c).2 ≤ p
  | 0, _ => ⟨le_rfl, le_rfl⟩
  | p + 1, c => by
    rw [dropZeros]
    split_ifs
    · obtain ⟨hc, hp⟩ := dropZeros_le p (c / 10)
      exact ⟨hc.trans (Nat.div_le_self c 10), hp.trans (Nat.le_succ p)⟩
    · exact ⟨le_rfl, le_rfl⟩

theorem normalize_le (d : Decimal) :
    d.normalize.coefficient ≤ d.coefficient ∧ d.normalize.places ≤ d.places := by
  unfold normalize
  split_ifs
  · exact ⟨Nat.zero_le _, Nat.zero_le _⟩
  · exact dropZeros_le d.places d.coefficient

theorem round_places_le (d : Decimal) : (d.round 2).places ≤ 2 ∧ (d.round 2).places ≤ d.places := by
  unfold round
  split_ifs with hp
  · exact ⟨hp, le_rfl⟩
  · exact ⟨le_rfl, (not_le.mp hp).le⟩

theorem round_coefficient_le (d : Decimal) : (d.round 2).coefficient ≤ d.coefficient := by
  unfold round
  split_ifs with hp
  · exact le_rfl
  · -- a unit of the places that go is ten or more, so half of one does not reach a coefficient
    obtain ⟨k, hk⟩ : ∃ k, d.places - 2 = k + 1 := ⟨d.places - 3, by omega⟩
    have hunit : 1 ≤ 10 ^ k := Nat.one_le_pow _ _ (by decide)
    dsimp only
    rw [hk, pow_succ]
    refine Nat.le_of_lt_succ (Nat.div_lt_of_lt_mul ?_)
    nlinarith

theorem ofFractional_short (x : Finite) :
    (ofFractional x).places ≠ 0 → (ofFractional x).coefficient < 2 ^ 52 := by
  intro hp
  have hshort : (shortened x.mantissa (-x.exponent).toNat).1 < 2 ^ 52 ∨
      (shortened x.mantissa (-x.exponent).toNat).2 = 0 :=
    (dropImprecise_spec _ _).2.2
  have hcoefficient : (ofFractional x).coefficient =
      (ofFraction x.mantissa (-x.exponent).toNat).1 := rfl
  have hplaces : (ofFractional x).places = (ofFraction x.mantissa (-x.exponent).toNat).2 := rfl
  rw [hplaces, ofFraction_eq] at hp
  rw [hcoefficient, ofFraction_eq]
  obtain ⟨hc, hp'⟩ := dropZeros_le (shortened x.mantissa (-x.exponent).toNat).2
    (shortened x.mantissa (-x.exponent).toNat).1
  rcases hshort with hlt | hzero
  · exact hc.trans_lt hlt
  · omega

theorem magnitude_of_places_eq_zero {d : Decimal} (h : d.places = 0) :
    d.magnitude = d.coefficient := by
  rw [magnitude, h, pow_zero, div_one]

theorem shown_of_exponent_neg {x : Finite} (h : x.exponent < 0) :
    ∃ d : Decimal, ConvertedAmount.ofFinite x = .exact d ∧ d.Shown := by
  refine ⟨((ofFractional x).round 2).normalize, ?_, normalize_reduced _, ?_, fun hp => ?_,
    fun hp => ?_⟩
  · rw [ConvertedAmount.ofFinite, ofFinite?_of_exponent_neg h]
  · exact (normalize_le _).2.trans (round_places_le _).1
  · -- the number is below `2 ^ 52`, and what is shown is near it
    have hrounds : x.Rounds x.negative |x.toRat| := by
      rw [Finite.abs_toRat]
      exact x.rounds_magnitude
    obtain ⟨v, hv, herr⟩ := exists_value_of_rounds hrounds (by rw [Finite.abs_toRat, Finite.toRat])
    rw [ConvertedAmount.ofFinite, ofFinite?_of_exponent_neg h] at hv
    simp only [ConvertedAmount.value?] at hv
    obtain rfl := Option.some.inj hv
    generalize ((ofFractional x).round 2).normalize = d at *
    have hx := Finite.magnitude_lt_of_exponent_neg h
    have hd : |d.toRat| = d.coefficient := by
      rw [d.abs_toRat, magnitude_of_places_eq_zero hp]
    have htriangle := abs_sub_abs_le_abs_sub d.toRat x.toRat
    rw [hd, Finite.abs_toRat] at htriangle
    rw [Finite.abs_toRat] at herr
    have hlt : (d.coefficient : ℚ) < 2 ^ 53 := by linarith
    exact_mod_cast hlt
  · have hplaces := (normalize_le ((ofFractional x).round 2)).2
    have hplaces' := (round_places_le (ofFractional x)).2
    refine (normalize_le _).1.trans_lt ((round_coefficient_le _).trans_lt ?_)
    exact ofFractional_short x (by omega)

/-! ### Whole numbers -/

theorem absorbHalves_mul_two_pow : ∀ k c p : Nat, absorbHalves k (c * 2 ^ k) p = (c, p - k)
  | 0, c, p => by rw [absorbHalves, pow_zero, mul_one, Nat.sub_zero]
  | k + 1, c, p => by
    have hhalf : c * 2 ^ (k + 1) = 2 * (c * 2 ^ k) := by ring
    rw [absorbHalves, hhalf, if_pos (Nat.mul_mod_right 2 _), Nat.mul_div_cancel_left _ (by decide),
      absorbHalves_mul_two_pow k c, Nat.sub_sub, Nat.add_comm 1 k]

/-- A whole number comes out of its binary fraction. -/
theorem ofFraction_mul_two_pow (c k : Nat) : ofFraction (c * 2 ^ k) k = (c, 0) := by
  simp only [ofFraction, absorbHalves_mul_two_pow, Nat.sub_self, Nat.zero_sub, dropExcess,
    dropImprecise, dropZeros]

theorem ofFractional_of_whole {x : Finite} {n : Nat} (he : x.exponent < 0)
    (h : x.magnitude = n) : ofFractional x = ⟨x.negative, n, 0⟩ := by
  have hmantissa : x.mantissa = n * 2 ^ (-x.exponent).toNat := by
    rw [Finite.magnitude_eq_div he, div_eq_iff (by positivity)] at h
    exact_mod_cast h
  unfold ofFractional
  rw [hmantissa, ofFraction_mul_two_pow]

theorem magnitude_ofFractional_of_whole {x : Finite} {n : Nat} (he : x.exponent < 0)
    (h : x.magnitude = n) : (ofFractional x).magnitude = n := by
  rw [ofFractional_of_whole he h, magnitude_of_places_eq_zero rfl]

end Decimal

theorem Binary64.Finite.exists_magnitude_eq {n : Nat} (h : n < 2 ^ 53) :
    ∃ x : Finite, x.magnitude = n := by
  rcases Nat.eq_zero_or_pos n with rfl | hn
  · exact ⟨.zero false, by rw [magnitude_zero, Nat.cast_zero]⟩
  · -- shift the leading bit to where a mantissa has it
    have hlog : n.log2 < 53 := (Nat.log2_lt hn.ne').mpr h
    obtain ⟨k, hk⟩ : ∃ k, 52 = n.log2 + k := Nat.exists_eq_add_of_le (by omega)
    have hlow : 2 ^ 52 ≤ n * 2 ^ k := by
      rw [hk, pow_add]
      exact Nat.mul_le_mul_right _ (Nat.log2_self_le hn.ne')
    have hhigh : n * 2 ^ k < 2 ^ 53 := by
      rw [show 53 = n.log2 + 1 + k by omega, pow_add]
      exact Nat.mul_lt_mul_of_pos_right (Nat.lt_log2_self) (Nat.two_pow_pos k)
    refine ⟨⟨false, n * 2 ^ k, -k, hhigh, by omega, by omega, .inr hlow⟩, ?_⟩
    rw [magnitude_eq, zpow_neg, zpow_natCast]
    push_cast
    field_simp

theorem Binary64.Finite.Rounds.magnitude_eq {x y : Finite} {negative : Bool}
    (h : x.Rounds negative y.magnitude) : x.magnitude = y.magnitude := by
  have hnearest := h.nearest y
  rw [sub_self, abs_zero] at hnearest
  exact sub_eq_zero.mp (abs_eq_zero.mp (le_antisymm hnearest (abs_nonneg _)))

/-! ### Sixteen digits -/

namespace Decimal

/-- A decimal of 16 digits and one or two places comes out of what is near enough to it. -/
theorem eq_of_shortened {v : ℚ} {s j c p : Nat} (hs : 10 ^ 15 ≤ s) (hs' : s < 2 ^ 52)
    (hj : j ≤ 2) (hj' : j ≠ 0) (hv : |v * 10 ^ j - s| ≤ 2 / 5) (h : Shortened v c p) :
    (c / 10 ^ p : ℚ) = s / 10 ^ j := by
  obtain ⟨hlow, hhigh⟩ := abs_le.mp hv
  have hlong : (10 ^ 15 : ℚ) ≤ s := by exact_mod_cast hs
  have hshort : (s : ℚ) + 1 ≤ 2 ^ 52 := by exact_mod_cast hs'
  have hupper := h.upper
  have hlower := h.lower
  have hpos : 0 < v := by
    by_contra hneg
    have := mul_nonpos_of_nonpos_of_nonneg (not_lt.mp hneg) (ten_pow_pos j).le
    linarith
  -- powers of ten more make the value larger
  have hmono {a b : Nat} (hab : a ≤ b) : v * 10 ^ a ≤ v * 10 ^ b :=
    mul_le_mul_of_nonneg_left (pow_le_pow_right₀ (by norm_num) hab) hpos.le
  have hten (a : Nat) : v * 10 ^ (a + 1) = 10 * (v * 10 ^ a) := by ring
  have hc : c < 2 ^ 52 := by
    rcases h.short with hc | rfl
    · exact hc
    · have hle : v * 10 ^ (0 + 1) ≤ v * 10 ^ j := hmono (Nat.pos_of_ne_zero hj')
      rw [hten] at hle
      have hlt : (c : ℚ) < 2 ^ 52 := by linarith
      exact_mod_cast hlt
  have hc' : (c : ℚ) < 2 ^ 52 := by exact_mod_cast hc
  have hpj : p ≤ j := by
    by_contra hlt
    have hle := hmono (Nat.succ_le_of_lt (not_le.mp hlt))
    rw [Nat.succ_eq_add_one, hten] at hle
    linarith
  rcases hpj.eq_or_lt with rfl | hlt
  · have heq : c = s := eq_of_lt_add_one (by linarith) (by linarith)
    rw [heq]
  · rcases h.long with hp | ⟨-, hbefore⟩ | ⟨hkept₁, hkept₂⟩
    · omega
    · -- a place would not have been rounded away
      have hle := hmono hlt
      rw [Nat.succ_eq_add_one] at hle
      linarith
    · obtain ⟨k, rfl⟩ := Nat.exists_eq_add_of_le hpj
      have hk := ten_pow_pos k
      have hkept₁' := mul_le_mul_of_nonneg_right hkept₁ hk.le
      have hkept₂' := mul_le_mul_of_nonneg_right hkept₂ hk.le
      rw [mul_assoc, ← pow_add] at hkept₂'
      rw [mul_assoc (_ * v), ← pow_add] at hkept₁'
      have heq : c * 10 ^ k = s := by
        refine eq_of_lt_add_one ?_ ?_ <;> push_cast <;> linarith
      rw [← heq, pow_add]
      push_cast
      field_simp

/-! ### The fixed points -/

variable {d : Decimal} {x : Finite}

/-- The hundredths decide what is shown. -/
theorem ofFinite_of_hundredths (hd : d.Reduced) (hp : d.places ≤ 2) (he : x.exponent < 0)
    (hsign : x.negative = d.negative)
    (h : hundredths (ofFractional x).magnitude = hundredths d.magnitude) :
    ConvertedAmount.ofFinite x = .exact d := by
  rw [ConvertedAmount.ofFinite, ofFinite?_of_exponent_neg he]
  refine congrArg _ ((normalize_reduced _).eq_of_toRat_eq hd ?_)
  have hcents : (hundredths d.magnitude / 100 : ℚ) = d.magnitude := hundredths_of_places_le hp
  rw [normalize_toRat, toRat, round_magnitude, round_negative, h, hcents, toRat]
  exact congrArg (withSign · d.magnitude) hsign

theorem magnitude_le_coefficient (d : Decimal) : d.magnitude ≤ d.coefficient :=
  div_le_self (Nat.cast_nonneg _) (one_le_pow₀ (by norm_num))

theorem Shown.magnitude_lt (h : d.Shown) : d.magnitude < 2 ^ 53 := by
  have hc : d.coefficient < 2 ^ 53 := by
    by_cases hp : d.places = 0
    · exact h.whole hp
    · exact (h.short hp).trans (by decide)
  exact d.magnitude_le_coefficient.trans_lt (by exact_mod_cast hc)

/-- A whole decimal is a number of the format. -/
theorem Shown.ofFinite_eq_of_whole (hd : d.Shown) (hp : d.places = 0)
    (hx : x.Rounds d.negative d.magnitude) : ConvertedAmount.ofFinite x = .exact d := by
  have hwhole := magnitude_of_places_eq_zero hp
  obtain ⟨y, hy⟩ := Finite.exists_magnitude_eq (hd.whole hp)
  rw [hwhole, ← hy] at hx
  have hmag : x.magnitude = d.coefficient := hx.magnitude_eq.trans hy
  rcases lt_or_ge x.exponent 0 with he | he
  · refine ofFinite_of_hundredths hd.reduced hd.places_le he hx.sign ?_
    rw [magnitude_ofFractional_of_whole he hmag, hwhole]
  · have hnumerator : x.numerator = d.coefficient := by
      rw [Finite.magnitude_of_exponent_nonneg he] at hmag
      exact_mod_cast hmag
    have hlimit : d.coefficient < limit := (hd.whole hp).trans (by decide)
    rw [ConvertedAmount.ofFinite_of_exponent_nonneg he, hnumerator, if_pos hlimit, hx.sign, ← hp]

/-- With one place or two, the number that a decimal of 16 digits rounds to is off by two
fifths of the last place at most. -/
theorem Shown.abs_scaled_sub_le (hd : d.Shown) (hp : d.places ≠ 0) (hx : IsNearest x d.toRat) :
    |x.magnitude * 10 ^ d.places - d.coefficient| ≤ 2 / 5 := by
  have hcoefficient := d.magnitude_mul_ten_pow
  have hc : (d.coefficient : ℚ) < 2 ^ 52 := by exact_mod_cast hd.short hp
  have herr := abs_magnitude_sub_le x d.toRat
  have hscaled : |x.magnitude * 10 ^ d.places - d.coefficient| =
      |x.magnitude - d.magnitude| * 10 ^ d.places := by
    rw [← hcoefficient, ← sub_mul, abs_mul, abs_of_pos (ten_pow_pos _)]
  rw [hscaled]
  rw [d.abs_toRat] at herr
  have hplaces : d.places = 1 ∨ d.places = 2 := by
    have := hd.places_le
    omega
  rcases hplaces with h | h <;> rw [h] at hcoefficient ⊢
  · have hlt : |d.toRat| < 2 ^ (48 + 1 : ℤ) := by
      rw [d.abs_toRat]
      norm_num
      linarith
    have hunit := herr.trans (hx.abs_sub_le (by omega) (by omega) hlt)
    norm_num at hunit ⊢
    linarith
  · have hlt : |d.toRat| < 2 ^ (45 + 1 : ℤ) := by
      rw [d.abs_toRat]
      norm_num
      linarith
    have hunit := herr.trans (hx.abs_sub_le (by omega) (by omega) hlt)
    norm_num at hunit ⊢
    linarith

theorem Shown.hundredths_ofFractional (hd : d.Shown) (hp : d.places ≠ 0)
    (hx : IsNearest x d.toRat) (he : x.exponent < 0) :
    hundredths (ofFractional x).magnitude = hundredths d.magnitude := by
  rcases lt_or_ge d.coefficient (10 ^ 15) with hlt | hge
  · have hshort : ShortDecimal d.toRat := by
      refine ⟨?_, d.coefficient, -d.places, hlt, ?_⟩
      · rw [d.abs_toRat]
        exact d.magnitude_le_coefficient.trans_lt (by exact_mod_cast hlt)
      · rw [d.abs_toRat, magnitude, zpow_neg, zpow_natCast, div_eq_mul_inv]
    rw [hundredths_ofFraction hx hshort he, d.abs_toRat]
  · have hscaled := hd.abs_scaled_sub_le hp hx
    have hlarge : 1 / 10 ^ 4 ≤ x.magnitude := by
      have hge' : (10 ^ 15 : ℚ) ≤ d.coefficient := by exact_mod_cast hge
      have hplaces : (10 : ℚ) ^ d.places ≤ 10 ^ 2 := pow_le_pow_right₀ (by norm_num) hd.places_le
      have := mul_le_mul_of_nonneg_left hplaces x.magnitude_nonneg
      linarith [(abs_le.mp hscaled).1]
    rw [magnitude_ofFractional, eq_of_shortened hge (hd.short hp) hd.places_le hp hscaled
      (shortened_of_exponent_neg he hlarge)]
    rfl

/-- **A shown decimal is shown as itself.** -/
theorem Shown.ofFinite_eq (hd : d.Shown) (hx : x.Rounds d.negative d.magnitude) :
    ConvertedAmount.ofFinite x = .exact d := by
  by_cases hp : d.places = 0
  · exact hd.ofFinite_eq_of_whole hp hx
  · have habs : |d.toRat| = d.magnitude := by
      rw [toRat, abs_withSign, abs_of_nonneg d.magnitude_nonneg]
    have hnear : IsNearest x d.toRat :=
      Finite.Rounds.isNearest (d.abs_toRat.symm ▸ hx) (by rw [d.abs_toRat, toRat])
    have he : x.exponent < 0 := by
      have hle := hx.magnitude_le_two_mul d.magnitude_nonneg
      have hc : (d.coefficient : ℚ) < 2 ^ 52 := by exact_mod_cast hd.short hp
      have hten : (10 : ℚ) ≤ 10 ^ d.places := le_self_pow₀ (by norm_num) hp
      have hscaled := d.magnitude_mul_ten_pow
      have := mul_le_mul_of_nonneg_left hten d.magnitude_nonneg
      exact Finite.exponent_neg (by linarith)
    exact ofFinite_of_hundredths hd.reduced hd.places_le he hx.sign
      (hd.hundredths_ofFractional hp hnear he)

end Decimal

end CurrencyDesk
