import CurrencyDesk.Proofs.Amount.Accuracy
import Mathlib.Order.Iterate
/-!
# Larger numbers are not shown as smaller amounts

Two numbers next to each other may be shortened in different ways: one in more halvings than
the other, with more bits dropped, and with places rounded away down to another scale. Their
order survives, for three reasons.

* The halvings lose far less than two numbers are apart (`absorbHalves_mono`).
* To round a place away keeps the order of whole numbers, and a number that ends in a zero
  there is not moved; so down to one scale the order is kept wherever both came from
  (`iterate_tenth_le_iterate`), and a decimal that had no more places than that scale is not
  passed (`le_iterate_tenth_of_div_le`, `iterate_tenth_le_of_div_le`).
* Places are rounded away only from a coefficient of `2 ^ 52` or more. So the smaller of two
  numbers is not left on a coarser scale than the larger one, unless it had no more places;
  and a larger number that is left on the coarser scale is above all that has a coefficient
  below `2 ^ 52` on the finer one (`RoundedAway.div_le`).

Rounding to hundredths keeps the order, and whole numbers are shown as they are. The sign is
put in front at the end, so that a number and its negative are shown alike.

Key definitions: `RoundedAway`, `ConvertedAmount.shownMagnitude`.
Key theorems: `RoundedAway.div_le`, `magnitude_ofFractional_mono`, `shownMagnitude_mono`,
`value_mono_and_odd`.
-/

namespace CurrencyDesk

open Binary64

namespace Decimal

/-! ### Places rounded away one by one -/

theorem tenth_mono : Monotone tenth := by
  intro c c' h
  unfold tenth
  split_ifs <;> omega

theorem tenth_le_self : tenth ≤ id := by
  intro c
  show tenth c ≤ c
  unfold tenth
  split_ifs <;> omega

theorem tenth_mul_ten (c : Nat) : tenth (c * 10) = c := by
  rw [tenth, if_neg (by omega), Nat.mul_div_cancel c (by decide)]

theorem iterate_tenth_mul_ten_pow : ∀ k c : Nat, tenth^[k] (c * 10 ^ k) = c
  | 0, c => by rw [pow_zero, mul_one, Function.iterate_zero_apply]
  | k + 1, c => by
    rw [Function.iterate_succ_apply, pow_succ, ← mul_assoc, tenth_mul_ten,
      iterate_tenth_mul_ten_pow k c]

theorem le_iterate_tenth {k c c' : Nat} (h : c * 10 ^ k ≤ c') : c ≤ tenth^[k] c' :=
  calc c = tenth^[k] (c * 10 ^ k) := (iterate_tenth_mul_ten_pow k c).symm
    _ ≤ tenth^[k] c' := tenth_mono.iterate k h

theorem iterate_tenth_le {k c c' : Nat} (h : c ≤ c' * 10 ^ k) : tenth^[k] c ≤ c' :=
  calc tenth^[k] c ≤ tenth^[k] (c' * 10 ^ k) := tenth_mono.iterate k h
    _ = c' := iterate_tenth_mul_ten_pow k c'

section Scales

variable {c c' p p' q : Nat}

/-- An order of values, in whole numbers. -/
theorem div_ten_pow_le_iff : (c / 10 ^ p : ℚ) ≤ c' / 10 ^ p' ↔ c * 10 ^ p' ≤ c' * 10 ^ p := by
  rw [div_le_div_iff₀ (ten_pow_pos p) (ten_pow_pos p')]
  exact_mod_cast Iff.rfl

/-- A decimal with no more places than are left is not passed from above. -/
theorem le_iterate_tenth_of_div_le (h : (c / 10 ^ p : ℚ) ≤ c' / 10 ^ p') (hp : p ≤ q)
    (hq : q ≤ p') : (c / 10 ^ p : ℚ) ≤ (tenth^[p' - q] c' : Nat) / 10 ^ q := by
  obtain ⟨i, rfl⟩ := Nat.exists_eq_add_of_le hp
  obtain ⟨j, rfl⟩ := Nat.exists_eq_add_of_le hq
  rw [div_ten_pow_le_iff] at h ⊢
  have hscaled : c * 10 ^ i * 10 ^ j ≤ c' := by
    refine Nat.le_of_mul_le_mul_right ?_ (Nat.pow_pos (n := p) (by decide : 0 < 10))
    calc c * 10 ^ i * 10 ^ j * 10 ^ p = c * 10 ^ (p + i + j) := by ring
      _ ≤ c' * 10 ^ p := h
  rw [Nat.add_sub_cancel_left]
  calc c * 10 ^ (p + i) = c * 10 ^ i * 10 ^ p := by ring
    _ ≤ tenth^[j] c' * 10 ^ p := Nat.mul_le_mul_right _ (le_iterate_tenth hscaled)

/-- A decimal with no more places than are left is not passed from below. -/
theorem iterate_tenth_le_of_div_le (h : (c' / 10 ^ p' : ℚ) ≤ c / 10 ^ p) (hp : p ≤ q)
    (hq : q ≤ p') : ((tenth^[p' - q] c' : Nat) / 10 ^ q : ℚ) ≤ c / 10 ^ p := by
  obtain ⟨i, rfl⟩ := Nat.exists_eq_add_of_le hp
  obtain ⟨j, rfl⟩ := Nat.exists_eq_add_of_le hq
  rw [div_ten_pow_le_iff] at h ⊢
  have hscaled : c' ≤ c * 10 ^ i * 10 ^ j := by
    refine Nat.le_of_mul_le_mul_right ?_ (Nat.pow_pos (n := p) (by decide : 0 < 10))
    calc c' * 10 ^ p ≤ c * 10 ^ (p + i + j) := h
      _ = c * 10 ^ i * 10 ^ j * 10 ^ p := by ring
  rw [Nat.add_sub_cancel_left]
  calc tenth^[j] c' * 10 ^ p ≤ c * 10 ^ i * 10 ^ p :=
        Nat.mul_le_mul_right _ (iterate_tenth_le hscaled)
    _ = c * 10 ^ (p + i) := by ring

/-- Down to one scale the order is kept, however many places are rounded away on either
side. -/
theorem iterate_tenth_le_iterate (h : (c / 10 ^ p : ℚ) ≤ c' / 10 ^ p') (hp : q ≤ p)
    (hp' : q ≤ p') : tenth^[p - q] c ≤ tenth^[p' - q] c' := by
  have hsplit {a b d : Nat} (hb : q ≤ b) (hba : b ≤ a) :
      tenth^[a - q] d = tenth^[b - q] (tenth^[a - b] d) := by
    rw [← Function.iterate_add_apply]
    congr 2
    omega
  rcases le_total p p' with hle | hle
  · -- round the larger one away to the scale of the smaller one first
    have hmeet := le_iterate_tenth_of_div_le h le_rfl hle
    rw [div_le_div_iff_of_pos_right (ten_pow_pos p), Nat.cast_le] at hmeet
    rw [hsplit hp hle]
    exact tenth_mono.iterate _ hmeet
  · have hmeet := iterate_tenth_le_of_div_le h le_rfl hle
    rw [div_le_div_iff_of_pos_right (ten_pow_pos p'), Nat.cast_le] at hmeet
    rw [hsplit hp' hle]
    exact tenth_mono.iterate _ hmeet

end Scales

/-! ### What is left -/

/-- `c' / 10 ^ p'` is what is left of `c / 10 ^ p` when places are rounded away one by one,
half up: at most 28 are left, and fewer only while the coefficient is too long. -/
structure RoundedAway (c p c' p' : Nat) : Prop where
  places_le : p' ≤ p
  coefficient : c' = tenth^[p - p'] c
  most : p' ≤ 28
  short : c' < 2 ^ 52 ∨ p' = 0
  /-- With one place more the coefficient was too long, where one was needed. -/
  long : p' = p ∨ p' = 28 ∨ p' < p ∧ 2 ^ 52 ≤ tenth^[p - (p' + 1)] c

section RoundedAway

variable {c p c' p' c₁ p₁ q₁ c₂ p₂ q₂ : Nat}

/-- A coefficient that was too long with one place more is not short without it. -/
theorem tenth_le_iterate_of_long (hp : p' < p) (h : 2 ^ 52 ≤ tenth^[p - (p' + 1)] c) :
    tenth (2 ^ 52) ≤ tenth^[p - p'] c := by
  have hstep : p - p' = p - (p' + 1) + 1 := by omega
  rw [hstep, Function.iterate_succ_apply']
  exact tenth_mono h

/-- On a finer scale a short coefficient stays below one that has just been shortened. -/
theorem div_le_of_coarser (hq : q₂ < q₁) (h₁ : c₁ < 2 ^ 52) (h₂ : tenth (2 ^ 52) ≤ c₂) :
    (c₁ / 10 ^ q₁ : ℚ) ≤ c₂ / 10 ^ q₂ := by
  have hlong : 450359962737050 ≤ c₂ := h₂
  rw [div_ten_pow_le_iff]
  calc c₁ * 10 ^ q₂ ≤ c₂ * 10 * 10 ^ q₂ := Nat.mul_le_mul_right _ (by omega)
    _ = c₂ * 10 ^ (q₂ + 1) := by ring
    _ ≤ c₂ * 10 ^ q₁ := Nat.mul_le_mul_left _ (Nat.pow_le_pow_right (by decide) hq)

/-- **What is left keeps the order.** -/
theorem RoundedAway.div_le {a b : Nat} (h₁ : RoundedAway c₁ p₁ a q₁) (h₂ : RoundedAway c₂ p₂ b q₂)
    (h : (c₁ / 10 ^ p₁ : ℚ) ≤ c₂ / 10 ^ p₂) : (a / 10 ^ q₁ : ℚ) ≤ b / 10 ^ q₂ := by
  obtain ⟨hp₁, rfl, hmost₁, hshort₁, hlong₁⟩ := h₁
  obtain ⟨hp₂, rfl, hmost₂, hshort₂, hlong₂⟩ := h₂
  rcases lt_trichotomy q₁ q₂ with hlt | rfl | hlt
  · -- the smaller one is left on the coarser scale: it had no more places
    rcases hlong₁ with rfl | hq | ⟨hq, hlong⟩
    · rw [Nat.sub_self, Function.iterate_zero_apply]
      exact le_iterate_tenth_of_div_le h hlt.le hp₂
    · omega
    · have hkept : tenth^[p₁ - (q₁ + 1)] c₁ ≤ tenth^[p₂ - (q₁ + 1)] c₂ :=
        iterate_tenth_le_iterate h hq (by omega)
      have hdrop : tenth^[p₂ - (q₁ + 1)] c₂ ≤ tenth^[p₂ - q₂] c₂ :=
        Function.antitone_iterate_of_le_id tenth_le_self (by omega) c₂
      omega
  · rw [div_le_div_iff_of_pos_right (ten_pow_pos q₁), Nat.cast_le]
    exact iterate_tenth_le_iterate h hp₁ hp₂
  · -- the larger one is left on the coarser scale: it had no more places, or is far above
    rcases hlong₂ with rfl | hq | ⟨hq, hlong⟩
    · rw [Nat.sub_self, Function.iterate_zero_apply]
      exact iterate_tenth_le_of_div_le h hlt.le hp₁
    · omega
    · exact div_le_of_coarser hlt (by omega) (tenth_le_iterate_of_long hq hlong)

/-- Digits that do not run out are rounded away one by one. -/
theorem dropExcess_eq_of_places : ∀ (k c : Nat) {p : Nat}, (dropExcess k c p).2 = p - k →
    k < p ∨ k = 0 → dropExcess k c p = (tenth^[k] c, p - k)
  | 0, _, _, _, _ => rfl
  | k + 1, c, p, h, hk => by
    rw [dropExcess] at h ⊢
    split_ifs at h ⊢ with hc
    · dsimp only at h
      omega
    · rw [Function.iterate_succ_apply, show p - (k + 1) = p - 1 - k by omega] at *
      exact dropExcess_eq_of_places k (tenth c) h (by omega)

/-- Places are rounded away one by one while the coefficient is too long. -/
theorem dropImprecise_eq : ∀ p c : Nat, (dropImprecise p c).2 ≤ p ∧
    (dropImprecise p c).1 = tenth^[p - (dropImprecise p c).2] c ∧
    ((dropImprecise p c).2 = p ∨ (dropImprecise p c).2 < p ∧
      2 ^ 52 ≤ tenth^[p - ((dropImprecise p c).2 + 1)] c)
  | 0, c => ⟨le_rfl, rfl, .inl rfl⟩
  | p + 1, c => by
    rw [dropImprecise]
    split_ifs with hc
    · obtain ⟨hle, heq, hlong⟩ := dropImprecise_eq p (tenth c)
      have hstep {q : Nat} (hq : q ≤ p) : tenth^[p + 1 - q] c = tenth^[p - q] (tenth c) := by
        rw [Nat.succ_sub hq, Function.iterate_succ_apply]
      refine ⟨Nat.le_succ_of_le hle, ?_, .inr ⟨Nat.lt_succ_of_le hle, ?_⟩⟩
      · rw [hstep hle]
        exact heq
      · rcases hlong with hq | ⟨hq, hlong⟩
        · rw [hq, Nat.sub_self]
          exact hc
        · rw [hstep hq]
          exact hlong
    · exact ⟨le_rfl, by rw [Nat.sub_self]; rfl, .inl rfl⟩

/-- What the passes after the halvings leave of a value that is not too small. -/
theorem shortened_roundedAway {h : Nat} (m : Nat) (hh : h ≤ 1074)
    (hv : (1 / 10 ^ 4 : ℚ) ≤ m / 2 ^ h) :
    RoundedAway (absorbHalves h m h).1 (absorbHalves h m h).2 (shortened m h).1
      (shortened m h).2 := by
  obtain ⟨hlow, -⟩ := absorbHalves_value m hh
  unfold shortened
  generalize absorbHalves h m h = s at *
  obtain ⟨c, p⟩ := s
  dsimp only at hlow ⊢
  have hexcess : dropExcess (p - 28) c p = (tenth^[p - 28] c, p - (p - 28)) :=
    dropExcess_eq_of_places _ _ (dropExcess_of_le hlow hv).2 (by omega)
  rw [hexcess]
  dsimp only
  obtain ⟨hle, heq, hlong⟩ := dropImprecise_eq (p - (p - 28)) (tenth^[p - 28] c)
  have hshort := (dropImprecise_spec (p - (p - 28)) (tenth^[p - 28] c)).2.2
  generalize dropImprecise (p - (p - 28)) (tenth^[p - 28] c) = s at *
  obtain ⟨c', p'⟩ := s
  dsimp only at hle heq hlong hshort ⊢
  have hjoin {q : Nat} (hq : q ≤ p - (p - 28)) :
      tenth^[p - (p - 28) - q] (tenth^[p - 28] c) = tenth^[p - q] c := by
    rw [← Function.iterate_add_apply]
    congr 2
    omega
  refine ⟨by omega, heq.trans (hjoin hle), by omega, hshort, ?_⟩
  rcases hlong with hq | ⟨hq, hlong⟩
  · omega
  · rw [hjoin hq] at hlong
    exact .inr (.inr ⟨by omega, hlong⟩)

end RoundedAway

/-! ### Numbers with a fraction -/

theorem hundredths_mono {r t : ℚ} (h : r ≤ t) : hundredths r ≤ hundredths t :=
  Int.floor_mono (by linarith)

variable {x y : Finite}

/-- The halvings lose less than two numbers are apart. -/
theorem absorbHalves_mono {m n h k : Nat} (hh : h ≤ 1074) (hk : k ≤ 1074)
    (hlt : (m / 2 ^ h : ℚ) ≤ (1 - 1 / 2 ^ 54) * (n / 2 ^ k)) :
    ((absorbHalves h m h).1 / 10 ^ (absorbHalves h m h).2 : ℚ) ≤
      (absorbHalves k n k).1 / 10 ^ (absorbHalves k n k).2 := by
  obtain ⟨-, hupper⟩ := absorbHalves_value m hh
  obtain ⟨hlower, -⟩ := absorbHalves_value n hk
  have hpos : (0 : ℚ) ≤ n / 2 ^ k := by positivity
  linarith

/-- Numbers that are not too small keep their order when they are shortened. -/
theorem magnitude_ofFractional_mono (hx : x.exponent < 0) (hy : y.exponent < 0)
    (hlow : 1 / 10 ^ 4 ≤ x.magnitude) (h : x.magnitude < y.magnitude) :
    (ofFractional x).magnitude ≤ (ofFractional y).magnitude := by
  have hgap := Finite.magnitude_le_of_lt h
  have hlow' := hlow.trans h.le
  rw [Finite.magnitude_eq_div hx] at hlow hgap
  rw [Finite.magnitude_eq_div hy] at hlow' hgap
  rw [magnitude_ofFractional, magnitude_ofFractional]
  exact (shortened_roundedAway _ (halvings_le x) hlow).div_le
    (shortened_roundedAway _ (halvings_le y) hlow')
    (absorbHalves_mono (halvings_le x) (halvings_le y) hgap)

theorem magnitude_ofFractional_le (hx : x.exponent < 0) (hlow : 1 / 10 ^ 4 ≤ x.magnitude) :
    (ofFractional x).magnitude ≤ 2 ^ 52 := by
  have hlt := Finite.magnitude_lt_of_exponent_neg hx
  rw [Finite.magnitude_eq_div hx] at hlow hlt
  obtain ⟨-, hupper⟩ := absorbHalves_value x.mantissa (halvings_le x)
  -- the bound is a whole number, of which nothing is rounded away
  have hbound : RoundedAway (2 ^ 52) 0 (2 ^ 52) 0 :=
    ⟨le_rfl, rfl, Nat.zero_le _, .inr rfl, .inl rfl⟩
  have hle := (shortened_roundedAway _ (halvings_le x) hlow).div_le hbound
    (by push_cast; linarith)
  rw [magnitude_ofFractional]
  push_cast at hle
  linarith

end Decimal

/-! ### What is shown -/

namespace ConvertedAmount

open Decimal

variable {x y : Finite}

/-- The magnitude of what a finite number is shown as. -/
def shownMagnitude (x : Finite) : ℚ :=
  if x.exponent < 0 then hundredths (ofFractional x).magnitude / 100 else x.magnitude

theorem shownMagnitude_of_neg (h : x.exponent < 0) :
    shownMagnitude x = hundredths (ofFractional x).magnitude / 100 :=
  if_pos h

theorem shownMagnitude_of_nonneg (h : 0 ≤ x.exponent) : shownMagnitude x = x.magnitude :=
  if_neg (not_lt.mpr h)

theorem value?_ofFinite (x : Finite) :
    (ofFinite x).value? = some (withSign x.negative (shownMagnitude x)) := by
  rcases lt_or_ge x.exponent 0 with he | he
  · rw [value?_ofFinite_of_exponent_neg he, shownMagnitude_of_neg he]
  · rw [value?_ofFinite_of_exponent_nonneg he, shownMagnitude_of_nonneg he, Finite.toRat]

theorem shownMagnitude_nonneg (x : Finite) : 0 ≤ shownMagnitude x := by
  rcases lt_or_ge x.exponent 0 with he | he
  · have hzero : 0 ≤ hundredths (ofFractional x).magnitude := by
      rw [← hundredths_eq_zero le_rfl (by norm_num : (0 : ℚ) < 1 / 200)]
      exact hundredths_mono (magnitude_nonneg _)
    rw [shownMagnitude_of_neg he]
    positivity
  · rw [shownMagnitude_of_nonneg he]
    exact x.magnitude_nonneg

theorem shownMagnitude_of_small (h : x.magnitude < 2 / 10 ^ 3) : shownMagnitude x = 0 := by
  have he : x.exponent < 0 := Finite.exponent_neg (by linarith)
  have hzero : hundredths (ofFractional x).magnitude = 0 := by
    rw [magnitude_ofFractional]
    exact hundredths_of_small h (shortened_le_of_exponent_neg he)
  rw [shownMagnitude_of_neg he, hzero, Int.cast_zero, zero_div]

theorem shownMagnitude_congr (h : x.magnitude = y.magnitude) :
    shownMagnitude x = shownMagnitude y := by
  have heq : ({ x with negative := y.negative } : Finite) = y := Finite.eq_of_magnitude_eq rfl h
  rw [← heq]
  rfl

theorem shownMagnitude_le (he : x.exponent < 0) : shownMagnitude x ≤ 2 ^ 52 := by
  rcases lt_or_ge x.magnitude (2 / 10 ^ 3) with hsmall | hlarge
  · rw [shownMagnitude_of_small hsmall]
    norm_num
  · have hcents : (hundredths (ofFractional x).magnitude : ℚ) ≤
        hundredths ((2 ^ 52 : Nat) / 10 ^ 0) := by
      have hle := magnitude_ofFractional_le he (by linarith)
      exact_mod_cast hundredths_mono (hle.trans (by norm_num))
    rw [shownMagnitude_of_neg he]
    calc (hundredths (ofFractional x).magnitude / 100 : ℚ)
        ≤ hundredths ((2 ^ 52 : Nat) / 10 ^ 0) / 100 := by linarith
      _ = (2 ^ 52 : Nat) / 10 ^ 0 := hundredths_of_places_le (Nat.zero_le 2)
      _ = 2 ^ 52 := by norm_num

/-- **Magnitudes are shown in their order.** -/
theorem shownMagnitude_mono (h : x.magnitude ≤ y.magnitude) :
    shownMagnitude x ≤ shownMagnitude y := by
  rcases h.eq_or_lt with heq | hlt
  · exact (shownMagnitude_congr heq).le
  rcases lt_or_ge x.magnitude (2 / 10 ^ 3) with hsmall | hlarge
  · rw [shownMagnitude_of_small hsmall]
    exact shownMagnitude_nonneg y
  rcases lt_or_ge x.exponent 0 with hx | hx <;> rcases lt_or_ge y.exponent 0 with hy | hy
  · have hcents : (hundredths (ofFractional x).magnitude : ℚ) ≤
        hundredths (ofFractional y).magnitude := by
      exact_mod_cast hundredths_mono (magnitude_ofFractional_mono hx hy (by linarith) hlt)
    rw [shownMagnitude_of_neg hx, shownMagnitude_of_neg hy]
    linarith
  · rw [shownMagnitude_of_nonneg hy]
    exact (shownMagnitude_le hx).trans (Finite.le_magnitude_of_exponent_nonneg hy)
  · have hge := Finite.le_magnitude_of_exponent_nonneg hx
    have hbelow := Finite.magnitude_lt_of_exponent_neg hy
    linarith
  · rw [shownMagnitude_of_nonneg hx, shownMagnitude_of_nonneg hy]
    exact h

theorem shown_le_shown (h : x.toRat ≤ y.toRat) :
    withSign x.negative (shownMagnitude x) ≤ withSign y.negative (shownMagnitude y) := by
  have hzero {z : Finite} (hz : z.magnitude = 0) : shownMagnitude z = 0 :=
    shownMagnitude_of_small (by rw [hz]; norm_num)
  exact withSign_le_withSign x.magnitude_nonneg y.magnitude_nonneg (shownMagnitude_nonneg x)
    (shownMagnitude_nonneg y) shownMagnitude_mono shownMagnitude_mono hzero hzero h

end ConvertedAmount

theorem value?_ofProduct? (x : Finite) :
    (ConvertedAmount.ofProduct? (.finite x)).bind (·.value?) =
      some (withSign x.negative (ConvertedAmount.shownMagnitude x)) :=
  ConvertedAmount.value?_ofFinite x

theorem Binary64.Finite.toRat_mul_mono {a b rate x y : Finite} (hx : a.mul rate = .finite x)
    (hy : b.mul rate = .finite y) (h : a.toRat * rate.toRat ≤ b.toRat * rate.toRat) :
    x.toRat ≤ y.toRat := by
  have hroundsX := a.roundsTo_mul rate
  have hroundsY := b.roundsTo_mul rate
  rw [hx] at hroundsX
  rw [hy] at hroundsY
  exact Finite.Rounds.toRat_mono hroundsX (a.toRat_mul_toRat rate) hroundsY
    (b.toRat_mul_toRat rate) h

/-- **What is shown keeps the order and the sign.** Every finite number is shown as an amount
with a value. The larger one of two numbers is not shown as the smaller amount, whichever of
them are decimals, and a number and its negative are shown as an amount and its negative. So
at one rate no request is converted to a larger amount than one with a larger product. -/
theorem value_mono_and_odd :
    (∀ x y : Finite, x.toRat ≤ y.toRat → ∃ v w,
      (ConvertedAmount.ofProduct? (.finite x)).bind (·.value?) = some v ∧
      (ConvertedAmount.ofProduct? (.finite y)).bind (·.value?) = some w ∧ v ≤ w) ∧
    (∀ x : Finite, ∃ v,
      (ConvertedAmount.ofProduct? (.finite x)).bind (·.value?) = some v ∧
      (ConvertedAmount.ofProduct? (.finite x.neg)).bind (·.value?) = some (-v)) ∧
    ∀ (first second : Request) (a b rate : Finite) (c d : Conversion),
      first.amount = .finite a → second.amount = .finite b →
      Conversion.make first (.ok (.finite rate)) = .ok c →
      Conversion.make second (.ok (.finite rate)) = .ok d →
      a.toRat * rate.toRat ≤ b.toRat * rate.toRat →
      ∃ v w, c.converted.value? = some v ∧ d.converted.value? = some w ∧ v ≤ w := by
  refine ⟨fun x y h => ?_, fun x => ?_, fun first second a b rate c d ha hb hc hd h => ?_⟩
  · exact ⟨_, _, value?_ofProduct? x, value?_ofProduct? y, ConvertedAmount.shown_le_shown h⟩
  · refine ⟨_, value?_ofProduct? x, ?_⟩
    have hsame : ConvertedAmount.shownMagnitude x.neg = ConvertedAmount.shownMagnitude x :=
      ConvertedAmount.shownMagnitude_congr rfl
    rw [value?_ofProduct?, hsame, Finite.neg, withSign_not]
  · obtain ⟨x, hx, rfl⟩ := Conversion.eq_of_make hc
    obtain ⟨y, hy, rfl⟩ := Conversion.eq_of_make hd
    rw [ha] at hx
    rw [hb] at hy
    exact ⟨_, _, ConvertedAmount.value?_ofFinite x, ConvertedAmount.value?_ofFinite y,
      ConvertedAmount.shown_le_shown (Finite.toRat_mul_mono hx hy h)⟩

/-- The order holds where decimals end: the last number below `2 ^ 96` is shown as a decimal,
and `2 ^ 96` is not. -/
theorem value_mono_at_limit :
    let x : Finite := ⟨false, 2 ^ 53 - 1, 43, by decide⟩
    let y : Finite := ⟨false, 2 ^ 52, 44, by decide⟩
    ConvertedAmount.ofFinite x = .exact ⟨false, 2 ^ 96 - 2 ^ 43, 0⟩ ∧
      ConvertedAmount.ofFinite y = .float (.finite y) ∧ x.toRat ≤ y.toRat ∧
      ∃ v w, (ConvertedAmount.ofProduct? (.finite x)).bind (·.value?) = some v ∧
        (ConvertedAmount.ofProduct? (.finite y)).bind (·.value?) = some w ∧ v ≤ w := by
  intro x y
  have hle : x.toRat ≤ y.toRat := by
    simp only [Finite.toRat, Finite.magnitude_eq, withSign, x, y]
    norm_num
  exact ⟨by decide, by decide, hle, value_mono_and_odd.1 x y hle⟩

end CurrencyDesk
