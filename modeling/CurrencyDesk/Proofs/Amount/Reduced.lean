import CurrencyDesk.Proofs.Amount.Hundredths
import CurrencyDesk.Proofs.Binary64.Rounding
/-!
# Values of decimals and their one reduced form

What a decimal is worth, and that the last two steps do to that value what they are
named for: `round 2` takes the nearest hundredth, a half going away from zero, and
`normalize` keeps the value. What `normalize` leaves is reduced, and a value has one
reduced decimal, so a reduced decimal is told by its value alone.

Key definitions: `Decimal.magnitude`, `Decimal.toRat`, `Decimal.Reduced`.
Key theorems: `dropZeros_value`, `round_magnitude`, `normalize_toRat`,
`normalize_reduced`, `Reduced.eq_of_toRat_eq`.
-/

namespace CurrencyDesk

theorem withSign_injective {s t : Bool} {r : ℚ} (hr : r ≠ 0) (h : withSign s r = withSign t r) :
    s = t := by
  have hne : ¬ -r = r := fun hneg => hr (by linarith)
  have hne' : ¬ r = -r := fun hneg => hr (by linarith)
  cases s <;> cases t <;> simp_all [withSign]

namespace Decimal

/-- The magnitude of a decimal. -/
def magnitude (d : Decimal) : ℚ :=
  d.coefficient / 10 ^ d.places

/-- The value of a decimal. -/
def toRat (d : Decimal) : ℚ :=
  withSign d.negative d.magnitude

theorem magnitude_nonneg (d : Decimal) : 0 ≤ d.magnitude := by
  unfold magnitude
  positivity

theorem abs_toRat (d : Decimal) : |d.toRat| = d.magnitude := by
  rw [toRat, abs_withSign, abs_of_nonneg d.magnitude_nonneg]

theorem magnitude_mul_ten_pow (d : Decimal) : d.magnitude * 10 ^ d.places = d.coefficient :=
  div_mul_cancel₀ _ (ten_pow_pos _).ne'

theorem magnitude_eq_zero_iff (d : Decimal) : d.magnitude = 0 ↔ d.coefficient = 0 := by
  rw [magnitude, div_eq_zero_iff, Nat.cast_eq_zero]
  exact or_iff_left (ten_pow_pos _).ne'

/-- No zero stands at the end of the places, and zero has no sign. -/
structure Reduced (d : Decimal) : Prop where
  places : d.places = 0 ∨ ¬ 10 ∣ d.coefficient
  sign : d.coefficient = 0 → d.negative = false

/-! ### Zeros at the end -/

theorem dropZeros_value : ∀ p c : Nat,
    ((dropZeros p c).1 / 10 ^ (dropZeros p c).2 : ℚ) = c / 10 ^ p
  | 0, _ => rfl
  | p + 1, c => by
    rw [dropZeros]
    split_ifs with hc
    · obtain ⟨m, rfl⟩ := Nat.dvd_of_mod_eq_zero hc
      rw [Nat.mul_div_cancel_left m (by decide), dropZeros_value p m, pow_succ]
      push_cast
      field_simp
    · rfl

theorem dropZeros_places : ∀ p c : Nat,
    (dropZeros p c).2 = 0 ∨ ¬ 10 ∣ (dropZeros p c).1
  | 0, _ => .inl rfl
  | p + 1, c => by
    rw [dropZeros]
    split_ifs with hc
    · exact dropZeros_places p (c / 10)
    · exact .inr fun hd => hc (Nat.mod_eq_zero_of_dvd hd)

theorem normalize_toRat (d : Decimal) : d.normalize.toRat = d.toRat := by
  unfold normalize
  split_ifs with hc
  · simp [toRat, magnitude, hc]
  · simp only [toRat, magnitude, dropZeros_value]

theorem normalize_reduced (d : Decimal) : d.normalize.Reduced := by
  unfold normalize
  split_ifs with hc
  · exact ⟨.inl rfl, fun _ => rfl⟩
  · refine ⟨dropZeros_places d.places d.coefficient, fun hzero => absurd ?_ hc⟩
    have hvalue := dropZeros_value d.places d.coefficient
    dsimp only at hzero
    rw [hzero, Nat.cast_zero, zero_div] at hvalue
    exact d.magnitude_eq_zero_iff.mp hvalue.symm

/-- Two coefficients of one magnitude, one with more places, differ by zeros at the end. -/
theorem Reduced.places_le {d d' : Decimal} (h : d.Reduced) (heq : d.magnitude = d'.magnitude) :
    d.places ≤ d'.places := by
  by_contra hlt
  obtain ⟨k, hk⟩ := Nat.exists_eq_add_of_lt (not_le.mp hlt)
  have hmag : (d.coefficient : ℚ) = d'.coefficient * 10 ^ (k + 1) := by
    rw [magnitude, magnitude, hk, div_eq_div_iff (ten_pow_pos _).ne' (ten_pow_pos _).ne'] at heq
    refine mul_right_cancel₀ (ten_pow_pos d'.places).ne' ?_
    rw [heq, add_assoc, pow_add]
    ring
  have hcoefficient : d.coefficient = d'.coefficient * 10 ^ (k + 1) := by exact_mod_cast hmag
  rcases h.places with hzero | hten
  · omega
  · exact hten (hcoefficient ▸ Dvd.dvd.mul_left (dvd_pow_self 10 k.succ_ne_zero) _)

theorem Reduced.eq_of_toRat_eq {d d' : Decimal} (h : d.Reduced) (h' : d'.Reduced)
    (heq : d.toRat = d'.toRat) : d = d' := by
  have hmag : d.magnitude = d'.magnitude := by
    have habs := congrArg abs heq
    rwa [abs_toRat, abs_toRat] at habs
  have hplaces : d.places = d'.places := le_antisymm (h.places_le hmag) (h'.places_le hmag.symm)
  have hcoefficient : d.coefficient = d'.coefficient := by
    have hdiv := hmag
    rw [magnitude, magnitude, hplaces, div_left_inj' (ten_pow_pos _).ne'] at hdiv
    exact_mod_cast hdiv
  have hnegative : d.negative = d'.negative := by
    by_cases hc : d.coefficient = 0
    · rw [h.sign hc, h'.sign (hcoefficient ▸ hc)]
    · refine withSign_injective (mt d.magnitude_eq_zero_iff.mp hc) ?_
      rw [toRat, toRat, ← hmag] at heq
      exact heq
  cases d
  cases d'
  simp_all

/-! ### Hundredths -/

theorem hundredths_of_places_le {c p : Nat} (hp : p ≤ 2) :
    (hundredths (c / 10 ^ p) / 100 : ℚ) = c / 10 ^ p := by
  obtain ⟨k, hk⟩ := Nat.exists_eq_add_of_le hp
  have hwhole : (100 * (c / 10 ^ p) : ℚ) = (c * 10 ^ k : Nat) := by
    rw [show (100 : ℚ) = 10 ^ p * 10 ^ k by rw [← pow_add, ← hk]; norm_num]
    push_cast
    field_simp
  rw [hundredths, hwhole, Int.floor_natCast_add, show ⌊(1 / 2 : ℚ)⌋ = 0 by norm_num]
  push_cast at hwhole ⊢
  linarith

theorem round_magnitude (d : Decimal) : (d.round 2).magnitude = hundredths d.magnitude / 100 := by
  unfold round
  split_ifs with hp
  · exact (hundredths_of_places_le hp).symm
  · obtain ⟨k, hk⟩ : ∃ k, d.places = k + 2 := ⟨d.places - 2, by omega⟩
    simp only [magnitude, hk, Nat.add_sub_cancel, hundredths_div, Int.cast_natCast]
    norm_num

theorem round_negative (places : Nat) (d : Decimal) : (d.round places).negative = d.negative := by
  unfold round
  split_ifs <;> rfl

end Decimal

end CurrencyDesk
