import CurrencyDesk.Binary64.Shortest
import CurrencyDesk.Proofs.Binary64.Correct
/-!
# The shortest decimal reads back

What `Finite.shortest` finds is worth a magnitude that rounds to the number it was found
for. Each grid is searched for decimals that read back, so what a grid yields does; the
last resort is the exact value, to which every number rounds; and moving zeros from the
end of the significand into the exponent keeps the value. Nothing here depends on how many
digits are needed.

Key definitions: `Decimals.value`.
Key theorems: `Decimals.dropZeros_value`, `Finite.rounds_of_onGrid?`,
`Finite.rounds_shortest`.
-/

namespace CurrencyDesk.Binary64

namespace Decimals

/-- The magnitude that decimals stand for. -/
def value (d : Decimals) : ℚ :=
  d.significand * 10 ^ d.exponent

theorem roundsTo_read (d : Decimals) (negative : Bool) :
    RoundsTo negative d.value (d.read negative) := by
  have hvalue : ((d.significand * 10 ^ d.exponent.toNat : Nat) : ℚ) /
      (10 ^ (-d.exponent).toNat : Nat) = d.value := by
    rw [value, ← pow_toNat_div 10 d.exponent]
    push_cast
    ring
  rw [← hvalue]
  exact roundsTo_nearest negative _ (Nat.pow_pos (by decide : 0 < 10))

theorem dropZeros_value : ∀ (fuel : Nat) (d : Decimals), (d.dropZeros fuel).value = d.value
  | 0, _ => rfl
  | fuel + 1, d => by
    rw [dropZeros]
    split_ifs with hzero
    · rw [dropZeros_value fuel, value, value, zpow_add_one₀ (by norm_num)]
      have hten : (d.significand : ℚ) = 10 * (d.significand / 10 : Nat) := by
        exact_mod_cast (Nat.mul_div_cancel' (Nat.dvd_of_mod_eq_zero hzero)).symm
      rw [hten]
      ring
    · rfl

end Decimals

namespace Finite

variable {x : Finite} {d : Decimals}

theorem rounds_of_readsBack (h : x.readsBack d = true) : x.Rounds x.negative d.value := by
  have hread := d.roundsTo_read x.negative
  rwa [of_decide_eq_true h] at hread

theorem readsBack_of_first {first second : Decimals}
    (h : (if x.readsBack first then some first
      else if x.readsBack second then some second else none) = some d) :
    x.readsBack d = true := by
  split_ifs at h with hfirst hsecond
  · exact Option.some.inj h ▸ hfirst
  · exact Option.some.inj h ▸ hsecond

/-- What a grid yields reads back. -/
theorem rounds_of_onGrid? {tie : Tie} {e : Int} (h : x.onGrid? tie e = some d) :
    x.Rounds x.negative d.value := by
  refine rounds_of_readsBack ?_
  unfold onGrid? at h
  split at h
  exact readsBack_of_first h

/-- In decimals a number has its own magnitude: each half is five tenths. -/
theorem value_exactDecimals (x : Finite) : x.exactDecimals.value = x.magnitude := by
  rw [Decimals.value, exactDecimals, magnitude_eq]
  rcases le_total 0 x.exponent with he | he
  · obtain ⟨k, hk⟩ := Int.eq_ofNat_of_zero_le he
    simp only [hk, Int.toNat_natCast, Int.toNat_neg_natCast, pow_zero, mul_one, min_eq_right,
      Int.natCast_nonneg, zpow_zero, zpow_natCast]
    push_cast
    rfl
  · obtain ⟨k, hk⟩ := Int.eq_ofNat_of_zero_le (neg_nonneg.mpr he)
    obtain hk' : x.exponent = -(k : ℤ) := by omega
    simp only [hk', Int.neg_neg, Int.toNat_natCast, Int.toNat_neg_natCast, pow_zero, mul_one,
      min_eq_left (neg_nonpos.mpr (Int.natCast_nonneg k)), zpow_neg, zpow_natCast]
    rw [show (10 : ℚ) = 2 * 5 by norm_num, mul_pow]
    push_cast
    field_simp

theorem rounds_shortest (x : Finite) (tie : Tie) : x.Rounds x.negative (x.shortest tie).value := by
  unfold shortest
  split_ifs with hzero
  · have hmag : x.magnitude = Decimals.value ⟨0, 0⟩ := by
      rw [magnitude_eq, hzero, Decimals.value, Nat.cast_zero, zero_mul, zero_mul]
    exact hmag ▸ x.rounds_magnitude
  · rw [Decimals.dropZeros_value]
    rcases hfound : (List.range 17).findSome? fun (n : Nat) =>
        x.onGrid? tie (x.leadingTen - n) with _ | d
    · rw [Option.getD_none, value_exactDecimals]
      exact x.rounds_magnitude
    · obtain ⟨n, -, hgrid⟩ := List.exists_of_findSome?_eq_some hfound
      exact rounds_of_onGrid? hgrid

end Finite

end CurrencyDesk.Binary64
