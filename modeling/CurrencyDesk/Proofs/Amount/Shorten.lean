import CurrencyDesk.Amount.Decimal
import Mathlib.Algebra.Order.Ring.Pow
import Mathlib.Data.Rat.Floor
import Mathlib.Tactic.FieldSimp
import Mathlib.Tactic.Linarith
import Mathlib.Tactic.Positivity
/-!
# What the digits of a binary fraction lose

`Decimal.ofFraction` turns `mantissa / 2 ^ halvings` into a coefficient and its
places in three passes, and each of them can lose something. A pass is followed
by a quantity that it moves one way only:

* `absorbHalves` drops a bit of a coefficient of at least `2 ^ 96 / 5`, so each
  halving takes away at most the part `5 / 2 ^ 96` of the value;
* a place that is rounded away, half up, moves the value by at most half a
  unit of the place before it. The sum of all these moves is a geometric one: the
  values `(9 * c - 5) / 10 ^ p` never grow and the values `(9 * c + 4) / 10 ^ p`
  never fall, so together all places move the coefficient up by at most `5 / 9`
  and down by at most `4 / 9`, however many they are.

`dropImprecise` stops below `2 ^ 52`. Whenever it rounds at all it leaves a
tenth of `2 ^ 52` or more.

Key definitions: `pending`, `Dropped`, `shortened`, `Shortened`.
Key theorems: `absorbHalves_bounds`, `Dropped.tenth`, `dropExcess_cases`,
`dropImprecise_spec`, `shortened_spec`.
-/

namespace CurrencyDesk.Decimal

theorem ten_pow_pos (p : Nat) : (0 : ℚ) < 10 ^ p :=
  pow_pos (by norm_num) p

/-! ### Halvings -/

/-- The value of a state of `absorbHalves`: each halving to come is a factor 5, its
1/10 being in the places. -/
def pending (k c p : Nat) : ℚ :=
  c * 5 ^ k / 10 ^ p

theorem pending_nonneg (k c p : Nat) : 0 ≤ pending k c p := by
  unfold pending
  positivity

theorem pending_five_mul (k c p : Nat) : pending k (5 * c) p = pending (k + 1) c p := by
  unfold pending
  push_cast
  ring

theorem pending_half (k m p : Nat) : pending k m p = pending (k + 1) (2 * m) (p + 1) := by
  unfold pending
  push_cast
  field_simp
  ring

theorem pending_mono {k c c' p : Nat} (h : c ≤ c') : pending k c p ≤ pending k c' p := by
  unfold pending
  gcongr

/-- Dropping the last bit of an odd coefficient that has no room left. -/
theorem pending_drop_bit {k m p : Nat} (h : limit ≤ 5 * (2 * m + 1)) :
    (1 - 5 / 2 ^ 96) * pending (k + 1) (2 * m + 1) (p + 1) ≤ pending k m p := by
  have hm : (1 - 5 / 2 ^ 96) * (2 * m + 1 : ℚ) ≤ 2 * m := by
    have : (2 ^ 96 : ℚ) ≤ 5 * (2 * m + 1) := by exact_mod_cast h
    linarith
  rw [pending_half k m]
  calc (1 - 5 / 2 ^ 96) * pending (k + 1) (2 * m + 1) (p + 1)
      = (1 - 5 / 2 ^ 96) * (2 * m + 1 : ℚ) * (5 ^ (k + 1) / 10 ^ (p + 1)) := by
        unfold pending
        push_cast
        ring
    _ ≤ (2 * m : ℚ) * (5 ^ (k + 1) / 10 ^ (p + 1)) := mul_le_mul_of_nonneg_right hm (by positivity)
    _ = pending (k + 1) (2 * m) (p + 1) := by
        unfold pending
        push_cast
        ring

/-- One halving keeps the value or loses at most the part `5 / 2 ^ 96` of it. -/
theorem absorbHalves_step (k c : Nat) {p : Nat} (hp : k + 1 ≤ p) :
    ∃ c' p', absorbHalves (k + 1) c p = absorbHalves k c' p' ∧ k ≤ p' ∧
      (1 - 5 / 2 ^ 96) * pending (k + 1) c p ≤ pending k c' p' ∧
      pending k c' p' ≤ pending (k + 1) c p := by
  obtain ⟨p, rfl⟩ : ∃ p', p = p' + 1 := ⟨p - 1, by omega⟩
  have hkeep : (1 - 5 / 2 ^ 96) * pending (k + 1) c (p + 1) ≤ pending (k + 1) c (p + 1) :=
    mul_le_of_le_one_left (pending_nonneg _ _ _) (by norm_num)
  rw [absorbHalves]
  split_ifs with heven hroom
  · refine ⟨c / 2, p, rfl, by omega, ?_⟩
    rw [pending_half k (c / 2), Nat.mul_div_cancel' (Nat.dvd_of_mod_eq_zero heven)]
    exact ⟨hkeep, le_rfl⟩
  · refine ⟨5 * c, p + 1, rfl, by omega, ?_⟩
    rw [pending_five_mul]
    exact ⟨hkeep, le_rfl⟩
  · refine ⟨c / 2, p, rfl, by omega, ?_, ?_⟩
    · obtain ⟨m, rfl⟩ : ∃ m, c = 2 * m + 1 := ⟨c / 2, by omega⟩
      rw [show (2 * m + 1) / 2 = m by omega]
      exact pending_drop_bit (not_lt.mp hroom)
    · rw [pending_half k (c / 2)]
      exact pending_mono (by omega)

/-- All halvings together. -/
theorem absorbHalves_bounds : ∀ (k c : Nat) {p : Nat}, k ≤ p →
    (1 - 5 / 2 ^ 96) ^ k * pending k c p ≤
        pending 0 (absorbHalves k c p).1 (absorbHalves k c p).2 ∧
      pending 0 (absorbHalves k c p).1 (absorbHalves k c p).2 ≤ pending k c p
  | 0, c, p, _ => by simp [absorbHalves]
  | k + 1, c, p, hp => by
    obtain ⟨c', p', heq, hp', hlow, hhigh⟩ := absorbHalves_step k c hp
    obtain ⟨ihlow, ihhigh⟩ := absorbHalves_bounds k c' hp'
    rw [heq]
    refine ⟨?_, ihhigh.trans hhigh⟩
    calc (1 - 5 / 2 ^ 96) ^ (k + 1) * pending (k + 1) c p
        = (1 - 5 / 2 ^ 96) ^ k * ((1 - 5 / 2 ^ 96) * pending (k + 1) c p) := by ring
      _ ≤ (1 - 5 / 2 ^ 96) ^ k * pending k c' p' :=
        mul_le_mul_of_nonneg_left hlow (pow_nonneg (by norm_num) k)
      _ ≤ _ := ihlow

/-- The halvings of a binary64 number are few enough to lose almost nothing. -/
theorem one_sub_le_pow {k : Nat} (hk : k ≤ 1074) :
    (1 - 1 / 10 ^ 25 : ℚ) ≤ (1 - 5 / 2 ^ 96) ^ k := by
  have hk' : (k : ℚ) ≤ 1074 := by exact_mod_cast hk
  calc (1 - 1 / 10 ^ 25 : ℚ) ≤ 1 + k * (-(5 / 2 ^ 96)) := by linarith
    _ ≤ (1 + -(5 / 2 ^ 96)) ^ k := one_add_mul_le_pow (by norm_num) k
    _ = (1 - 5 / 2 ^ 96) ^ k := by rw [← sub_eq_add_neg]

/-! ### Places rounded away -/

theorem tenth_le (c : Nat) : 10 * tenth c ≤ c + 5 := by
  unfold tenth
  split_ifs <;> omega

theorem le_tenth (c : Nat) : c ≤ 10 * tenth c + 4 := by
  unfold tenth
  split_ifs <;> omega

/-- What stays true while places are rounded away one by one: the two values below move
one way only. -/
structure Dropped (c p c' p' : Nat) : Prop where
  places : p' ≤ p
  upper : (9 * c' - 5 : ℚ) / 10 ^ p' ≤ (9 * c - 5) / 10 ^ p
  lower : (9 * c + 4 : ℚ) / 10 ^ p ≤ (9 * c' + 4) / 10 ^ p'

namespace Dropped

variable {c p c' p' c'' p'' : Nat}

theorem refl (c p : Nat) : Dropped c p c p :=
  ⟨le_rfl, le_rfl, le_rfl⟩

theorem trans (h : Dropped c p c' p') (h' : Dropped c' p' c'' p'') : Dropped c p c'' p'' :=
  ⟨h'.places.trans h.places, h'.upper.trans h.upper, h.lower.trans h'.lower⟩

theorem tenth (c p : Nat) : Dropped c (p + 1) (Decimal.tenth c) p := by
  have hle : (10 * Decimal.tenth c : ℚ) ≤ c + 5 := by exact_mod_cast tenth_le c
  have hge : (c : ℚ) ≤ 10 * Decimal.tenth c + 4 := by exact_mod_cast le_tenth c
  have hp := ten_pow_pos p
  have hshift (r : ℚ) : r / 10 ^ p = r * 10 / 10 ^ (p + 1) := by
    rw [pow_succ, mul_div_mul_right r _ (by norm_num)]
  refine ⟨Nat.le_succ p, ?_, ?_⟩
  · rw [hshift, div_le_div_iff_of_pos_right (ten_pow_pos _)]
    linarith
  · rw [hshift, div_le_div_iff_of_pos_right (ten_pow_pos _)]
    linarith

/-- All places together move the coefficient up by at most `5 / 9`. -/
theorem le (h : Dropped c p c' p') : (c' : ℚ) ≤ c / 10 ^ p * 10 ^ p' + 5 / 9 := by
  have hup := h.upper
  have hneg : (0 : ℚ) < 5 / 10 ^ p := div_pos (by norm_num) (ten_pow_pos p)
  rw [div_le_iff₀ (ten_pow_pos p'), sub_div] at hup
  have hmul : (9 * c / 10 ^ p - 5 / 10 ^ p) * 10 ^ p' ≤ (9 * c / 10 ^ p : ℚ) * 10 ^ p' :=
    mul_le_mul_of_nonneg_right (by linarith) (ten_pow_pos p').le
  have hcomm : (9 * c / 10 ^ p : ℚ) * 10 ^ p' = 9 * (c / 10 ^ p * 10 ^ p') := by ring
  linarith

/-- All places together move the coefficient down by at most `4 / 9`. -/
theorem ge (h : Dropped c p c' p') : (c / 10 ^ p * 10 ^ p' : ℚ) ≤ c' + 4 / 9 := by
  have hlow := h.lower
  have hpos : (0 : ℚ) < 4 / 10 ^ p := div_pos (by norm_num) (ten_pow_pos p)
  rw [le_div_iff₀ (ten_pow_pos p'), add_div] at hlow
  have hmul : (9 * c / 10 ^ p : ℚ) * 10 ^ p' ≤ (9 * c / 10 ^ p + 4 / 10 ^ p) * 10 ^ p' :=
    mul_le_mul_of_nonneg_right (by linarith) (ten_pow_pos p').le
  have hcomm : (9 * c / 10 ^ p : ℚ) * 10 ^ p' = 9 * (c / 10 ^ p * 10 ^ p') := by ring
  linarith

end Dropped

/-- The excess is rounded away, or the digits run out before. -/
theorem dropExcess_cases : ∀ (k c : Nat) {p : Nat}, k ≤ p →
    0 < k ∧ dropExcess k c p = (0, 0) ∧ (9 * c + 4 : ℚ) / 10 ^ p ≤ 85 / 10 ^ (p - k + 1) ∨
      Dropped c p (dropExcess k c p).1 (dropExcess k c p).2 ∧ (dropExcess k c p).2 = p - k
  | 0, c, p, _ => .inr ⟨.refl c p, rfl⟩
  | k + 1, c, p, hp => by
    obtain ⟨p, rfl⟩ : ∃ p', p = p' + 1 := ⟨p - 1, by omega⟩
    have hplaces : p + 1 - (k + 1) = p - k := by omega
    rw [dropExcess, hplaces]
    by_cases hc : c / 10 = 0
    · rw [if_pos hc]
      refine .inl ⟨k.succ_pos, rfl, ?_⟩
      have hc' : (9 * c + 4 : ℚ) ≤ 85 := by
        have : 9 * c + 4 ≤ 85 := by omega
        exact_mod_cast this
      exact div_le_div₀ (by norm_num) hc' (ten_pow_pos _)
        (pow_le_pow_right₀ (by norm_num) (by omega))
    · rw [if_neg hc, Nat.add_sub_cancel]
      rcases dropExcess_cases k (tenth c) (Nat.le_of_succ_le_succ hp) with
        ⟨-, hz, hle⟩ | ⟨hd, hpl⟩
      · exact .inl ⟨k.succ_pos, hz, (Dropped.tenth c p).lower.trans hle⟩
      · exact .inr ⟨(Dropped.tenth c p).trans hd, hpl⟩

/-- Nothing is rounded away, or a tenth of `2 ^ 52` or more is left and with one place more
there were `2 ^ 52` or more; and the rest is below `2 ^ 52` or a whole number. -/
theorem dropImprecise_spec : ∀ p c : Nat,
    Dropped c p (dropImprecise p c).1 (dropImprecise p c).2 ∧
      (dropImprecise p c = (c, p) ∨ tenth (2 ^ 52) ≤ (dropImprecise p c).1 ∧
        ∃ c', 2 ^ 52 ≤ c' ∧ Dropped c p c' ((dropImprecise p c).2 + 1)) ∧
      ((dropImprecise p c).1 < 2 ^ 52 ∨ (dropImprecise p c).2 = 0)
  | 0, c => ⟨.refl c 0, .inl rfl, .inr rfl⟩
  | p + 1, c => by
    rw [dropImprecise]
    by_cases hc : 2 ^ 52 ≤ c
    · rw [if_pos hc]
      obtain ⟨hd, hleft, hshort⟩ := dropImprecise_spec p (tenth c)
      refine ⟨(Dropped.tenth c p).trans hd, .inr ?_, hshort⟩
      rcases hleft with heq | ⟨hle, c', hc', hd'⟩
      · rw [heq]
        refine ⟨?_, c, hc, .refl c (p + 1)⟩
        unfold tenth
        split_ifs <;> omega
      · exact ⟨hle, c', hc', (Dropped.tenth c p).trans hd'⟩
    · rw [if_neg hc]
      exact ⟨.refl c (p + 1), .inl rfl, .inl (not_le.mp hc)⟩

/-! ### All passes -/

/-- The coefficient and the places before zeros at the end are dropped. -/
def shortened (mantissa halvings : Nat) : Nat × Nat :=
  let (c, p) := absorbHalves halvings mantissa halvings
  let (c, p) := dropExcess (p - 28) c p
  dropImprecise p c

theorem ofFraction_eq (m h : Nat) :
    ofFraction m h = dropZeros (shortened m h).2 (shortened m h).1 := by
  simp only [ofFraction, shortened]

@[simp] theorem pending_zero (c p : Nat) : pending 0 c p = c / 10 ^ p := by
  simp [pending]

theorem pending_self (h m : Nat) : pending h m h = m / 2 ^ h := by
  rw [pending, show (10 : ℚ) = 2 * 5 by norm_num, mul_pow]
  field_simp

/-- What `shortened` leaves of a value `v` that is not too small: a coefficient and places
that are off by what the places rounded away amount to. -/
structure Shortened (v : ℚ) (c p : Nat) : Prop where
  /-- The coefficient is not far above. -/
  upper : (c : ℚ) ≤ v * 10 ^ p + 5 / 9
  /-- The coefficient is not far below. -/
  lower : (1 - 1 / 10 ^ 25) * v * 10 ^ p ≤ c + 4 / 9
  /-- The coefficient is short. -/
  short : c < 2 ^ 52 ∨ p = 0
  /-- The coefficient is long and would be too long with one place more, or no place was
  rounded away. -/
  long : p = 28 ∨ tenth (2 ^ 52) ≤ c ∧ 2 ^ 52 ≤ v * 10 ^ (p + 1) + 5 / 9 ∨
    (1 - 1 / 10 ^ 25) * v * 10 ^ p ≤ c ∧ (c : ℚ) ≤ v * 10 ^ p

theorem absorbHalves_value {h : Nat} (m : Nat) (hh : h ≤ 1074) :
    (1 - 1 / 10 ^ 25) * (m / 2 ^ h : ℚ) ≤
        (absorbHalves h m h).1 / 10 ^ (absorbHalves h m h).2 ∧
      ((absorbHalves h m h).1 / 10 ^ (absorbHalves h m h).2 : ℚ) ≤ m / 2 ^ h := by
  obtain ⟨hlow, hhigh⟩ := absorbHalves_bounds h m le_rfl
  rw [pending_zero, pending_self] at hlow hhigh
  exact ⟨(mul_le_mul_of_nonneg_right (one_sub_le_pow hh) (by positivity)).trans hlow, hhigh⟩

/-- However small a value is, its coefficient is not far above it. -/
theorem shortened_le {h : Nat} (m : Nat) (hh : h ≤ 1074) :
    ((shortened m h).1 : ℚ) ≤ m / 2 ^ h * 10 ^ (shortened m h).2 + 5 / 9 := by
  obtain ⟨-, hhigh⟩ := absorbHalves_value m hh
  unfold shortened
  generalize absorbHalves h m h = s at *
  obtain ⟨c, p⟩ := s
  dsimp only at hhigh ⊢
  rcases dropExcess_cases (p - 28) c (Nat.sub_le p 28) with ⟨-, hz, -⟩ | ⟨hd, -⟩
  · rw [hz]
    simp only [dropImprecise]
    positivity
  · have hle := (hd.trans (dropImprecise_spec _ _).1).le
    have := mul_le_mul_of_nonneg_right hhigh
      (ten_pow_pos (dropImprecise (dropExcess (p - 28) c p).2 (dropExcess (p - 28) c p).1).2).le
    linarith

/-- The digits of a value that is not too small do not run out. -/
theorem dropExcess_of_le {v : ℚ} {c p : Nat} (hlow : (1 - 1 / 10 ^ 25) * v ≤ c / 10 ^ p)
    (hv : 1 / 10 ^ 4 ≤ v) :
    Dropped c p (dropExcess (p - 28) c p).1 (dropExcess (p - 28) c p).2 ∧
      (dropExcess (p - 28) c p).2 = p - (p - 28) := by
  refine (dropExcess_cases (p - 28) c (Nat.sub_le p 28)).resolve_left ?_
  rintro ⟨hk, -, hle⟩
  rw [show p - (p - 28) + 1 = 29 by omega, add_div, mul_div_assoc] at hle
  have hpos : (0 : ℚ) < 4 / 10 ^ p := div_pos (by norm_num) (ten_pow_pos p)
  norm_num at hle hlow hv
  linarith

/-- A value that is not too small keeps its digits. -/
theorem shortened_spec {h : Nat} (m : Nat) (hh : h ≤ 1074) (hv : (1 / 10 ^ 4 : ℚ) ≤ m / 2 ^ h) :
    Shortened (m / 2 ^ h) (shortened m h).1 (shortened m h).2 := by
  obtain ⟨hlow, hhigh⟩ := absorbHalves_value m hh
  have hupper := shortened_le m hh
  unfold shortened at hupper ⊢
  generalize absorbHalves h m h = s at *
  generalize (m / 2 ^ h : ℚ) = v at *
  obtain ⟨c, p⟩ := s
  dsimp only at hlow hhigh hupper ⊢
  obtain ⟨hd, hplaces⟩ := dropExcess_of_le hlow hv
  obtain ⟨hi, hleft, hshort⟩ := dropImprecise_spec (dropExcess (p - 28) c p).2
    (dropExcess (p - 28) c p).1
  have hscale {r t : ℚ} (h : r ≤ t) (i : Nat) : r * 10 ^ i ≤ t * 10 ^ i :=
    mul_le_mul_of_nonneg_right h (ten_pow_pos i).le
  refine ⟨hupper, (hscale hlow _).trans (hd.trans hi).ge, hshort, ?_⟩
  rcases hleft with heq | ⟨hlong, c', hc', hd'⟩
  · rw [heq]
    by_cases hp : p ≤ 28
    · -- no pass rounds a place away
      rw [show p - 28 = 0 by omega, dropExcess]
      have hc : (c : ℚ) = c / 10 ^ p * 10 ^ p := by
        rw [div_mul_cancel₀ _ (ten_pow_pos p).ne']
      exact .inr (.inr ⟨(hscale hlow p).trans_eq hc.symm, hc.trans_le (hscale hhigh p)⟩)
    · exact .inl (by rw [hplaces]; omega)
  · have hbefore : (2 ^ 52 : ℚ) ≤ c' := by exact_mod_cast hc'
    refine .inr (.inl ⟨hlong, hbefore.trans ((hd.trans hd').le.trans ?_)⟩)
    rw [add_le_add_iff_right]
    exact hscale hhigh _

end CurrencyDesk.Decimal
