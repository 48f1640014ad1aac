import CurrencyDesk.Proofs.Amount.Shorten
/-!
# A short decimal survives its binary form

A decimal `q = s / 10 ^ j` with `s < 10 ^ 15` has been read as the binary fraction
`v`, which is off by at most `2 ^ (-53)` of `q`, and `v` has been shortened to `c`
with `p` places. Here the two errors are put together: on the scale of `c` they
come to less than 2, so `c` is `q` on that scale or the whole number next to it.

* Without a place rounded away the errors come to less than 1, and `c` is `q`.
* With one rounded away `c` has 15 digits or more, so `p` is at least `j`. For
  `p = j` the scaled error is below 1 as `s` is below `10 ^ 15`. For `p ≤ 2` it is
  below 1 because `q` is then far enough below the power of two above it.
* For `p ≥ 3` and `j < p` the last digit of `q` on that scale is a zero, and one
  unit more of it does not reach the next hundredth.

Below a thousandth nothing is left to show but that the result is zero.

Key definitions: `hundredths`.
Key theorems: `kept_exactly`, `off_by_one`, `hundredths_shortened`,
`hundredths_of_small`.
-/

namespace CurrencyDesk.Decimal

/-- A magnitude in whole hundredths, a half going up. -/
def hundredths (r : ℚ) : ℤ :=
  ⌊100 * r + 1 / 2⌋

theorem eq_of_lt_add_one {a b : Nat} (h : (a : ℚ) < b + 1) (h' : (b : ℚ) < a + 1) : a = b := by
  have h₁ : a < b + 1 := by exact_mod_cast h
  have h₂ : b < a + 1 := by exact_mod_cast h'
  omega

/-! ### The errors on the scale of the coefficient -/

section Errors

variable {v q : ℚ} {s j c p : Nat}

/-- Both errors in one, as parts of the scaled decimal: `2 ^ (-53)` and what the
halvings lose come to less than `12 / 10 ^ 17`. -/
theorem scaled_bounds (hv : |v - q| ≤ q / 2 ^ 53) (hpos : 0 ≤ q) (p : Nat) :
    q * 10 ^ p - 12 / 10 ^ 17 * (q * 10 ^ p) ≤ (1 - 1 / 10 ^ 25) * v * 10 ^ p ∧
      v * 10 ^ p ≤ q * 10 ^ p + 12 / 10 ^ 17 * (q * 10 ^ p) := by
  obtain ⟨h₁, h₂⟩ := abs_le.mp hv
  have hscale {r t : ℚ} (h : r ≤ t) : r * 10 ^ p ≤ t * 10 ^ p :=
    mul_le_mul_of_nonneg_right h (ten_pow_pos p).le
  have hlow : q - 12 / 10 ^ 17 * q ≤ (1 - 1 / 10 ^ 25) * v := by linarith
  have hhigh : v ≤ q + 12 / 10 ^ 17 * q := by linarith
  constructor
  · linarith [hscale hlow]
  · linarith [hscale hhigh]

/-- On a scale at least as fine as its own a decimal is a whole number. -/
theorem scaled_of_le (hq : q * 10 ^ j = s) (h : j ≤ p) :
    q * 10 ^ p = (s * 10 ^ (p - j) : Nat) := by
  obtain ⟨k, rfl⟩ := Nat.exists_eq_add_of_le h
  rw [Nat.add_sub_cancel_left, pow_add, ← mul_assoc, hq]
  push_cast
  rfl

theorem div_eq_of_scaled (h : q * 10 ^ p = c) : (c / 10 ^ p : ℚ) = q := by
  rw [← h, mul_div_cancel_right₀ _ (ten_pow_pos p).ne']

/-- Where no place was rounded away the coefficient is the decimal on its scale. -/
theorem kept_exactly (hq : q * 10 ^ j = s) (hs : s < 10 ^ 15) (hc : c < 2 ^ 52)
    (hlow : q * 10 ^ p - 12 / 10 ^ 17 * (q * 10 ^ p) ≤ c)
    (hhigh : (c : ℚ) ≤ q * 10 ^ p + 12 / 10 ^ 17 * (q * 10 ^ p)) : (c / 10 ^ p : ℚ) = q := by
  have hs' : (s : ℚ) < 10 ^ 15 := by exact_mod_cast hs
  have hc' : (c : ℚ) < 2 ^ 52 := by exact_mod_cast hc
  rcases le_total j p with hjp | hpj
  · have hscaled := scaled_of_le hq hjp
    rw [hscaled] at hlow hhigh
    refine div_eq_of_scaled ?_
    rw [hscaled, eq_of_lt_add_one (a := c) (b := s * 10 ^ (p - j)) (by linarith) (by linarith)]
  · -- the decimal has more places: compare on its scale
    obtain ⟨k, rfl⟩ := Nat.exists_eq_add_of_le hpj
    have hscaled : q * 10 ^ p * 10 ^ k = s := by rw [mul_assoc, ← pow_add, hq]
    have hk := ten_pow_pos k
    have hlow' := mul_le_mul_of_nonneg_right hlow hk.le
    have hhigh' := mul_le_mul_of_nonneg_right hhigh hk.le
    rw [sub_mul, mul_assoc (12 / 10 ^ 17 : ℚ), hscaled] at hlow'
    rw [add_mul, mul_assoc (12 / 10 ^ 17 : ℚ), hscaled] at hhigh'
    have heq : c * 10 ^ k = s := by
      refine eq_of_lt_add_one ?_ ?_ <;> push_cast <;> linarith
    refine div_eq_of_scaled (mul_right_cancel₀ hk.ne' ?_)
    rw [hscaled, ← heq]
    push_cast
    rfl

/-- Where a place was rounded away the decimal has no more places than the coefficient. -/
theorem places_le (hq : q * 10 ^ j = s) (hs : s < 10 ^ 15) (hpos : 0 ≤ q)
    (hv : v * 10 ^ p ≤ q * 10 ^ p + 12 / 10 ^ 17 * (q * 10 ^ p))
    (hupper : (c : ℚ) ≤ v * 10 ^ p + 5 / 9) (hlong : tenth (2 ^ 52) ≤ c) : j ≤ p := by
  by_contra hjp
  obtain ⟨k, rfl⟩ := Nat.exists_eq_add_of_lt (not_le.mp hjp)
  have hs' : (s : ℚ) < 10 ^ 15 := by exact_mod_cast hs
  have hc : (450359962737050 : ℚ) ≤ c := by exact_mod_cast hlong
  have hk : (10 : ℚ) ≤ 10 ^ (k + 1) := le_self_pow₀ (by norm_num) (Nat.succ_ne_zero k)
  have hscaled : q * 10 ^ p * 10 ^ (k + 1) = s := by
    rw [mul_assoc, ← pow_add, ← add_assoc, hq]
  have hten : q * 10 ^ p * 10 ≤ s :=
    hscaled ▸ mul_le_mul_of_nonneg_left hk (mul_nonneg hpos (ten_pow_pos p).le)
  linarith

variable {n : Nat}

/-- Both errors and the places rounded away together come to less than 2, and to less than 1
downwards. -/
theorem off_by_one (hn : q * 10 ^ p = n) (hv : |v - q| ≤ q / 2 ^ 53) (hpos : 0 ≤ q)
    (h : Shortened v c p) (hc : c < 2 ^ 52) : n ≤ c ∧ c ≤ n + 1 := by
  obtain ⟨hlow, hhigh⟩ := scaled_bounds hv hpos p
  have hc' : (c : ℚ) < 2 ^ 52 := by exact_mod_cast hc
  have hupper := h.upper
  have hlower := h.lower
  rw [hn] at hlow hhigh
  have h₁ : (n : ℚ) < c + 1 := by linarith
  have h₂ : (c : ℚ) < n + 2 := by linarith
  have h₃ : n < c + 1 := by exact_mod_cast h₁
  have h₄ : c < n + 2 := by exact_mod_cast h₂
  omega

/-- On a scale where the binary form is off by two fifths at most, the places rounded away
do not move the coefficient up. -/
theorem eq_of_scaled_error (h : Shortened v c p) (hn : n ≤ c) (hv : v * 10 ^ p ≤ n + 2 / 5) :
    c = n := by
  have hupper := h.upper
  have hlt : (c : ℚ) < n + 1 := by linarith
  have hlt' : c < n + 1 := by exact_mod_cast hlt
  omega

/-- On a scale of two places or fewer, or on its own, a decimal is so far below the next
power of two that its binary form is off by two fifths at most. -/
theorem scaled_error_le (hq : q * 10 ^ j = s) (hs : s < 10 ^ 15) (hn : q * 10 ^ p = n)
    (hlt : n < 2 ^ 52) (hv : |v - q| ≤ q / 2 ^ 53) (hv₁ : q < 2 ^ 49 → |v - q| ≤ 1 / 2 ^ 5)
    (hv₂ : q < 2 ^ 46 → |v - q| ≤ 1 / 2 ^ 8) (hp : p = j ∨ p = 1 ∨ p = 2) :
    v * 10 ^ p ≤ n + 2 / 5 := by
  have hs' : (s : ℚ) < 10 ^ 15 := by exact_mod_cast hs
  have hlt' : (n : ℚ) < 2 ^ 52 := by exact_mod_cast hlt
  rcases hp with rfl | rfl | rfl
  · have hscaled : q / 2 ^ 53 * 10 ^ p = s / 2 ^ 53 := by rw [← hq]; ring
    have hmul := mul_le_mul_of_nonneg_right (abs_le.mp hv).2 (ten_pow_pos p).le
    rw [hscaled, sub_mul, hn] at hmul
    linarith
  · have := (abs_le.mp (hv₁ (by linarith))).2
    linarith
  · have := (abs_le.mp (hv₂ (by linarith))).2
    linarith

end Errors

/-! ### The next hundredth -/

theorem hundredths_div (c k : Nat) :
    hundredths (c / 10 ^ (k + 2)) = ((2 * c + 10 ^ k) / (2 * 10 ^ k) : Nat) := by
  have h : 100 * (c / 10 ^ (k + 2) : ℚ) + 1 / 2 =
      ((2 * c + 10 ^ k : Nat) : ℚ) / (2 * 10 ^ k : Nat) := by
    push_cast
    field_simp
    ring
  rw [hundredths, h, Rat.floor_natCast_div_natCast, Int.natCast_div]

/-- A unit more behind a zero does not reach the next hundredth. -/
theorem hundredths_succ {n k : Nat} (h : 10 ∣ n) :
    hundredths ((n + 1 : Nat) / 10 ^ (k + 1 + 2)) = hundredths (n / 10 ^ (k + 1 + 2)) := by
  obtain ⟨m, rfl⟩ := h
  have hden : 2 * 10 ^ (k + 1) = 10 * (2 * 10 ^ k) := by ring
  have hdrop : (2 * (10 * m + 1) + 10 ^ (k + 1)) / 10 = (2 * (10 * m) + 10 ^ (k + 1)) / 10 := by
    rw [pow_succ]
    omega
  rw [hundredths_div, hundredths_div, hden, ← Nat.div_div_eq_div_mul _ 10,
    ← Nat.div_div_eq_div_mul _ 10, hdrop]

theorem hundredths_eq_zero {r : ℚ} (h : 0 ≤ r) (h' : r < 1 / 200) : hundredths r = 0 := by
  rw [hundredths, Int.floor_eq_zero_iff, Set.mem_Ico]
  constructor <;> linarith

/-! ### Both ends of the scale -/

section Ends

variable {v q : ℚ} {s j c p : Nat}

/-- Below a thousandth, and for what is read near it, the result is zero. -/
theorem hundredths_of_small (hv : v < 2 / 10 ^ 3) (h : (c : ℚ) ≤ v * 10 ^ p + 5 / 9) :
    hundredths (c / 10 ^ p) = 0 := by
  refine hundredths_eq_zero (by positivity) ?_
  rw [div_lt_iff₀ (ten_pow_pos p)]
  by_cases hp : p ≤ 2
  · have hpow : (10 : ℚ) ^ p ≤ 10 ^ 2 := pow_le_pow_right₀ (by norm_num) hp
    have hone : (1 : ℚ) ≤ 10 ^ p := one_le_pow₀ (by norm_num)
    have hmul : v * 10 ^ p ≤ 2 / 10 ^ 3 * 10 ^ p :=
      mul_le_mul_of_nonneg_right hv.le (ten_pow_pos p).le
    have hlt : (c : ℚ) < 1 := by linarith
    have hzero : c = 0 := Nat.lt_one_iff.mp (by exact_mod_cast hlt)
    rw [hzero, Nat.cast_zero]
    positivity
  · have hpow : (10 : ℚ) ^ 3 ≤ 10 ^ p := pow_le_pow_right₀ (by norm_num) (by omega)
    have hmul : v * 10 ^ p ≤ 2 / 10 ^ 3 * 10 ^ p :=
      mul_le_mul_of_nonneg_right hv.le (ten_pow_pos p).le
    linarith

/-- From a thousandth on, neither the binary form nor the places rounded away change the
hundredths of a short decimal. -/
theorem hundredths_shortened (hq : q * 10 ^ j = s) (hs : s < 10 ^ 15) (hlow : 1 / 10 ^ 3 ≤ q)
    (hv : |v - q| ≤ q / 2 ^ 53) (hv₁ : q < 2 ^ 49 → |v - q| ≤ 1 / 2 ^ 5)
    (hv₂ : q < 2 ^ 46 → |v - q| ≤ 1 / 2 ^ 8) (h : Shortened v c p) :
    hundredths (c / 10 ^ p) = hundredths q := by
  have hpos : 0 ≤ q := le_trans (by norm_num) hlow
  have hs' : (s : ℚ) < 10 ^ 15 := by exact_mod_cast hs
  have hle : q ≤ s := hq ▸ le_mul_of_one_le_right hpos (one_le_pow₀ (by norm_num))
  obtain ⟨hscaled₁, hscaled₂⟩ := scaled_bounds hv hpos p
  have hc : c < 2 ^ 52 := by
    refine h.short.elim id fun hp => ?_
    have hupper := h.upper
    rw [hp, pow_zero, mul_one] at hupper hscaled₂
    have hlt : (c : ℚ) < 2 ^ 52 := by linarith
    exact_mod_cast hlt
  rcases h.long with hp | ⟨hlong, -⟩ | ⟨hkept₁, hkept₂⟩
  · -- so many places would make the coefficient longer than it is
    exfalso
    have hlower := h.lower
    have hc' : (c : ℚ) < 2 ^ 52 := by exact_mod_cast hc
    rw [hp] at hlower hscaled₁
    linarith
  · have hjp := places_le hq hs hpos hscaled₂ h.upper hlong
    have hn := scaled_of_le hq hjp
    obtain ⟨hnc, hcn⟩ := off_by_one hn hv hpos h hc
    rw [← div_eq_of_scaled hn]
    by_cases hp : p = j ∨ p = 1 ∨ p = 2
    · rw [eq_of_scaled_error h hnc
        (scaled_error_le hq hs hn (hnc.trans_lt hc) hv hv₁ hv₂ hp)]
    · obtain ⟨k, rfl⟩ : ∃ k, p = k + 1 + 2 := ⟨p - 3, by omega⟩
      rcases Nat.of_le_succ hcn with hle | rfl
      · rw [le_antisymm hle hnc]
      · refine hundredths_succ (Dvd.dvd.mul_left (dvd_pow_self 10 ?_) s)
        omega
  · rw [kept_exactly hq hs hc (hscaled₁.trans hkept₁) (hkept₂.trans hscaled₂)]

end Ends

end CurrencyDesk.Decimal
