import CurrencyDesk.Proofs.Binary64.Grammar
import CurrencyDesk.Proofs.Binary64.Shortest
import CurrencyDesk.Text.Blank
/-!
# Numbers written out

A number is written out as a minus or nothing, digits, and perhaps a point with digits
behind it; there is no other sign and no power of ten. Such a text holds no white space, and
it is a numeral of the magnitude and the sign that it writes out.

Both ways of laying digits out yield such texts: digits with zeros behind them are multiplied
by a power of ten, and a point divides by one (`writtenOut_placePoint`). So a finite number
is written out as its shortest decimals.

Key definitions: `WrittenOut`.
Key theorems: `WrittenOut.spells`, `WrittenOut.words_eq`, `writtenOut_placePoint`,
`Finite.writtenOut_plain`.
-/

namespace CurrencyDesk

open Binary64
open Text (isBlank placePoint signed words words_eq_singleton)

/-- A text writes a magnitude under a sign out. -/
inductive WrittenOut : List Char → Bool → ℚ → Prop
  | mk {whole point fraction : List Char} (negative : Bool) :
      IsDigits whole → whole ≠ [] → SpellsFraction point fraction →
      WrittenOut (signed negative (whole ++ point)) negative
        (Nat.ofDigitChars 10 (whole ++ fraction) 0 / 10 ^ fraction.length)

namespace WrittenOut

variable {text : List Char} {negative : Bool} {r : ℚ}

theorem spells (h : WrittenOut text negative r) :
    ∃ n : Numeral, Numeral.Spells text n ∧ n.negative = negative ∧ |n.toRat| = r := by
  obtain ⟨negative, hwhole, hne, hpoint⟩ := h
  rename_i whole point fraction
  refine ⟨⟨negative, whole, fraction, 0⟩, ?_, rfl, ?_⟩
  · cases negative with
    | false => simpa [signed] using Numeral.Spells.mk .absent hwhole hpoint (.inl hne) .absent
    | true => simpa [signed] using Numeral.Spells.mk .minus hwhole hpoint (.inl hne) .absent
  · rw [Numeral.abs_toRat, Numeral.significand, Numeral.scale]
    simp only [zero_sub, zpow_neg, zpow_natCast]
    rfl

theorem mem (h : WrittenOut text negative r) {c : Char} (hc : c ∈ text) :
    c.isDigit = true ∨ c = '-' ∨ c = '.' := by
  obtain ⟨negative, hwhole, -, hpoint⟩ := h
  rename_i whole point fraction
  have hbody : c ∈ whole ++ point → c.isDigit = true ∨ c = '-' ∨ c = '.' := by
    intro hc
    rcases List.mem_append.mp hc with hc | hc
    · exact .inl (hwhole c hc)
    · cases hpoint with
      | absent => cases hc
      | point hdigits =>
        rcases List.mem_cons.mp hc with rfl | hc
        · exact .inr (.inr rfl)
        · exact .inl (hdigits c hc)
  cases negative with
  | false => exact hbody hc
  | true =>
    rcases List.mem_cons.mp hc with rfl | hc
    · exact .inr (.inl rfl)
    · exact hbody hc

theorem ne_nil (h : WrittenOut text negative r) : text ≠ [] := by
  obtain ⟨negative, -, hne, -⟩ := h
  cases negative <;> simp [signed, hne]

end WrittenOut

theorem isBlank_of_isDigit {c : Char} (h : c.isDigit = true) : isBlank c = false := by
  have hrange : 48 ≤ c.toNat ∧ c.toNat ≤ 57 := by
    simpa [Char.isDigit, UInt32.le_iff_toNat_le] using h
  rw [isBlank, List.contains_eq_any_beq, List.any_eq_false]
  intro blank hblank
  have hout : blank < 48 ∨ 57 < blank := by
    revert blank
    decide
  simp only [beq_iff_eq]
  omega

/-- A number that is written out is one word. -/
theorem WrittenOut.words_eq {text : List Char} {negative : Bool} {r : ℚ}
    (h : WrittenOut text negative r) : words text = [text] := by
  refine words_eq_singleton h.ne_nil fun c hc => ?_
  rcases h.mem hc with hdigit | rfl | rfl
  · exact isBlank_of_isDigit hdigit
  · decide
  · decide

/-! ### Digits laid out -/

theorem isDigits_toDigits (n : Nat) : IsDigits (Nat.toDigits 10 n) :=
  fun _ hc => Nat.isDigit_of_mem_toDigits (by decide) (by decide) hc

theorem isDigits_replicate_zero (n : Nat) : IsDigits (List.replicate n '0') := by
  intro c hc
  rw [List.eq_of_mem_replicate hc]
  decide

theorem IsDigits.append {s t : List Char} (hs : IsDigits s) (ht : IsDigits t) :
    IsDigits (s ++ t) :=
  fun c hc => (List.mem_append.mp hc).elim (hs c) (ht c)

section Layout

variable {digits : List Char}

theorem writtenOut_digits (negative : Bool) (hd : IsDigits digits) (hne : digits ≠ []) :
    WrittenOut (signed negative digits) negative (Nat.ofDigitChars 10 digits 0) := by
  simpa using WrittenOut.mk negative hd hne .absent

/-- Zeros behind digits multiply by a power of ten. -/
theorem writtenOut_append_zeros (negative : Bool) (hd : IsDigits digits) (hne : digits ≠ [])
    (k : Nat) : WrittenOut (signed negative (digits ++ List.replicate k '0')) negative
      (Nat.ofDigitChars 10 digits 0 * 10 ^ k) := by
  have h := writtenOut_digits negative (hd.append (isDigits_replicate_zero k)) (by simp [hne])
  rwa [Nat.ofDigitChars_append, Nat.ofDigitChars_replicate_zero, Nat.cast_mul, Nat.cast_pow,
    Nat.cast_ofNat, mul_comm] at h

/-- A point divides by a power of ten, also where zeros are put in front. -/
theorem writtenOut_placePoint (negative : Bool) (hd : IsDigits digits) (places : Nat) :
    WrittenOut (signed negative (placePoint digits places)) negative
      (Nat.ofDigitChars 10 digits 0 / 10 ^ places) := by
  unfold placePoint
  set padded := List.replicate (places + 1 - digits.length) '0' ++ digits with hpadded
  have hlong : places + 1 ≤ padded.length := by
    rw [hpadded, List.length_append, List.length_replicate]
    omega
  have hdigits : IsDigits padded := (isDigits_replicate_zero _).append hd
  have hvalue : Nat.ofDigitChars 10 padded 0 = Nat.ofDigitChars 10 digits 0 := by
    rw [hpadded, Nat.ofDigitChars_append, Nat.ofDigitChars_replicate_zero, mul_zero]
  have hne : padded.take (padded.length - places) ≠ [] := by
    rw [← List.length_pos_iff, List.length_take]
    omega
  have hplaces : (padded.drop (padded.length - places)).length = places := by
    rw [List.length_drop]
    omega
  have hpoint : SpellsFraction ('.' :: padded.drop (padded.length - places))
      (padded.drop (padded.length - places)) :=
    .point fun c hc => hdigits c (List.mem_of_mem_drop hc)
  have h := WrittenOut.mk negative (fun c hc => hdigits c (List.mem_of_mem_take hc)) hne hpoint
  rwa [List.take_append_drop, hplaces, hvalue] at h

end Layout

theorem Binary64.Finite.writtenOut_plain (x : Finite) :
    WrittenOut x.plain x.negative (x.shortest .away).value := by
  unfold plain
  generalize x.shortest .away = d
  have hdigits : IsDigits d.digits := isDigits_toDigits d.significand
  have hne : d.digits ≠ [] := Nat.toDigits_ne_nil
  have hvalue : Nat.ofDigitChars 10 d.digits 0 = d.significand := Nat.ofDigitChars_ten_toDigits
  dsimp only
  split_ifs with he
  · have h := writtenOut_append_zeros x.negative hdigits hne d.exponent.toNat
    rwa [hvalue, ← zpow_natCast, Int.toNat_of_nonneg he] at h
  · have h := writtenOut_placePoint x.negative hdigits (-d.exponent).toNat
    rwa [hvalue, div_eq_mul_inv, ← zpow_natCast, ← zpow_neg, Int.toNat_of_nonneg (by omega),
      Int.neg_neg] at h

end CurrencyDesk
