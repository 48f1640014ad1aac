import CurrencyDesk.Proofs.Amount.ReadBack
/-!
# The normal form of a number that is written out

A number in normal form is a minus or nothing, a zero alone or digits that do not begin with
one, and perhaps a point with one digit or two, of which the last is not a zero; zero has no
minus. These are exactly the texts of reduced decimals of at most two places
(`normalForm_iff`): the whole part is the quotient by the power of ten, the digits behind the
point are the rest. A value has one reduced decimal, so it has one text in normal form
(`NormalForm.eq_of_denotes`).

Key definitions: `NormalForm`, `Denotes`.
Key theorems: `toDigits_ofDigitChars`, `placePoint_toDigits`, `normalForm_iff`,
`Decimal.denotes_toChars_iff`, `NormalForm.eq_of_denotes`.
-/

namespace CurrencyDesk

open Text (placePoint signed)

/-! ### The form -/

/-- A text is a whole number: a zero alone, or digits that do not begin with one. -/
inductive SpellsWhole : List Char → Prop
  | zero : SpellsWhole ['0']
  | digits {first : Char} {rest : List Char} : first ≠ '0' → IsDigits (first :: rest) →
      SpellsWhole (first :: rest)

/-- A text is nothing, or a point with one digit or two, the last of them no zero. -/
inductive SpellsPlaces : List Char → List Char → Prop
  | none : SpellsPlaces [] []
  | tenths {a : Char} : IsDigits [a] → a ≠ '0' → SpellsPlaces ['.', a] [a]
  | hundredths {a b : Char} : IsDigits [a, b] → b ≠ '0' → SpellsPlaces ['.', a, b] [a, b]

/-- A text is a number in normal form. -/
inductive NormalForm : List Char → Prop
  | mk {whole point fraction : List Char} (negative : Bool) : SpellsWhole whole →
      SpellsPlaces point fraction → (whole ++ point = ['0'] → negative = false) →
      NormalForm (signed negative (whole ++ point))

/-- A text is a numeral of a value. -/
def Denotes (text : List Char) (q : ℚ) : Prop :=
  ∃ n : Numeral, Numeral.Spells text n ∧ n.toRat = q

/-! ### Digits of whole numbers -/

theorem digitChar_of_isDigit {c : Char} (h : c.isDigit = true) :
    (c.toNat - 48).digitChar = c ∧ c.toNat - 48 < 10 := by
  have hrange : 48 ≤ c.toNat ∧ c.toNat ≤ 57 := by
    simpa [Char.isDigit, UInt32.le_iff_toNat_le] using h
  refine ⟨Char.toNat_inj.mp ?_, by omega⟩
  rw [Nat.toNat_digitChar_of_lt_ten (by omega)]
  omega

theorem isDigit_digitChar {n : Nat} (h : n < 10) : n.digitChar.isDigit = true :=
  isDigits_toDigits n _ (by rw [Nat.toDigits_of_lt_base h]; exact List.mem_singleton_self _)

theorem digitChar_ne_zero {n : Nat} (h : n < 10) (hn : n ≠ 0) : n.digitChar ≠ '0' := by
  intro heq
  have hnat := congrArg Char.toNat heq
  rw [Nat.toNat_digitChar_of_lt_ten h] at hnat
  exact hn (Nat.add_left_cancel (m := n) (k := 0) hnat)

theorem toDigits_append_digits {n : Nat} (hn : 0 < n) {s : List Char} (hs : IsDigits s) :
    Nat.toDigits 10 n ++ s = Nat.toDigits 10 (Nat.ofDigitChars 10 s n) := by
  induction s generalizing n with
  | nil => rw [List.append_nil, Nat.ofDigitChars_nil]
  | cons c s ih =>
    obtain ⟨hc, hlt⟩ := digitChar_of_isDigit (hs c List.mem_cons_self)
    have hnext := Nat.toDigits_append_toDigits (b := 10) (by decide) hn hlt
    rw [Nat.toDigits_of_lt_base hlt, hc] at hnext
    rw [List.append_cons, hnext, Nat.ofDigitChars_cons]
    exact ih (by omega) fun a ha => hs a (List.mem_cons_of_mem c ha)

theorem toDigits_ofDigitChars {whole : List Char} (h : SpellsWhole whole) :
    Nat.toDigits 10 (Nat.ofDigitChars 10 whole 0) = whole := by
  cases h with
  | zero => rfl
  | digits hne hdigits =>
    rename_i first rest
    obtain ⟨hfirst, hlt⟩ := digitChar_of_isDigit (hdigits first List.mem_cons_self)
    have hpos : 0 < first.toNat - 48 := by
      refine Nat.pos_of_ne_zero fun hzero => hne ?_
      rw [← hfirst, hzero]
      rfl
    have hrest := toDigits_append_digits hpos fun a ha => hdigits a (List.mem_cons_of_mem first ha)
    rw [Nat.toDigits_of_lt_base hlt, hfirst, List.singleton_append] at hrest
    rw [Nat.ofDigitChars_cons, mul_zero, zero_add, hrest]
    rfl

theorem spellsWhole_toDigits (n : Nat) : SpellsWhole (Nat.toDigits 10 n) := by
  induction n using Nat.strongRecOn with
  | ind n ih =>
    rcases Nat.lt_or_ge n 10 with hlt | hge
    · rw [Nat.toDigits_of_lt_base hlt]
      rcases Nat.eq_zero_or_pos n with rfl | hpos
      · exact .zero
      · refine .digits (digitChar_ne_zero hlt hpos.ne') fun c hc => ?_
        rw [List.mem_singleton.mp hc]
        exact isDigit_digitChar hlt
    · have hdigits := isDigits_toDigits n
      have hfront := ih (n / 10) (by omega)
      have hvalue : Nat.ofDigitChars 10 (Nat.toDigits 10 (n / 10)) 0 = n / 10 :=
        Nat.ofDigitChars_ten_toDigits
      rw [Nat.toDigits_of_base_le (by decide) hge] at hdigits ⊢
      generalize Nat.toDigits 10 (n / 10) = front at *
      cases hfront with
      | zero =>
        -- the digits in front of the last one are not those of zero
        rw [show Nat.ofDigitChars 10 ['0'] 0 = 0 from rfl] at hvalue
        omega
      | digits hne _ => exact .digits hne hdigits

/-! ### A point among digits -/

/-- The last `places` digits of a number. -/
def lastDigits : (places n : Nat) → List Char
  | 0, _ => []
  | places + 1, n => lastDigits places (n / 10) ++ [(n % 10).digitChar]

/-- Zeros in front of the digits of a number reach as far as the places, and one digit more. -/
theorem padded_eq (places n : Nat) :
    List.replicate (places + 1 - (Nat.toDigits 10 n).length) '0' ++ Nat.toDigits 10 n =
      Nat.toDigits 10 (n / 10 ^ places) ++ lastDigits places n := by
  induction places generalizing n with
  | zero =>
    have hlength : 0 < (Nat.toDigits 10 n).length := Nat.length_toDigits_pos
    rw [Nat.sub_eq_zero_of_le (by omega), pow_zero, Nat.div_one, lastDigits, List.replicate_zero,
      List.nil_append, List.append_nil]
  | succ places ih =>
    have hrest := ih (n / 10)
    rw [Nat.div_div_eq_div_mul, ← pow_succ'] at hrest
    rw [lastDigits, ← List.append_assoc, ← hrest]
    rcases Nat.lt_or_ge n 10 with hlt | hge
    · -- the digits in front of the last one are a zero more than there are
      rw [Nat.div_eq_of_lt hlt, Nat.mod_eq_of_lt hlt, Nat.toDigits_of_lt_base hlt,
        Nat.toDigits_zero]
      simp only [List.length_singleton, Nat.add_sub_cancel]
      rw [← List.replicate_succ']
    · rw [Nat.toDigits_of_base_le (by decide) hge, List.length_append, List.length_singleton,
        Nat.add_sub_add_right, List.append_assoc]

theorem length_lastDigits (places n : Nat) : (lastDigits places n).length = places := by
  induction places generalizing n with
  | zero => rfl
  | succ places ih => rw [lastDigits, List.length_append, ih, List.length_singleton]

/-- A point divides the digits of a number into those of a quotient and the last ones. -/
theorem placePoint_toDigits (n places : Nat) : placePoint (Nat.toDigits 10 n) places =
    Nat.toDigits 10 (n / 10 ^ places) ++ '.' :: lastDigits places n := by
  have hlength := length_lastDigits places n
  unfold placePoint
  dsimp only
  rw [padded_eq, List.length_append, hlength, Nat.add_sub_cancel, List.take_left', List.drop_left']
  all_goals rfl

/-! ### Reduced decimals -/

namespace Decimal

variable {d : Decimal}

theorem toChars_of_places_eq_zero (h : d.places = 0) :
    d.toChars = signed d.negative (Nat.toDigits 10 d.coefficient) := by
  rw [toChars, if_pos h]

theorem toChars_of_places_ne_zero (h : d.places ≠ 0) : d.toChars = signed d.negative
    (Nat.toDigits 10 (d.coefficient / 10 ^ d.places) ++
      '.' :: lastDigits d.places d.coefficient) := by
  rw [toChars, if_neg h, placePoint_toDigits]

theorem spellsPlaces_lastDigits (hd : d.Reduced) (hp : d.places ≤ 2) (hp' : d.places ≠ 0) :
    SpellsPlaces ('.' :: lastDigits d.places d.coefficient)
      (lastDigits d.places d.coefficient) := by
  have hlast : (d.coefficient % 10).digitChar ≠ '0' := by
    refine digitChar_ne_zero (Nat.mod_lt _ (by decide)) fun hzero => ?_
    exact hd.places.resolve_left hp' (Nat.dvd_of_mod_eq_zero hzero)
  have hdigit (n : Nat) : (n % 10).digitChar.isDigit = true :=
    isDigit_digitChar (Nat.mod_lt _ (by decide))
  have hplaces : d.places = 1 ∨ d.places = 2 := by omega
  rcases hplaces with h | h <;> rw [h]
  · exact .tenths (by simp [IsDigits, hdigit]) hlast
  · exact .hundredths (by simp [IsDigits, hdigit]) hlast

theorem Reduced.normalForm (hd : d.Reduced) (hp : d.places ≤ 2) : NormalForm d.toChars := by
  by_cases hzero : d.places = 0
  · rw [toChars_of_places_eq_zero hzero, ← List.append_nil (Nat.toDigits 10 d.coefficient)]
    refine .mk d.negative (spellsWhole_toDigits _) .none fun heq => hd.sign ?_
    have hvalue : Nat.ofDigitChars 10 (Nat.toDigits 10 d.coefficient) 0 = d.coefficient :=
      Nat.ofDigitChars_ten_toDigits
    rw [← hvalue, ← List.append_nil (Nat.toDigits 10 d.coefficient), heq]
    rfl
  · rw [toChars_of_places_ne_zero hzero]
    refine .mk d.negative (spellsWhole_toDigits _) (spellsPlaces_lastDigits hd hp hzero)
      fun heq => ?_
    -- a zero alone has no point
    have hmem : '.' ∈ ['0'] := heq ▸ List.mem_append_right _ List.mem_cons_self
    exact absurd hmem (by decide)

/-- A coefficient with a last digit that is not zero is that of a reduced decimal. -/
theorem reduced_of_mod_ne_zero {n : Nat} (h : n % 10 ≠ 0) (negative : Bool) (places : Nat) :
    Reduced ⟨negative, n, places⟩ := by
  refine ⟨.inr fun hdvd => h (Nat.mod_eq_zero_of_dvd hdvd), fun hn => absurd ?_ h⟩
  obtain rfl : n = 0 := hn
  rfl

/-- A text in normal form is that of a reduced decimal. -/
theorem exists_of_normalForm {text : List Char} (h : NormalForm text) :
    ∃ d : Decimal, d.Reduced ∧ d.places ≤ 2 ∧ d.toChars = text := by
  obtain ⟨negative, hwhole, hplaces, hsign⟩ := h
  rename_i whole point fraction
  have hdigits := toDigits_ofDigitChars hwhole
  generalize Nat.ofDigitChars 10 whole 0 = n at hdigits
  subst hdigits
  cases hplaces with
  | none =>
    refine ⟨⟨negative, n, 0⟩, ⟨.inl rfl, fun hn => hsign ?_⟩, Nat.zero_le 2, ?_⟩
    · obtain rfl : n = 0 := hn
      rfl
    · rw [toChars_of_places_eq_zero rfl, List.append_nil]
  | tenths ha hne =>
    rename_i a
    obtain ⟨hchar, hlt⟩ := digitChar_of_isDigit (ha a List.mem_cons_self)
    generalize a.toNat - 48 = k at hchar hlt
    subst hchar
    have hk : k ≠ 0 := by rintro rfl; exact hne rfl
    refine ⟨⟨negative, 10 * n + k, 1⟩, reduced_of_mod_ne_zero (by omega) _ _, one_le_two, ?_⟩
    rw [toChars_of_places_ne_zero one_ne_zero, lastDigits, lastDigits, List.nil_append, pow_one,
      show (10 * n + k) / 10 = n by omega, show (10 * n + k) % 10 = k by omega]
  | hundredths hab hne =>
    rename_i a b
    obtain ⟨hchar, hlt⟩ := digitChar_of_isDigit (hab a List.mem_cons_self)
    obtain ⟨hchar', hlt'⟩ :=
      digitChar_of_isDigit (hab b (List.mem_cons_of_mem a List.mem_cons_self))
    generalize a.toNat - 48 = j at hchar hlt
    generalize b.toNat - 48 = k at hchar' hlt'
    subst hchar hchar'
    have hk : k ≠ 0 := by rintro rfl; exact hne rfl
    refine ⟨⟨negative, 100 * n + 10 * j + k, 2⟩, reduced_of_mod_ne_zero (by omega) _ _, le_rfl, ?_⟩
    rw [toChars_of_places_ne_zero two_ne_zero, lastDigits, lastDigits, lastDigits, List.nil_append,
      show (100 * n + 10 * j + k) / 10 ^ 2 = n by omega,
      show (100 * n + 10 * j + k) / 10 % 10 = j by omega,
      show (100 * n + 10 * j + k) % 10 = k by omega]
    rfl

theorem denotes_toChars_iff {q : ℚ} : Denotes d.toChars q ↔ q = d.toRat := by
  obtain ⟨n, hspells, hsign, hvalue⟩ := d.writtenOut_toChars.spells
  have hn : n.toRat = d.toRat := by
    rw [toRat, ← hsign, ← hvalue, Numeral.abs_toRat, Numeral.toRat]
  constructor
  · rintro ⟨m, hm, rfl⟩
    have hread := Numeral.ofChars?_eq_some_iff.mpr hm
    rw [Numeral.ofChars?_eq_some_iff.mpr hspells] at hread
    rw [← Option.some.inj hread, hn]
  · rintro rfl
    exact ⟨n, hspells, hn⟩

end Decimal

/-- **The texts in normal form are those of reduced decimals of at most two places.** -/
theorem normalForm_iff {text : List Char} :
    NormalForm text ↔ ∃ d : Decimal, d.Reduced ∧ d.places ≤ 2 ∧ d.toChars = text :=
  ⟨Decimal.exists_of_normalForm, by rintro ⟨d, hd, hp, rfl⟩; exact hd.normalForm hp⟩

/-- **A value has one text in normal form.** -/
theorem NormalForm.eq_of_denotes {text other : List Char} {q : ℚ} (h : NormalForm text)
    (h' : NormalForm other) (hq : Denotes text q) (hq' : Denotes other q) : text = other := by
  obtain ⟨d, hd, -, rfl⟩ := normalForm_iff.mp h
  obtain ⟨d', hd', -, rfl⟩ := normalForm_iff.mp h'
  have heq : d = d' := hd.eq_of_toRat_eq hd'
    ((Decimal.denotes_toChars_iff.mp hq).symm.trans (Decimal.denotes_toChars_iff.mp hq'))
  rw [heq]

end CurrencyDesk
