import CurrencyDesk.Proofs.Amount.NormalForm
import CurrencyDesk.Proofs.Amount.Unchanged
/-!
# The text of a converted amount determines it

What a conversion copies is in normal form. A finite number is shown as a reduced decimal of at
most two places, or it is `2 ^ 96` or more and is kept (`ofFinite_cases`). The text of a
decimal is in normal form. What is kept has a text of its own: the shortest decimals of so
large a number end in front of the point, because 17 digits of 29 are tried at most, and zeros
behind them are digits of a whole number. So every text is that of a reduced decimal, which
need not be the amount: the text of what is kept denotes another whole number near it.

That a text determines the amount is therefore not read off the decimals. What the text denotes
rounds to a number that is shown as the same amount (`exists_readBack`), and that number is one
for one text. The other way round amounts of one value are equal, since a decimal is below
`2 ^ 96` and what is kept is not.

Key definitions: `ConvertedAmount.Normal`.
Key theorems: `ConvertedAmount.ofFinite_cases`, `ConvertedAmount.normalForm_toChars`,
`ConvertedAmount.toChars_eq_iff`, `ConvertedAmount.value?_eq_iff`, `copied_text_is_normal`.
-/

namespace CurrencyDesk

open Binary64
open Text (signed)

/-! ### Large numbers written out -/

namespace Binary64

theorem Decimals.le_exponent_dropZeros : ∀ (fuel : Nat) (d : Decimals),
    d.exponent ≤ (d.dropZeros fuel).exponent
  | 0, _ => le_rfl
  | fuel + 1, d => by
    rw [dropZeros]
    split_ifs
    · have hle := le_exponent_dropZeros fuel ⟨d.significand / 10, d.exponent + 1⟩
      dsimp only at hle
      omega
    · exact le_rfl

namespace Finite

variable {x : Finite}

theorem exponent_of_onGrid? {tie : Tie} {e : Int} {d : Decimals} (h : x.onGrid? tie e = some d) :
    d.exponent = e := by
  unfold onGrid? at h
  dsimp only at h
  split_ifs at h <;> exact Option.some.inj h ▸ rfl

/-- The leading digit of `10 ^ 28` and of what is more. -/
theorem le_leadingTen (he : 0 ≤ x.exponent) (h : 10 ^ 28 ≤ x.numerator) : 28 ≤ x.leadingTen := by
  have hdenominator : x.denominator = 1 := by
    rw [denominator, Int.toNat_of_nonpos (by omega), pow_zero]
  have hlong (k : Nat) : 28 + k < (Nat.toDigits 10 (x.numerator * 10 ^ k)).length := by
    rw [← not_le, Nat.length_toDigits_le_iff (by decide) (by omega), not_lt, pow_add]
    exact Nat.mul_le_mul_right (10 ^ k) h
  unfold leadingTen
  rw [hdenominator, Nat.div_one]
  -- the power is too large to be worked out
  generalize hk : 324 = k
  have hlength := hlong k
  generalize (Nat.toDigits 10 (x.numerator * 10 ^ k)).length = count at *
  omega

/-- Of 29 digits 17 are tried at most, so the shortest decimals are a whole number. -/
theorem shortest_exponent_nonneg (he : 0 ≤ x.exponent) (h : 10 ^ 28 ≤ x.numerator) (tie : Tie) :
    0 ≤ (x.shortest tie).exponent := by
  unfold shortest
  split_ifs
  · exact le_rfl
  · rcases hfound : (List.range 17).findSome? fun (n : Nat) =>
        x.onGrid? tie (x.leadingTen - n) with _ | d
    · have hexact : 0 ≤ x.exactDecimals.exponent := le_min he le_rfl
      exact hexact.trans (Decimals.le_exponent_dropZeros _ _)
    · obtain ⟨n, hn, hgrid⟩ := List.exists_of_findSome?_eq_some hfound
      have hlead := le_leadingTen he h
      have hlt := List.mem_range.mp hn
      have hd : 0 ≤ d.exponent := by
        rw [exponent_of_onGrid? hgrid]
        omega
      exact hd.trans (Decimals.le_exponent_dropZeros _ _)

/-- A large number is written out as the digits of a whole number near it. -/
theorem exists_plain_eq (he : 0 ≤ x.exponent) (h : 2 ^ 96 ≤ x.numerator) :
    ∃ n : Nat, 2 ^ 95 ≤ n ∧ x.plain = signed x.negative (Nat.toDigits 10 n) := by
  have hexponent := shortest_exponent_nonneg he (le_trans (by decide) h) .away
  have hrounds := (x.rounds_shortest .away).magnitude_le_two_mul
  unfold plain
  generalize x.shortest .away = d at *
  obtain ⟨k, hk⟩ := Int.eq_ofNat_of_zero_le hexponent
  have hvalue : d.value = (d.significand * 10 ^ k : Nat) := by
    rw [Decimals.value, hk, zpow_natCast]
    push_cast
    rfl
  have hlarge : 2 ^ 95 ≤ d.significand * 10 ^ k := by
    rw [magnitude_of_exponent_nonneg he, hvalue] at hrounds
    have hle : x.numerator ≤ 2 * (d.significand * 10 ^ k) := by
      exact_mod_cast hrounds (Nat.cast_nonneg _)
    omega
  have hpos : 0 < d.significand := by
    refine Nat.pos_of_ne_zero fun hzero => ?_
    rw [hzero, Nat.zero_mul] at hlarge
    exact absurd hlarge (by decide)
  refine ⟨d.significand * 10 ^ k, hlarge, ?_⟩
  dsimp only
  rw [if_pos hexponent, hk, Int.toNat_natCast, Decimals.digits,
    toDigits_append_digits hpos (isDigits_replicate_zero k), Nat.ofDigitChars_replicate_zero,
    mul_comm]

end Finite

end Binary64

/-! ### What a finite number is shown as -/

namespace ConvertedAmount

variable (x y : Finite)

/-- A finite number is shown as a reduced decimal, or it is kept. -/
theorem ofFinite_cases :
    (∃ d : Decimal, ofFinite x = .exact d ∧ d.Reduced ∧ d.places ≤ 2 ∧ d.coefficient < 2 ^ 96) ∨
      ofFinite x = .float (.finite x) ∧ 0 ≤ x.exponent ∧ 2 ^ 96 ≤ x.numerator := by
  rcases lt_or_ge x.exponent 0 with he | he
  · obtain ⟨d, hd, hshown⟩ := Decimal.shown_of_exponent_neg he
    refine .inl ⟨d, hd, hshown.reduced, hshown.places_le, ?_⟩
    by_cases hp : d.places = 0
    · exact (hshown.whole hp).trans (by decide)
    · exact (hshown.short hp).trans (by decide)
  · rw [ofFinite_of_exponent_nonneg he]
    split_ifs with hlimit
    · have hpos : 2 ^ 52 ≤ x.numerator := by
        have := Finite.le_magnitude_of_exponent_nonneg he
        rw [Finite.magnitude_of_exponent_nonneg he] at this
        exact_mod_cast this
      refine .inl ⟨_, rfl, ⟨.inl rfl, fun hzero => ?_⟩, Nat.zero_le 2, hlimit⟩
      dsimp only at hzero
      omega
    · exact .inr ⟨rfl, he, not_lt.mp hlimit⟩

theorem exists_toChars_eq : ∃ d : Decimal, d.Reduced ∧ d.places ≤ 2 ∧
    (ofFinite x).toChars = d.toChars := by
  rcases ofFinite_cases x with ⟨d, hd, hreduced, hplaces, -⟩ | ⟨hx, he, hlarge⟩
  · exact ⟨d, hreduced, hplaces, by rw [hd, toChars]⟩
  · obtain ⟨n, hn, hplain⟩ := Finite.exists_plain_eq he hlarge
    refine ⟨⟨x.negative, n, 0⟩, ⟨.inl rfl, fun hzero => ?_⟩, Nat.zero_le 2, ?_⟩
    · dsimp only at hzero
      omega
    · rw [hx, toChars, Binary64.toChars, hplain, Decimal.toChars_of_places_eq_zero rfl]

theorem normalForm_toChars : NormalForm (ofFinite x).toChars := by
  obtain ⟨d, hd, hp, htext⟩ := exists_toChars_eq x
  rw [htext]
  exact hd.normalForm hp

variable {x y}

theorem toChars_eq_iff : (ofFinite x).toChars = (ofFinite y).toChars ↔ ofFinite x = ofFinite y := by
  refine ⟨fun h => ?_, congrArg toChars⟩
  obtain ⟨s, r, a, hx, ha, hax⟩ := exists_readBack x
  obtain ⟨t, q, b, hy, hb, hby⟩ := exists_readBack y
  obtain ⟨n, hn, rfl, rfl⟩ := hx.spells
  obtain ⟨m, hm, rfl, rfl⟩ := hy.spells
  have hread := Numeral.ofChars?_eq_some_iff.mpr hn
  rw [h, Numeral.ofChars?_eq_some_iff.mpr hm] at hread
  obtain rfl := Option.some.inj hread
  rw [← hax, ← hby, ha.unique hb]

theorem value?_eq_iff : (ofFinite x).value? = (ofFinite y).value? ↔ ofFinite x = ofFinite y := by
  refine ⟨fun h => ?_, congrArg value?⟩
  have hfar {w : Finite} {d : Decimal} (hd : d.coefficient < 2 ^ 96) (he : 0 ≤ w.exponent)
      (hw : 2 ^ 96 ≤ w.numerator) (heq : some d.toRat = some w.toRat) : False := by
    have habs := congrArg abs (Option.some.inj heq)
    rw [d.abs_toRat, w.abs_toRat, Finite.magnitude_of_exponent_nonneg he] at habs
    have hle := habs ▸ d.magnitude_le_coefficient
    have : w.numerator ≤ d.coefficient := by exact_mod_cast hle
    omega
  rcases ofFinite_cases x with ⟨d, hd, hreduced, -, hlimit⟩ | ⟨hx, he, hlarge⟩ <;>
    rcases ofFinite_cases y with ⟨d', hd', hreduced', -, hlimit'⟩ | ⟨hy, he', hlarge'⟩
  · rw [hd, hd'] at h ⊢
    rw [hreduced.eq_of_toRat_eq hreduced' (Option.some.inj h)]
  · rw [hd, hy] at h
    exact (hfar hlimit he' hlarge' h).elim
  · rw [hx, hd'] at h
    exact (hfar hlimit' he hlarge h.symm).elim
  · rw [hx, hy] at h
    have hvalue : x.toRat = y.toRat := Option.some.inj h
    have hmagnitude : x.magnitude = y.magnitude := by
      rw [← x.abs_toRat, ← y.abs_toRat, hvalue]
    have hne : x.magnitude ≠ 0 := by
      have := Finite.le_magnitude_of_exponent_nonneg he
      positivity
    have hsign : x.negative = y.negative := by
      refine withSign_injective hne ?_
      rw [Finite.toRat, Finite.toRat, ← hmagnitude] at hvalue
      exact hvalue
    rw [Finite.eq_of_magnitude_eq hsign hmagnitude]

theorem exists_value? (x : Finite) : ∃ v, (ofFinite x).value? = some v := by
  rcases ofFinite_cases x with ⟨d, hd, -⟩ | ⟨hx, -⟩
  · exact ⟨d.toRat, by rw [hd, value?]⟩
  · exact ⟨x.toRat, by rw [hx, value?]⟩

end ConvertedAmount

/-! ### The copied text -/

theorem NormalForm.ne_negative_zero {text : List Char} (h : NormalForm text) :
    text ≠ ['-', '0'] := by
  obtain ⟨negative, hwhole, -, hsign⟩ := h
  rename_i whole point fraction
  intro heq
  cases negative with
  | true => exact absurd (hsign (List.cons.inj heq).2) (by decide)
  | false =>
    -- no whole number begins with a minus
    cases hwhole with
    | zero => exact absurd (List.cons.inj heq).1 (by decide)
    | digits _ hdigits =>
      have hfirst := hdigits _ List.mem_cons_self
      rw [(List.cons.inj heq).1] at hfirst
      exact absurd hfirst (by decide)

/-- What the text of a converted amount is. -/
structure ConvertedAmount.Normal (c : ConvertedAmount) (text : List Char) : Prop where
  form : NormalForm text
  /-- There is no plus, no mark of a power of ten, and nothing between digits but a point. -/
  characters : ∀ a ∈ text, a.isDigit = true ∨ a = '-' ∨ a = '.'
  ne_negative_zero : text ≠ ['-', '0']
  /-- A decimal is what its text denotes, and no other text in normal form denotes it. -/
  exact : ∀ d, c = .exact d → d.places ≤ 2 ∧ d.coefficient < 2 ^ 96 ∧ Denotes text d.toRat ∧
    ∀ other, NormalForm other → Denotes other d.toRat → other = text
  /-- What is kept is written out in full and is read back as itself. -/
  float : ∀ b, c = .float b → ∃ (x : Finite) (digits : List Char), b = .finite x ∧
    text = signed x.negative digits ∧ IsDigits digits ∧ 29 ≤ digits.length ∧
    Binary64.ofChars? text = some b

/-- A number is read back from what it is written out as. -/
theorem Binary64.Finite.ofChars?_plain (x : Finite) :
    Binary64.ofChars? x.plain = some (.finite x) := by
  obtain ⟨n, hspells, hsign, hvalue⟩ := x.writtenOut_plain.spells
  have hrounds : x.Rounds n.negative |n.toRat| := by
    rw [hsign, hvalue]
    exact x.rounds_shortest .away
  have hamount := Request.amount?_eq_some_iff.mpr ⟨n, x, hspells, hrounds, rfl⟩
  exact (Option.filter_eq_some_iff.mp hamount).1

theorem ConvertedAmount.normal_ofFinite (x : Finite) :
    (ofFinite x).Normal (ofFinite x).toChars := by
  have hform := normalForm_toChars x
  refine
    { form := hform
      characters := fun a ha => ?_
      ne_negative_zero := hform.ne_negative_zero
      exact := fun d hd => ?_
      float := fun b hb => ?_ }
  · obtain ⟨d, -, -, htext⟩ := exists_toChars_eq x
    exact d.writtenOut_toChars.mem (htext ▸ ha)
  · rcases ofFinite_cases x with ⟨d', hd', -, hplaces, hlimit⟩ | ⟨hx, -⟩
    · obtain rfl : d' = d := ConvertedAmount.exact.inj (hd'.symm.trans hd)
      have hdenotes : Denotes (ofFinite x).toChars d'.toRat := by
        rw [hd, toChars, Decimal.denotes_toChars_iff]
      exact ⟨hplaces, hlimit, hdenotes,
        fun other hother hq => hother.eq_of_denotes hform hq hdenotes⟩
    · rw [hx] at hd
      cases hd
  · rcases ofFinite_cases x with ⟨d, hd, -⟩ | ⟨hx, he, hlarge⟩
    · rw [hd] at hb
      cases hb
    · obtain rfl : .finite x = b := ConvertedAmount.float.inj (hx.symm.trans hb)
      obtain ⟨n, hn, hplain⟩ := Finite.exists_plain_eq he hlarge
      have hlength : ¬ (Nat.toDigits 10 n).length ≤ 28 := by
        rw [Nat.length_toDigits_le_iff (by decide) (by decide), not_lt]
        exact le_trans (by decide) hn
      have htext : (ofFinite x).toChars = x.plain := by rw [hx, toChars, Binary64.toChars]
      rw [htext]
      exact ⟨x, Nat.toDigits 10 n, rfl, hplain, isDigits_toDigits n, not_le.mp hlength,
        x.ofChars?_plain⟩

/-- **The copied text is in normal form and determines the amount.** A conversion that succeeds
copies a number in normal form, which denotes the decimal that is shown, or, from `2 ^ 96` on,
is 29 digits or more that are read back as the number that is kept. Two conversions copy the
same text exactly when what they show has the same value. -/
theorem copied_text_is_normal {request request' : Request} {rate rate' : Binary64}
    {conversion conversion' : Conversion}
    (h : Conversion.make request (.ok rate) = .ok conversion)
    (h' : Conversion.make request' (.ok rate') = .ok conversion') :
    ∃ (text text' : String) (value value' : ℚ),
      (Item.ofConversion conversion).copies = some text ∧
      (Item.ofConversion conversion').copies = some text' ∧
      conversion.converted.Normal text.toList ∧ conversion'.converted.Normal text'.toList ∧
      conversion.converted.value? = some value ∧ conversion'.converted.value? = some value' ∧
      (text = text' ↔ value = value') := by
  obtain ⟨x, hx⟩ := Conversion.exists_of_make h
  obtain ⟨y, hy⟩ := Conversion.exists_of_make h'
  obtain ⟨value, hvalue⟩ := ConvertedAmount.exists_value? x
  obtain ⟨value', hvalue'⟩ := ConvertedAmount.exists_value? y
  have hchars (c : ConvertedAmount) : c.text.toList = c.toChars := String.toList_ofList
  refine ⟨conversion.converted.text, conversion'.converted.text, value, value', rfl, rfl, ?_⟩
  rw [hchars, hchars, hx, hy]
  refine ⟨ConvertedAmount.normal_ofFinite x, ConvertedAmount.normal_ofFinite y, hvalue, hvalue', ?_⟩
  calc (ConvertedAmount.ofFinite x).text = (ConvertedAmount.ofFinite y).text
      ↔ (ConvertedAmount.ofFinite x).toChars = (ConvertedAmount.ofFinite y).toChars :=
        String.ofList_inj
    _ ↔ ConvertedAmount.ofFinite x = ConvertedAmount.ofFinite y :=
        ConvertedAmount.toChars_eq_iff
    _ ↔ value = value' := by
        rw [← ConvertedAmount.value?_eq_iff, hvalue, hvalue', Option.some.injEq]

/-- A negative amount that comes to nothing, and the first one that is no decimal. -/
theorem copied_text_is_normal_at_ends :
    let small : Conversion :=
      ⟨⟨.finite ⟨true, 4611686018427388, -62, by decide⟩, "eur", "usd"⟩, .ofInt 1,
        .exact ⟨false, 0, 0⟩⟩
    let large : Conversion :=
      ⟨⟨.finite ⟨true, 2 ^ 52, 44, by decide⟩, "eur", "usd"⟩, .ofInt 1,
        .float (.finite ⟨true, 2 ^ 52, 44, by decide⟩)⟩
    Conversion.make small.request (.ok small.rate) = .ok small ∧
      Conversion.make large.request (.ok large.rate) = .ok large ∧
      small.converted.Normal "0".toList ∧
      large.converted.Normal "-79228162514264340000000000000".toList ∧
      small.converted.value? ≠ large.converted.value? := by
  intro small large
  have hsmall : Conversion.make small.request (.ok small.rate) = .ok small := by decide +kernel
  have hlarge : Conversion.make large.request (.ok large.rate) = .ok large := by decide +kernel
  have hcopies : (Item.ofConversion small).copies = some "0" := by decide +kernel
  have hcopies' : (Item.ofConversion large).copies = some "-79228162514264340000000000000" := by
    decide +kernel
  obtain ⟨text, text', value, value', htext, htext', hnormal, hnormal', hvalue, hvalue', hiff⟩ :=
    copied_text_is_normal hsmall hlarge
  obtain rfl : "0" = text := Option.some.inj (hcopies.symm.trans htext)
  obtain rfl : "-79228162514264340000000000000" = text' :=
    Option.some.inj (hcopies'.symm.trans htext')
  refine ⟨hsmall, hlarge, hnormal, hnormal', fun heq => ?_⟩
  rw [hvalue, hvalue'] at heq
  exact absurd (hiff.mpr (Option.some.inj heq)) (by decide)

end CurrencyDesk
