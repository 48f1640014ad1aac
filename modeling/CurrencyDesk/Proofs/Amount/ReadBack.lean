import CurrencyDesk.Proofs.Amount.Shown
import CurrencyDesk.Proofs.Binary64.Written
import CurrencyDesk.Proofs.Query.Language
/-!
# A copied amount is read back as itself

The text that a conversion copies is a number written out: a decimal as its value, and a
binary64 number as its shortest decimals. The text is read as the number that the value it
writes out rounds to, and that number is shown as the same converted amount:

* a decimal that a number with a fraction is shown as is a fixed point (`Shown.ofFinite_eq`);
* a whole number beyond the mantissa is read as itself, whether its text is the exact value
  or its shortest decimals.

Key theorems: `Decimal.writtenOut_toChars`, `ConvertedAmount.exists_readBack`,
`copied_text_reads_back`.
-/

namespace CurrencyDesk

open Binary64
open Text (words)

/-- A decimal is written out as its value. -/
theorem Decimal.writtenOut_toChars (d : Decimal) :
    WrittenOut d.toChars d.negative d.magnitude := by
  have hdigits := isDigits_toDigits d.coefficient
  have hvalue : Nat.ofDigitChars 10 (Nat.toDigits 10 d.coefficient) 0 = d.coefficient :=
    Nat.ofDigitChars_ten_toDigits
  unfold toChars
  dsimp only
  split_ifs with hp
  · have h := writtenOut_digits d.negative hdigits Nat.toDigits_ne_nil
    rwa [hvalue, ← magnitude_of_places_eq_zero hp] at h
  · have h := writtenOut_placePoint d.negative hdigits d.places
    rwa [hvalue] at h

/-- What a finite number is shown as is written out, and what the text stands for rounds to a
number that is shown as the same. -/
theorem ConvertedAmount.exists_readBack (x : Finite) : ∃ (negative : Bool) (r : ℚ) (y : Finite),
    WrittenOut (ofFinite x).toChars negative r ∧ y.Rounds negative r ∧
      ofFinite y = ofFinite x := by
  rcases lt_or_ge x.exponent 0 with he | he
  · obtain ⟨d, hd, hshown⟩ := Decimal.shown_of_exponent_neg he
    have hwritten := d.writtenOut_toChars
    obtain ⟨n, -, hsign, hvalue⟩ := hwritten.spells
    have hrange : |n.toRat| < overflow := by
      rw [hvalue]
      calc d.magnitude < 2 ^ 53 := hshown.magnitude_lt
        _ = 2 ^ (53 : ℤ) := rfl
        _ ≤ 2 ^ (1023 : ℤ) := zpow_le_zpow_right₀ one_le_two (by omega)
        _ ≤ overflow := two_zpow_le_overflow
    obtain ⟨y, hy⟩ := n.exists_rounds hrange
    rw [hsign, hvalue] at hy
    rw [hd]
    exact ⟨d.negative, d.magnitude, y, hwritten, hy, hshown.ofFinite_eq hy⟩
  · have hshow := ofFinite_of_exponent_nonneg he
    by_cases hlimit : x.numerator < Decimal.limit
    · rw [if_pos hlimit] at hshow
      have hwritten := Decimal.writtenOut_toChars ⟨x.negative, x.numerator, 0⟩
      have hmag : Decimal.magnitude ⟨x.negative, x.numerator, 0⟩ = x.magnitude := by
        rw [Decimal.magnitude_of_places_eq_zero rfl, Finite.magnitude_of_exponent_nonneg he]
      rw [hmag] at hwritten
      exact ⟨x.negative, x.magnitude, x, hshow ▸ hwritten, x.rounds_magnitude, rfl⟩
    · rw [if_neg hlimit] at hshow
      exact ⟨x.negative, _, x, hshow ▸ x.writtenOut_plain, x.rounds_shortest .away, rfl⟩

theorem Conversion.exists_of_make {request : Request} {rate : Binary64} {c : Conversion}
    (h : Conversion.make request (.ok rate) = .ok c) :
    ∃ x : Finite, c.converted = ConvertedAmount.ofFinite x := by
  obtain ⟨x, -, rfl⟩ := eq_of_make h
  exact ⟨x, rfl⟩

/-- **The text that a conversion copies can be fed back.** It is a number written out in full
and one word, so that it is a query under all settings; and the amount that it is read as,
between whatever currencies, is converted at rate 1 with a result that copies the same text. -/
theorem copied_text_reads_back {request : Request} {rate : Binary64} {conversion : Conversion}
    (h : Conversion.make request (.ok rate) = .ok conversion) :
    ∃ (text : String) (amount : Finite), (Item.ofConversion conversion).copies = some text ∧
      (∃ negative r, WrittenOut text.toList negative r) ∧ words text.toList = [text.toList] ∧
      (∀ settings : Settings, Request.parse? settings text = some
        (Request.make (.finite amount) settings.defaultPair.1 settings.defaultPair.2)) ∧
      ∀ source target : String, ∃ again,
        Conversion.make ⟨.finite amount, source, target⟩ (.ok (.ofInt 1)) = .ok again ∧
        again.converted = conversion.converted ∧
        (Item.ofConversion again).copies = some text := by
  obtain ⟨x, hx⟩ := Conversion.exists_of_make h
  obtain ⟨negative, r, y, hwritten, hy, hsame⟩ := ConvertedAmount.exists_readBack x
  rw [← hx] at hwritten hsame
  have hwords := hwritten.words_eq
  have hchars : conversion.converted.text.toList = conversion.converted.toChars :=
    String.toList_ofList
  refine ⟨conversion.converted.text, y, rfl, ⟨negative, r, hchars ▸ hwritten⟩,
    hchars ▸ hwords, fun settings => ?_, fun source target => ?_⟩
  · obtain ⟨n, hspells, hsign, hvalue⟩ := hwritten.spells
    have hrounds : y.Rounds n.negative |n.toRat| := by
      rw [hsign, hvalue]
      exact hy
    have hamount : Request.amount? conversion.converted.toChars = some (.finite y) :=
      Request.amount?_eq_some_iff.mpr ⟨n, y, hspells, hrounds, rfl⟩
    rw [Request.parse?, hchars, hwords, Request.ofWords?, hamount, Option.map_some]
  · refine ⟨⟨⟨.finite y, source, target⟩, .ofInt 1, conversion.converted⟩,
      Conversion.make_of_ofProduct? ?_, rfl, rfl⟩
    rw [Binary64.mul_ofInt_one, ConvertedAmount.ofProduct?, hsame]

/-- With 16 digits the numbers of the format lie more than a third of a hundredth apart, and
the text still comes back. -/
theorem copied_text_reads_back_of_sixteen_digits :
    ∃ (conversion : Conversion) (amount : Finite),
      Conversion.make ⟨.finite ⟨false, 7680000000000018, -7, by decide⟩, "eur", "usd"⟩
        (.ok (.finite ⟨false, 2 ^ 52, -53, by decide⟩)) = .ok conversion ∧
      (Item.ofConversion conversion).copies = some "30000000000000.07" ∧
      (∀ settings : Settings, Request.parse? settings "30000000000000.07" = some
        (Request.make (.finite amount) settings.defaultPair.1 settings.defaultPair.2)) ∧
      ∀ source target : String, ∃ again,
        Conversion.make ⟨.finite amount, source, target⟩ (.ok (.ofInt 1)) = .ok again ∧
        (Item.ofConversion again).copies = some "30000000000000.07" := by
  have hmake : Conversion.make ⟨.finite ⟨false, 7680000000000018, -7, by decide⟩, "eur", "usd"⟩
      (.ok (.finite ⟨false, 2 ^ 52, -53, by decide⟩)) =
        .ok ⟨⟨.finite ⟨false, 7680000000000018, -7, by decide⟩, "eur", "usd"⟩,
          .finite ⟨false, 2 ^ 52, -53, by decide⟩, .exact ⟨false, 3000000000000007, 2⟩⟩ := rfl
  obtain ⟨text, amount, hcopies, -, -, hparse, hagain⟩ := copied_text_reads_back hmake
  obtain rfl : "30000000000000.07" = text := Option.some.inj hcopies
  refine ⟨_, amount, hmake, hcopies, hparse, fun source target => ?_⟩
  obtain ⟨again, hmade, -, hsame⟩ := hagain source target
  exact ⟨again, hmade, hsame⟩

end CurrencyDesk
