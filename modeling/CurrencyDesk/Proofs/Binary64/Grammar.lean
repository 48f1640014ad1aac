import CurrencyDesk.Proofs.Binary64.Numeral
import CurrencyDesk.Text.Split
import Mathlib.Data.List.TakeWhile
/-!
# The grammar of numerals

Which texts are numerals, and of which parts, said by rules: an optional sign, digits with
at most one point among them and at least one digit in all, and an optional power of ten
with a sign and digits of its own. Digits are those of ASCII. `Numeral.ofChars?` reads
exactly these texts, each as its parts (`ofChars?_eq_some_iff`): a run of digits is followed
by the end, a point or the letter of the power, and none of these is a digit or a sign, so
there is one way to take a text apart.

The names of what is not finite begin with a letter, so none of them is a numeral.

Key definitions: `SpellsSign`, `SpellsFraction`, `SpellsPower`, `Numeral.Spells`.
Key theorems: `Numeral.ofChars?_eq_some_iff`, `Numeral.ofChars?_of_name`.
-/

namespace CurrencyDesk

/-- A text is a sign, or nothing; and whether it is a minus. -/
inductive SpellsSign : List Char → Bool → Prop
  | absent : SpellsSign [] false
  | plus : SpellsSign ['+'] false
  | minus : SpellsSign ['-'] true

/-- A text of ASCII digits. -/
def IsDigits (s : List Char) : Prop :=
  ∀ c ∈ s, c.isDigit = true

/-- A text is a point with digits behind it, or nothing. -/
inductive SpellsFraction : List Char → List Char → Prop
  | absent : SpellsFraction [] []
  | point {digits : List Char} : IsDigits digits → SpellsFraction ('.' :: digits) digits

/-- A text is a power of ten, or nothing; and its exponent. -/
inductive SpellsPower : List Char → Int → Prop
  | absent : SpellsPower [] 0
  | power {c : Char} {sign digits : List Char} {negative : Bool} : c = 'e' ∨ c = 'E' →
      SpellsSign sign negative → IsDigits digits → digits ≠ [] →
      SpellsPower (c :: (sign ++ digits))
        (if negative then -(Nat.ofDigitChars 10 digits 0 : Int) else Nat.ofDigitChars 10 digits 0)

/-- A text is a numeral of the parts that are given. -/
inductive Numeral.Spells : List Char → Numeral → Prop
  | mk {sign whole point fraction power : List Char} {negative : Bool} {exponent : Int} :
      SpellsSign sign negative → IsDigits whole → SpellsFraction point fraction →
      whole ≠ [] ∨ fraction ≠ [] → SpellsPower power exponent →
      Spells (sign ++ whole ++ point ++ power) ⟨negative, whole, fraction, exponent⟩

/-! ### Where a run of digits ends -/

/-- A text does not go on with a character that satisfies `p`. -/
def StopsAt (p : Char → Bool) (s : List Char) : Prop :=
  ∀ c ∈ s.head?, p c = false

theorem stopsAt_nil (p : Char → Bool) : StopsAt p [] := by
  simp [StopsAt]

theorem stopsAt_cons {p : Char → Bool} {c : Char} (h : p c = false) (s : List Char) :
    StopsAt p (c :: s) := by
  simpa [StopsAt] using h

/-- A run ends where the text does not go on with it. -/
theorem span_append_of_stopsAt {p : Char → Bool} {s t : List Char} (hs : ∀ c ∈ s, p c = true)
    (ht : StopsAt p t) : (s ++ t).span p = (s, t) := by
  rw [List.span_eq_takeWhile_dropWhile]
  induction s with
  | nil =>
    cases t with
    | nil => rfl
    | cons c t =>
      have hc : p c = false := ht c rfl
      simp [hc]
  | cons c s ih =>
    have hc : p c = true := hs c List.mem_cons_self
    have hrest := ih fun a ha => hs a (List.mem_cons_of_mem c ha)
    rw [Prod.mk.injEq] at hrest
    simp [hc, hrest]

theorem span_spec (p : Char → Bool) (s : List Char) :
    s = (s.span p).1 ++ (s.span p).2 ∧ (∀ c ∈ (s.span p).1, p c = true) ∧
      StopsAt p (s.span p).2 := by
  rw [List.span_eq_takeWhile_dropWhile]
  exact ⟨List.takeWhile_append_dropWhile.symm, fun c hc => List.mem_takeWhile_imp hc,
    fun c hc => Text.eq_false_of_mem_head?_dropWhile hc⟩

/-! ### The parts of a numeral -/

/-- A sign in front of a text that does not begin with one. -/
theorem splitSign_append {sign s : List Char} {negative : Bool} (h : SpellsSign sign negative)
    (hs : StopsAt (fun c => c = '+' || c = '-') s) :
    Numeral.splitSign (sign ++ s) = (negative, s) := by
  cases h with
  | absent =>
    cases s with
    | nil => rfl
    | cons c s =>
      have hc := hs c rfl
      simp only [Bool.or_eq_false_iff, decide_eq_false_iff_not] at hc
      simp only [List.nil_append]
      unfold Numeral.splitSign
      split <;> simp_all
  | plus => rfl
  | minus => rfl

theorem splitSign_spec (s : List Char) : ∃ sign,
    s = sign ++ (Numeral.splitSign s).2 ∧ SpellsSign sign (Numeral.splitSign s).1 := by
  unfold Numeral.splitSign
  split
  · exact ⟨['-'], rfl, .minus⟩
  · exact ⟨['+'], rfl, .plus⟩
  · exact ⟨[], rfl, .absent⟩

theorem isDigit_not_sign {c : Char} (h : c.isDigit = true) : (c = '+' || c = '-') = false := by
  rw [Bool.or_eq_false_iff, decide_eq_false_iff_not, decide_eq_false_iff_not]
  constructor <;> rintro rfl <;> exact absurd h (by decide)

theorem stopsAt_sign_of_digits {s t : List Char} (hs : IsDigits s)
    (ht : s = [] → StopsAt (fun c => c = '+' || c = '-') t) :
    StopsAt (fun c => c = '+' || c = '-') (s ++ t) := by
  cases s with
  | nil => exact ht rfl
  | cons c s => exact stopsAt_cons (isDigit_not_sign (hs c List.mem_cons_self)) _

theorem integer?_eq_some_iff {s : List Char} {k : Int} : Numeral.integer? s = some k ↔
    ∃ sign digits negative, s = sign ++ digits ∧ SpellsSign sign negative ∧ IsDigits digits ∧
      digits ≠ [] ∧ k = if negative then -(Nat.ofDigitChars 10 digits 0 : Int)
        else Nat.ofDigitChars 10 digits 0 := by
  constructor
  · intro h
    obtain ⟨sign, hs, hsign⟩ := splitSign_spec s
    rw [Numeral.integer?] at h
    generalize Numeral.splitSign s = parts at *
    obtain ⟨negative, digits⟩ := parts
    dsimp only at h hs hsign
    by_cases hdigits : (digits.isEmpty || !digits.all Char.isDigit) = true
    · rw [if_pos hdigits] at h
      cases h
    · rw [if_neg hdigits] at h
      simp only [Bool.or_eq_true, List.isEmpty_iff, Bool.not_eq_true', not_or,
        Bool.not_eq_false, List.all_eq_true] at hdigits
      exact ⟨sign, digits, negative, hs, hsign, hdigits.2, hdigits.1, (Option.some.inj h).symm⟩
  · rintro ⟨sign, digits, negative, rfl, hsign, hdigits, hne, rfl⟩
    have hstop : StopsAt (fun c => c = '+' || c = '-') digits := by
      simpa using stopsAt_sign_of_digits (t := []) hdigits fun _ => stopsAt_nil _
    rw [Numeral.integer?, splitSign_append hsign hstop]
    have hall : digits.all Char.isDigit = true := List.all_eq_true.mpr hdigits
    simp [hne, hall]

theorem exponent?_eq_some_iff {s : List Char} {k : Int} :
    Numeral.exponent? s = some k ↔ SpellsPower s k := by
  constructor
  · intro h
    cases s with
    | nil =>
      obtain rfl : 0 = k := Option.some.inj h
      exact .absent
    | cons c s =>
      rw [Numeral.exponent?] at h
      split_ifs at h with hc
      obtain ⟨sign, digits, negative, rfl, hsign, hdigits, hne, rfl⟩ := integer?_eq_some_iff.mp h
      exact .power hc hsign hdigits hne
  · intro h
    cases h with
    | absent => rfl
    | power hc hsign hdigits hne =>
      rw [Numeral.exponent?, if_pos hc]
      exact integer?_eq_some_iff.mpr ⟨_, _, _, rfl, hsign, hdigits, hne, rfl⟩

theorem SpellsPower.stopsAt {s : List Char} {k : Int} (h : SpellsPower s k) {p : Char → Bool}
    (hp : p 'e' = false) (hp' : p 'E' = false) : StopsAt p s := by
  cases h with
  | absent => exact stopsAt_nil p
  | power hc =>
    refine stopsAt_cons ?_ _
    rcases hc with rfl | rfl
    · exact hp
    · exact hp'

theorem splitFraction_append {point fraction power : List Char} {k : Int}
    (h : SpellsFraction point fraction) (hpower : SpellsPower power k) :
    Numeral.splitFraction (point ++ power) = (fraction, power) := by
  cases h with
  | absent =>
    cases hpower with
    | absent => rfl
    | power hc =>
      rcases hc with rfl | rfl <;> rfl
  | point hdigits =>
    exact span_append_of_stopsAt hdigits (hpower.stopsAt (by decide) (by decide))

theorem splitFraction_spec (s : List Char) : ∃ point,
    s = point ++ (Numeral.splitFraction s).2 ∧
      SpellsFraction point (Numeral.splitFraction s).1 := by
  unfold Numeral.splitFraction
  split
  · rename_i s
    obtain ⟨hs, hdigits, -⟩ := span_spec Char.isDigit s
    exact ⟨'.' :: (s.span Char.isDigit).1, by rw [List.cons_append, ← hs], .point hdigits⟩
  · exact ⟨[], rfl, .absent⟩

namespace Numeral

/-- **Exactly the numerals of the grammar are read, each as its parts.** -/
theorem ofChars?_eq_some_iff {s : List Char} {n : Numeral} : ofChars? s = some n ↔ Spells s n := by
  constructor
  · intro h
    obtain ⟨sign, hs, hsign⟩ := splitSign_spec s
    rw [ofChars?] at h
    generalize splitSign s = parts at *
    obtain ⟨negative, unsigned⟩ := parts
    obtain ⟨hunsigned, hwhole, -⟩ := span_spec Char.isDigit unsigned
    dsimp only at h hs hsign
    generalize unsigned.span Char.isDigit = parts at *
    obtain ⟨whole, rest⟩ := parts
    obtain ⟨point, hrest, hpoint⟩ := splitFraction_spec rest
    dsimp only at h hunsigned hwhole
    generalize splitFraction rest = parts at *
    obtain ⟨fraction, power⟩ := parts
    dsimp only at h hrest hpoint
    split_ifs at h with hempty
    obtain ⟨k, hk, rfl⟩ := Option.map_eq_some_iff.mp h
    have hne : whole ≠ [] ∨ fraction ≠ [] := by
      simp only [Bool.and_eq_true, List.isEmpty_iff, not_and_or] at hempty
      exact hempty
    have hpower := exponent?_eq_some_iff.mp hk
    rw [hs, hunsigned, hrest, ← List.append_assoc, ← List.append_assoc]
    exact .mk hsign hwhole hpoint hne hpower
  · intro h
    obtain ⟨hsign, hwhole, hpoint, hne, hpower⟩ := h
    rename_i sign whole point fraction power negative k
    have hstop : StopsAt (fun c => c = '+' || c = '-') (whole ++ (point ++ power)) := by
      refine stopsAt_sign_of_digits hwhole fun hnil => ?_
      cases hpoint with
      | absent => exact absurd hnil (hne.resolve_right (by simp))
      | point hdigits => exact stopsAt_cons (by decide) _
    have hdigit : StopsAt Char.isDigit (point ++ power) := by
      cases hpoint with
      | absent => exact hpower.stopsAt (by decide) (by decide)
      | point hdigits => exact stopsAt_cons (by decide) _
    have hempty : (whole.isEmpty && fraction.isEmpty) = false := by
      rw [Bool.and_eq_false_iff, List.isEmpty_eq_false_iff, List.isEmpty_eq_false_iff]
      exact hne
    rw [List.append_assoc, List.append_assoc, ofChars?, splitSign_append hsign hstop]
    simp only [span_append_of_stopsAt hwhole hdigit, splitFraction_append hpoint hpower, hempty,
      Bool.false_eq_true, ↓reduceIte, exponent?_eq_some_iff.mpr hpower, Option.map_some]

/-- A text that begins with another character, behind a sign or not, is no numeral. -/
theorem ofChars?_eq_none {sign s : List Char} {c : Char} {negative : Bool}
    (hsign : SpellsSign sign negative) (hc : c.isDigit = false) (hc' : (c = '+' || c = '-') = false)
    (hpoint : c ≠ '.') : ofChars? (sign ++ c :: s) = none := by
  have hspan : (c :: s).span Char.isDigit = ([], c :: s) :=
    span_append_of_stopsAt (s := []) (by simp) (stopsAt_cons hc s)
  have hfraction : splitFraction (c :: s) = ([], c :: s) := by
    unfold splitFraction
    split
    · rename_i h
      exact absurd (List.cons.inj h).1 hpoint
    · rfl
  rw [ofChars?, splitSign_append hsign (stopsAt_cons hc' s)]
  simp only [hspan, hfraction, List.isEmpty_nil, Bool.and_self, ↓reduceIte]

end Numeral

/-! ### Names of what is not finite -/

/-- The names, in lower case. -/
def nonFiniteNames : List (List Char) :=
  ["nan".toList, "inf".toList, "infinity".toList]

theorem toLower_of_isDigit {c : Char} (h : c.isDigit = true) : c.toLower = c := by
  simp only [Char.isDigit, Bool.and_eq_true, decide_eq_true_eq, UInt32.le_iff_toNat_le] at h
  have hupper : ¬(c.val ≥ 'A'.val ∧ c.val ≤ 'Z'.val) := by
    rw [ge_iff_le, UInt32.le_iff_toNat_le, not_and_or, not_le]
    exact .inl (h.2.trans_lt (by decide))
  exact dif_neg hupper

/-- A name, in letters of either case and behind a sign or not, is no numeral. -/
theorem Numeral.ofChars?_of_name {sign name : List Char} {negative : Bool}
    (hsign : SpellsSign sign negative) (hname : name.map Char.toLower ∈ nonFiniteNames) :
    Numeral.ofChars? (sign ++ name) = none := by
  obtain ⟨c, s, rfl, hc⟩ : ∃ c s, name = c :: s ∧ (c.toLower = 'n' ∨ c.toLower = 'i') := by
    cases name with
    | nil => simp [nonFiniteNames] at hname
    | cons c s =>
      refine ⟨c, s, rfl, ?_⟩
      simp only [nonFiniteNames, List.map_cons, List.mem_cons, List.not_mem_nil, or_false] at hname
      rcases hname with h | h | h
      · exact .inl (List.cons.inj h).1
      · exact .inr (List.cons.inj h).1
      · exact .inr (List.cons.inj h).1
  -- no digit, sign or point has `n` or `i` for its lower case
  refine ofChars?_eq_none hsign ?_ ?_ ?_
  · by_contra hdigit
    rw [Bool.not_eq_false] at hdigit
    rw [toLower_of_isDigit hdigit] at hc
    rcases hc with rfl | rfl <;> exact absurd hdigit (by decide)
  · rw [Bool.or_eq_false_iff, decide_eq_false_iff_not, decide_eq_false_iff_not]
    constructor <;> rintro rfl <;> exact absurd hc (by decide)
  · rintro rfl
    exact absurd hc (by decide)

end CurrencyDesk
