import CurrencyDesk.Proofs.Json.Grammar
/-!
# Literals

A word of a document is read as the literal that it is, if it is one: as a name, or as a
numeral that has a value (`ofWord?_eq_some_iff`). A numeral that has a value stands for a
number of 64 bits or for a finite binary64 number, and the number nearest to either is finite
(`isFinite_toBinary64`). No character of a literal is a blank, a sign or a quote, so that a
literal ends where one of these follows.

Key definitions: `isWordChar`.
Key theorems: `Numeral.ofWord?_eq_some_iff`, `ofWord?_eq_some_iff`, `Literal.isWordChar_of_mem`,
`Number.isFinite_toBinary64`.
-/

namespace CurrencyDesk.Json

/-! ### Numerals -/

namespace Numeral

/-- Reads what is left of a numeral behind its sign. -/
def ofUnsigned? (negative : Bool) (s : List Char) : Option Numeral :=
  let (whole, rest) := s.span Char.isDigit
  if isWhole whole then
    (splitFraction? rest).bind fun (fraction, power) =>
      (CurrencyDesk.Numeral.exponent? power).map fun exponent =>
        ⟨negative, whole, fraction, exponent, !rest.isEmpty⟩
  else none

theorem ofWord?_minus (s : List Char) : ofWord? ('-' :: s) = ofUnsigned? true s := by
  rw [ofWord?, ofUnsigned?]
  generalize s.span Char.isDigit = parts
  obtain ⟨whole, rest⟩ := parts
  by_cases h : isWhole whole = true
  · simp [h, Option.map_eq_bind]
  · simp [h]

theorem ofWord?_of_stopsAt {s : List Char} (hs : StopsAt (· = '-') s) :
    ofWord? s = ofUnsigned? false s := by
  rw [ofWord?, ofUnsigned?]
  · generalize s.span Char.isDigit = parts
    obtain ⟨whole, rest⟩ := parts
    by_cases h : isWhole whole = true
    · simp [h, Option.map_eq_bind]
    · simp [h]
  · rintro t rfl
    simpa using hs '-' rfl

theorem exists_minus (word : List Char) : ∃ sign negative s,
    word = sign ++ s ∧ SpellsMinus sign negative ∧ ofWord? word = ofUnsigned? negative s := by
  by_cases h : StopsAt (· = '-') word
  · exact ⟨[], false, word, rfl, .absent, ofWord?_of_stopsAt h⟩
  · cases word with
    | nil => exact absurd (stopsAt_nil _) h
    | cons c s =>
      obtain rfl : c = '-' := by simpa [StopsAt] using h
      exact ⟨['-'], true, s, rfl, .minus, ofWord?_minus s⟩

theorem isWhole_iff {whole : List Char} :
    isWhole whole = true ↔ whole ≠ [] ∧ (whole.head? = some '0' → whole = ['0']) := by
  rcases whole with _ | ⟨c, s⟩
  · simp [isWhole]
  · by_cases hc : c = '0'
    · subst hc
      cases s <;> simp [isWhole]
    · simp [isWhole, hc]

theorem not_isEmpty_eq (s : List Char) : (!s.isEmpty) = decide (s ≠ []) := by
  cases s <;> rfl

/-- What is behind whole digits: a point with digits, and a power. -/
theorem splitFraction?_append {point fraction power : List Char} {k : Int}
    (h : SpellsPoint point fraction) (hpower : SpellsPower power k) :
    splitFraction? (point ++ power) = some (fraction, power) := by
  cases h with
  | absent =>
    cases hpower with
    | absent => rfl
    | power hc =>
      rcases hc with rfl | rfl <;> rfl
  | point hdigits hne =>
    have hspan := span_append_of_stopsAt hdigits (hpower.stopsAt (by decide) (by decide))
    rw [List.cons_append, splitFraction?, hspan]
    exact if_neg (by simpa using hne)

theorem splitFraction?_eq_some {s fraction power : List Char}
    (h : splitFraction? s = some (fraction, power)) :
    ∃ point, s = point ++ power ∧ SpellsPoint point fraction := by
  unfold splitFraction? at h
  split at h
  · rename_i s
    obtain ⟨hs, hdigits, -⟩ := span_spec Char.isDigit s
    generalize s.span Char.isDigit = parts at *
    obtain ⟨digits, rest⟩ := parts
    dsimp only at h hs hdigits
    split_ifs at h with hempty
    obtain ⟨rfl, rfl⟩ : digits = fraction ∧ rest = power := by simpa using h
    refine ⟨'.' :: digits, by rw [hs, List.cons_append], .point hdigits ?_⟩
    simpa using hempty
  · obtain ⟨rfl, rfl⟩ : [] = fraction ∧ s = power := by simpa using h
    exact ⟨[], rfl, .absent⟩

/-- **Exactly the numerals of the grammar are read, each as its parts.** -/
theorem ofWord?_eq_some_iff {word : List Char} {n : Numeral} :
    ofWord? word = some n ↔ Spells word n := by
  constructor
  · intro h
    obtain ⟨sign, negative, s, rfl, hsign, hword⟩ := exists_minus word
    rw [hword, ofUnsigned?] at h
    obtain ⟨hs, hwhole, -⟩ := span_spec Char.isDigit s
    generalize s.span Char.isDigit = parts at *
    obtain ⟨whole, rest⟩ := parts
    dsimp only at h hs hwhole
    split_ifs at h with hiswhole
    obtain ⟨⟨fraction, power⟩, hrest, h⟩ := Option.bind_eq_some_iff.mp h
    obtain ⟨exponent, hpower, rfl⟩ := Option.map_eq_some_iff.mp h
    obtain ⟨point, rfl, hpoint⟩ := splitFraction?_eq_some hrest
    obtain ⟨hne, hzero⟩ := isWhole_iff.mp hiswhole
    rw [hs, not_isEmpty_eq]
    exact .mk hsign hwhole hne hzero hpoint (exponent?_eq_some_iff.mp hpower)
  · intro h
    obtain ⟨hsign, hwhole, hne, hzero, hpoint, hpower⟩ := h
    rename_i sign whole point fraction power negative exponent
    have hspan : (whole ++ (point ++ power)).span Char.isDigit = (whole, point ++ power) := by
      refine span_append_of_stopsAt hwhole ?_
      cases hpoint with
      | absent => exact hpower.stopsAt (by decide) (by decide)
      | point => exact stopsAt_cons (by decide) _
    have hread : ofUnsigned? negative (whole ++ (point ++ power)) =
        some ⟨negative, whole, fraction, exponent, decide (point ++ power ≠ [])⟩ := by
      simp only [ofUnsigned?, hspan, isWhole_iff.mpr ⟨hne, hzero⟩, if_true,
        splitFraction?_append hpoint hpower, Option.bind_some, exponent?_eq_some_iff.mpr hpower,
        Option.map_some, not_isEmpty_eq]
    cases hsign with
    | absent =>
      rw [List.nil_append, ofWord?_of_stopsAt, hread]
      obtain ⟨c, digits, rfl⟩ := List.exists_cons_of_ne_nil hne
      refine stopsAt_cons (decide_eq_false ?_) _
      rintro rfl
      exact absurd (hwhole '-' List.mem_cons_self) (by decide)
    | minus => rw [List.singleton_append, ofWord?_minus, hread]

/-! ### Values of numerals -/

/-- A numeral that has a value stands for a number of 64 bits or for a finite number. -/
theorem value?_eq_some {n : Numeral} {x : Number} (h : n.value? = some x) :
    (∃ k : Int, x = .whole k ∧ k.natAbs < 2 ^ 64) ∨ ∃ y, x = .float y := by
  rw [value?] at h
  split_ifs at h with hunsigned hsigned
  · simp only [Bool.and_eq_true, decide_eq_true_eq] at hunsigned
    exact .inl ⟨_, (Option.some.inj h).symm, hunsigned.2⟩
  · simp only [Bool.and_eq_true, decide_eq_true_eq] at hsigned
    refine .inl ⟨_, (Option.some.inj h).symm, ?_⟩
    rw [Int.natAbs_neg]
    exact lt_of_le_of_lt hsigned.2.2 (by decide)
  · obtain ⟨y, -, rfl⟩ := Option.map_eq_some_iff.mp h
    exact .inr ⟨y, rfl⟩

end Numeral

theorem isFinite_ofInt {k : Int} (h : k.natAbs < 2 ^ 64) : (Binary64.ofInt k).isFinite = true := by
  rw [Binary64.ofInt]
  rcases Nat.eq_zero_or_pos k.natAbs with hzero | hpos
  · rw [hzero]
    rfl
  · have hsmall : ((k.natAbs : ℚ) / ((1 : Nat) : ℚ)) < Binary64.overflow := by
      refine lt_of_lt_of_le ?_ Binary64.two_zpow_le_overflow
      calc (k.natAbs : ℚ) / ((1 : Nat) : ℚ) = k.natAbs := by simp
        _ < 2 ^ 64 := by exact_mod_cast h
        _ ≤ 2 ^ (1023 : ℤ) := by
          rw [← zpow_natCast]
          exact zpow_le_zpow_right₀ one_le_two (by norm_num)
    obtain ⟨x, hx, -⟩ := Binary64.nearest_finite (decide (k < 0)) hpos one_pos hsmall
    rw [hx]
    rfl

theorem Number.isFinite_toBinary64 {n : Numeral} {x : Number} (h : n.value? = some x) :
    x.toBinary64.isFinite = true := by
  rcases Numeral.value?_eq_some h with ⟨k, rfl, hk⟩ | ⟨y, rfl⟩
  · exact isFinite_ofInt hk
  · rfl

/-! ### Words -/

/-- The characters of words: all but quotes, signs and blanks. -/
def isWordChar (c : Char) : Bool :=
  c ≠ '"' && !isSign c && !isBlank c

theorem mem_of_spellsPower {power : List Char} {k : Int} (h : SpellsPower power k) {c : Char}
    (hc : c ∈ power) : c.isDigit = true ∨ c ∈ ['-', '+', '.', 'e', 'E'] := by
  cases h with
  | absent => cases hc
  | @power letter sign digits negative hletter hsign hdigits =>
    simp only [List.mem_cons, List.mem_append] at hc
    rcases hc with rfl | hc | hc
    · rcases hletter with rfl | rfl <;> exact .inr (by decide)
    · cases hsign <;> simp_all
    · exact .inl (hdigits c hc)

theorem Numeral.Spells.mem {word : List Char} {n : Numeral} (h : Numeral.Spells word n) {c : Char}
    (hc : c ∈ word) : c.isDigit = true ∨ c ∈ ['-', '+', '.', 'e', 'E'] := by
  obtain ⟨hsign, hwhole, -, -, hpoint, hpower⟩ := h
  simp only [List.mem_append] at hc
  rcases hc with hc | hc | hc | hc
  · cases hsign <;> simp_all
  · exact .inl (hwhole c hc)
  · cases hpoint with
    | absent => cases hc
    | point hdigits =>
      rcases List.mem_cons.mp hc with rfl | hc
      · exact .inr (by decide)
      · exact .inl (hdigits c hc)
  · exact mem_of_spellsPower hpower hc

theorem isWordChar_of_isDigit {c : Char} (h : c.isDigit = true) : isWordChar c = true := by
  have hne : ∀ d : Char, d.isDigit = false → c ≠ d := by
    rintro d hd rfl
    rw [h] at hd
    cases hd
  simp [isWordChar, isSign, isBlank, hne]

theorem Numeral.Spells.isWordChar_of_mem {word : List Char} {n : Numeral}
    (h : Numeral.Spells word n) {c : Char} (hc : c ∈ word) : isWordChar c = true := by
  rcases h.mem hc with hdigit | hother
  · exact isWordChar_of_isDigit hdigit
  · have hall : ['-', '+', '.', 'e', 'E'].all isWordChar = true := by decide
    exact List.all_eq_true.mp hall c hother

theorem Numeral.Spells.ne_nil {word : List Char} {n : Numeral} (h : Numeral.Spells word n) :
    word ≠ [] := by
  obtain ⟨-, -, hne, -⟩ := h
  simp [hne]

theorem Literal.isWordChar_of_mem {word : List Char} {v : Json} (h : Literal word v) {c : Char}
    (hc : c ∈ word) : isWordChar c = true := by
  have hname {name : List Char} (hall : name.all isWordChar = true) (hc : c ∈ name) :
      isWordChar c = true := List.all_eq_true.mp hall c hc
  cases h with
  | null => exact hname (by decide) hc
  | falsity => exact hname (by decide) hc
  | truth => exact hname (by decide) hc
  | number hnumeral => exact hnumeral.isWordChar_of_mem hc

theorem Literal.ne_nil {word : List Char} {v : Json} (h : Literal word v) : word ≠ [] := by
  cases h with
  | null => decide
  | falsity => decide
  | truth => decide
  | number hnumeral => exact hnumeral.ne_nil

/-- **Exactly the literals are read, each as its value.** -/
theorem ofWord?_eq_some_iff {word : List Char} {v : Json} :
    ofWord? word = some v ↔ Literal word v := by
  constructor
  · intro h
    rw [ofWord?] at h
    split_ifs at h with hnull htrue hfalse
    · obtain rfl := Option.some.inj h
      exact hnull ▸ .null
    · obtain rfl := Option.some.inj h
      exact htrue ▸ .truth
    · obtain rfl := Option.some.inj h
      exact hfalse ▸ .falsity
    · obtain ⟨x, hx, rfl⟩ := Option.map_eq_some_iff.mp h
      obtain ⟨numeral, hnumeral, hvalue⟩ := Option.bind_eq_some_iff.mp hx
      exact .number (Numeral.ofWord?_eq_some_iff.mp hnumeral) hvalue
  · intro h
    cases h with
    | null => rfl
    | falsity => rfl
    | truth => rfl
    | number hnumeral hvalue =>
      -- each of the names has a letter that no numeral has
      have hname (letter : Char) {name : List Char} (hletter : letter ∈ name)
          (hno : ¬(letter.isDigit = true ∨ letter ∈ ['-', '+', '.', 'e', 'E'])) : word ≠ name := by
        rintro rfl
        exact hno (hnumeral.mem hletter)
      have hnull : word ≠ "null".toList := hname 'n' (by decide) (by decide)
      have htrue : word ≠ "true".toList := hname 't' (by decide) (by decide)
      have hfalse : word ≠ "false".toList := hname 'f' (by decide) (by decide)
      rw [ofWord?, if_neg hnull, if_neg htrue, if_neg hfalse, Number.ofWord?,
        Numeral.ofWord?_eq_some_iff.mpr hnumeral, Option.bind_some, hvalue, Option.map_some]

end CurrencyDesk.Json
