import CurrencyDesk.Proofs.Json.Literals
/-!
# Texts as lexemes

The lexemes of a text are told by rules too: blanks and then a sign, a string in quotes or a
word, which goes on to the next character that is no part of words (`Written`). A text is cut
into exactly these (`lexemesFrom_eq_some_iff`). Inside a string the reader keeps a place; from
among the characters it reads one character as it is written, whatever it has read before
(`stringFrom_of_character`), and it goes on in no other case (`exists_character`).

Key definitions: `Written`, `afterUnit`.
Key theorems: `stringFrom_of_character`, `exists_character`, `stringFrom_of_quoted`,
`exists_quoted`, `lexemesFrom_eq_some_iff`.
-/

namespace CurrencyDesk.Json

/-- The lexemes that a text is written with. -/
inductive Written : List Lexeme → List Char → Prop
  | nil {s : List Char} : Blanks s [] → Written [] s
  | sign {c : Char} {lexemes : List Lexeme} {s t : List Char} : Blanks s (c :: t) →
      isSign c = true → Written lexemes t → Written (.sign c :: lexemes) s
  | string {text : List Char} {lexemes : List Lexeme} {s t rest : List Char} :
      Blanks s ('"' :: t) → Quoted text t rest → Written lexemes rest →
      Written (.string text :: lexemes) s
  | word {w : List Char} {lexemes : List Lexeme} {s t : List Char} : Blanks s (w ++ t) → w ≠ [] →
      (∀ c ∈ w, isWordChar c = true) → StopsAt isWordChar t → Written lexemes t →
      Written (.word w :: lexemes) s

/-! ### Blanks -/

theorem isBlank_iff {c : Char} : isBlank c = true ↔ c ∈ [' ', '\n', '\t', '\r'] := by
  simp [isBlank, or_assoc]

theorem Blanks.trans {s t rest : List Char} (h : Blanks s t) (h' : Blanks t rest) :
    Blanks s rest := by
  induction h with
  | nil => exact h'
  | cons hc _ ih => exact .cons hc (ih h')

theorem Written.of_blanks {lexemes : List Lexeme} {s t : List Char} (h : Blanks s t)
    (ht : Written lexemes t) : Written lexemes s := by
  cases ht with
  | nil hblanks => exact .nil (h.trans hblanks)
  | sign hblanks hsign hrest => exact .sign (h.trans hblanks) hsign hrest
  | string hblanks hquoted hrest => exact .string (h.trans hblanks) hquoted hrest
  | word hblanks hne hword hstop hrest => exact .word (h.trans hblanks) hne hword hstop hrest

theorem lexemesFrom_of_blanks {s t : List Char} (h : Blanks s t) :
    lexemesFrom [] s = lexemesFrom [] t := by
  induction h with
  | nil => rfl
  | @cons c s _ hc _ ih =>
    have hquote : c ≠ '"' := by
      rintro rfl
      exact absurd hc (by decide)
    have hsign : isSign c = false := by
      have hall : [' ', '\n', '\t', '\r'].all (!isSign ·) = true := by decide
      simpa using List.all_eq_true.mp hall c hc
    rw [lexemesFrom, if_neg hquote, hsign, if_neg Bool.false_ne_true,
      if_pos (isBlank_iff.mpr hc), ih]
    exact Option.map_id'

/-! ### Words -/

theorem lexemesFrom_word_append {w : List Char} (hw : ∀ c ∈ w, isWordChar c = true)
    (word t : List Char) : lexemesFrom word (w ++ t) = lexemesFrom (word ++ w) t := by
  induction w generalizing word with
  | nil => simp
  | cons c w ih =>
    have hc : isWordChar c = true := hw c List.mem_cons_self
    simp only [isWordChar, Bool.and_eq_true, decide_eq_true_eq, Bool.not_eq_true'] at hc
    rw [List.cons_append, lexemesFrom, if_neg hc.1.1, hc.1.2, hc.2, if_neg Bool.false_ne_true,
      if_neg Bool.false_ne_true, ih fun d hd => hw d (List.mem_cons_of_mem c hd),
      List.append_assoc, List.singleton_append]

/-- A word ends at the next character that is no part of words. -/
theorem lexemesFrom_of_stopsAt {t : List Char} (h : StopsAt isWordChar t) (word : List Char) :
    lexemesFrom word t = (lexemesFrom [] t).map (endWord word) := by
  cases t with
  | nil => rfl
  | cons c t =>
    have hc : isWordChar c = false := h c rfl
    rw [lexemesFrom, lexemesFrom]
    split_ifs with hquote hsign hblank
    · rw [Option.map_map]
      rfl
    · rw [Option.map_map]
      rfl
    · rw [Option.map_map]
      rfl
    · simp [isWordChar, hquote, hsign, hblank] at hc

/-! ### Strings -/

section

variable {acc s : List Char}

theorem stringFrom_nil (place : Place) (acc : List Char) : stringFrom place acc [] = none := by
  rw [stringFrom]

theorem stringFrom_cons {place : Place} {c : Char} (h : (c = '"' && place.isPlain) = false) :
    stringFrom place acc (c :: s) =
      (stringStep place c).bind fun p => stringFrom p.2 (acc ++ p.1) s := by
  rw [stringFrom, h, if_neg Bool.false_ne_true]
  rcases stringStep place c with _ | ⟨more, next⟩
  · rfl
  · rfl

theorem stringFrom_quote : stringFrom .plain acc ('"' :: s) =
    (lexemesFrom [] s).map (.string acc :: ·) := by
  rw [stringFrom]
  rfl

theorem stringFrom_plain {c : Char} (hquote : c ≠ '"') :
    stringFrom .plain acc (c :: s) =
      if c = '\\' then stringFrom .escape acc s
      else if c.toNat < 0x20 then none else stringFrom .plain (acc ++ [c]) s := by
  rw [stringFrom_cons (by simp [hquote]), stringStep]
  split_ifs
  · simp
  · rfl
  · rfl

theorem stringFrom_escape (c : Char) :
    stringFrom .escape acc (c :: s) =
      if c = 'u' then stringFrom (.unit none 4 0) acc s
      else (escapes.lookup c).bind fun d => stringFrom .plain (acc ++ [d]) s := by
  rw [stringFrom_cons (by simp [Place.isPlain]), stringStep]
  split_ifs
  · simp
  · rcases escapes.lookup c with _ | d
    · rfl
    · rfl

/-- What comes of a code unit. -/
def afterUnit (leading : Option Nat) (unit : Nat) (acc s : List Char) : Option (List Lexeme) :=
  (endUnit leading unit).bind fun p => stringFrom p.2 (acc ++ p.1) s

theorem stringFrom_digit (leading : Option Nat) (digits value : Nat) (c : Char) :
    stringFrom (.unit leading digits value) acc (c :: s) =
      (Text.hexValue? c).bind fun digit =>
        if digits ≤ 1 then afterUnit leading (value * 16 + digit) acc s
        else stringFrom (.unit leading (digits - 1) (value * 16 + digit)) acc s := by
  rw [stringFrom_cons (by simp [Place.isPlain]), stringStep]
  rcases Text.hexValue? c with _ | digit
  · rfl
  · rw [Option.bind_some]
    split_ifs
    · rfl
    · simp

theorem stringFrom_of_codeUnit {u : Nat} {t : List Char} (h : CodeUnit u s t)
    (leading : Option Nat) : stringFrom (.unit leading 4 0) acc s = afterUnit leading u acc t := by
  obtain ⟨ha, hb, hc, hd⟩ := h
  rw [stringFrom_digit, ha, Option.bind_some, if_neg (by decide), stringFrom_digit, hb,
    Option.bind_some, if_neg (by decide), stringFrom_digit, hc, Option.bind_some,
    if_neg (by decide), stringFrom_digit, hd, Option.bind_some, if_pos (by decide), Nat.zero_mul,
    Nat.zero_add]

theorem exists_digit {leading : Option Nat} {digits value : Nat} {lexemes : List Lexeme}
    (h : stringFrom (.unit leading digits value) acc s = some lexemes) :
    ∃ c t digit, s = c :: t ∧ Text.hexValue? c = some digit ∧
      (if digits ≤ 1 then afterUnit leading (value * 16 + digit) acc t
        else stringFrom (.unit leading (digits - 1) (value * 16 + digit)) acc t) =
        some lexemes := by
  cases s with
  | nil =>
    rw [stringFrom_nil] at h
    cases h
  | cons c t =>
    rw [stringFrom_digit] at h
    obtain ⟨digit, hdigit, hrest⟩ := Option.bind_eq_some_iff.mp h
    exact ⟨c, t, digit, rfl, hdigit, hrest⟩

/-- Nothing but the four digits of a code unit is read. -/
theorem exists_codeUnit {leading : Option Nat} {lexemes : List Lexeme}
    (h : stringFrom (.unit leading 4 0) acc s = some lexemes) :
    ∃ u t, CodeUnit u s t ∧ afterUnit leading u acc t = some lexemes := by
  obtain ⟨a, s, i, rfl, ha, h⟩ := exists_digit h
  obtain ⟨b, s, j, rfl, hb, h⟩ := exists_digit h
  obtain ⟨c, s, k, rfl, hc, h⟩ := exists_digit h
  obtain ⟨d, s, l, rfl, hd, h⟩ := exists_digit h
  refine ⟨_, s, .mk ha hb hc hd, ?_⟩
  simpa using h

/-! ### What a code unit completes -/

theorem endUnit_of_valid {u : Nat} (h : u.isValidChar) :
    endUnit none u = some ([Char.ofNat u], .plain) := by
  have hhigh : ¬(0xD800 ≤ u ∧ u < 0xDC00) := by
    rcases h with h | h <;> omega
  rw [endUnit, if_neg hhigh, if_pos h]

theorem endUnit_of_high {u : Nat} (hlow : 0xD800 ≤ u) (hhigh : u < 0xDC00) :
    endUnit none u = some ([], .pair u) := by
  rw [endUnit, if_pos ⟨hlow, hhigh⟩]

theorem endUnit_of_low (high : Nat) {u : Nat} (hlow : 0xDC00 ≤ u) (hhigh : u < 0xE000) :
    endUnit (some high) u =
      some ([Char.ofNat (0x10000 + (high - 0xD800) * 0x400 + (u - 0xDC00))], .plain) := by
  rw [endUnit, if_pos ⟨hlow, hhigh⟩]

/-- A first unit is a character, or it leads another unit. -/
theorem endUnit_none_cases {u : Nat} {p : List Char × Place} (h : endUnit none u = some p) :
    u.isValidChar ∧ p = ([Char.ofNat u], .plain) ∨
      (0xD800 ≤ u ∧ u < 0xDC00) ∧ p = ([], .pair u) := by
  rw [endUnit] at h
  split_ifs at h with hhigh hvalid
  · exact .inr ⟨hhigh, (Option.some.inj h).symm⟩
  · exact .inl ⟨hvalid, (Option.some.inj h).symm⟩

theorem endUnit_some_eq {high u : Nat} {p : List Char × Place}
    (h : endUnit (some high) u = some p) :
    (0xDC00 ≤ u ∧ u < 0xE000) ∧
      p = ([Char.ofNat (0x10000 + (high - 0xD800) * 0x400 + (u - 0xDC00))], .plain) := by
  rw [endUnit] at h
  split_ifs at h with hlow
  exact ⟨hlow, (Option.some.inj h).symm⟩

theorem stringFrom_pair_cons (high : Nat) (c : Char) :
    stringFrom (.pair high) acc (c :: s) =
      if c = '\\' then stringFrom (.pairEscape high) acc s else none := by
  rw [stringFrom_cons (by simp [Place.isPlain]), stringStep]
  split_ifs
  · simp
  · rfl

theorem stringFrom_pairEscape_cons (high : Nat) (c : Char) :
    stringFrom (.pairEscape high) acc (c :: s) =
      if c = 'u' then stringFrom (.unit (some high) 4 0) acc s else none := by
  rw [stringFrom_cons (by simp [Place.isPlain]), stringStep]
  split_ifs
  · simp
  · rfl

/-- Behind a leading unit only the second one is read. -/
theorem exists_second_unit {high : Nat} {lexemes : List Lexeme}
    (h : stringFrom (.pair high) acc s = some lexemes) :
    ∃ t, s = '\\' :: 'u' :: t ∧ stringFrom (.unit (some high) 4 0) acc t = some lexemes := by
  rcases s with _ | ⟨c, _ | ⟨d, t⟩⟩
  · rw [stringFrom_nil] at h
    cases h
  · rw [stringFrom_pair_cons, stringFrom_nil, ite_self] at h
    cases h
  · rw [stringFrom_pair_cons, stringFrom_pairEscape_cons] at h
    split_ifs at h with hc hd
    exact ⟨t, by rw [hc, hd], h⟩

/-! ### Characters and whole strings -/

/-- A character is read as it is written, behind what has been read before. -/
theorem stringFrom_of_character {c : Char} {t : List Char} (h : Character c s t) (acc : List Char) :
    stringFrom .plain acc s = stringFrom .plain (acc ++ [c]) t := by
  cases h with
  | plain hquote hslash hcontrol =>
    rw [stringFrom_plain hquote, if_neg hslash, if_neg (Nat.not_lt.mpr hcontrol)]
  | @escape letter _ _ hescape =>
    have hletter : letter ≠ 'u' ∧ escapes.lookup letter = some c := by
      have hall : escapes.all (fun p => p.1 ≠ 'u' ∧ escapes.lookup p.1 = some p.2) = true := by
        decide
      simpa using List.all_eq_true.mp hall _ hescape
    rw [stringFrom_plain (by decide), if_pos rfl, stringFrom_escape, if_neg hletter.1, hletter.2,
      Option.bind_some]
  | unit hunit hvalid =>
    rw [stringFrom_plain (by decide), if_pos rfl, stringFrom_escape, if_pos rfl,
      stringFrom_of_codeUnit hunit, afterUnit, endUnit_of_valid hvalid, Option.bind_some]
  | pair hunit hlow hhigh hunit' hlow' hhigh' =>
    rw [stringFrom_plain (by decide), if_pos rfl, stringFrom_escape, if_pos rfl,
      stringFrom_of_codeUnit hunit, afterUnit, endUnit_of_high hlow hhigh, Option.bind_some,
      List.append_nil, stringFrom_pair_cons, if_pos rfl, stringFrom_pairEscape_cons, if_pos rfl,
      stringFrom_of_codeUnit hunit', afterUnit, endUnit_of_low _ hlow' hhigh', Option.bind_some]

/-- What is read is the quote at the end of a string or a character of it. -/
theorem exists_character {lexemes : List Lexeme} (h : stringFrom .plain acc s = some lexemes) :
    (∃ rest, s = '"' :: rest) ∨
      ∃ c t, Character c s t ∧ stringFrom .plain (acc ++ [c]) t = some lexemes := by
  rcases s with _ | ⟨c, s⟩
  · rw [stringFrom_nil] at h
    cases h
  by_cases hquote : c = '"'
  · exact .inl ⟨s, by rw [hquote]⟩
  rw [stringFrom_plain hquote] at h
  split_ifs at h with hslash hcontrol
  · subst hslash
    rcases s with _ | ⟨letter, s⟩
    · rw [stringFrom_nil] at h
      cases h
    rw [stringFrom_escape] at h
    split_ifs at h with hu
    · subst hu
      obtain ⟨u, t, hunit, h⟩ := exists_codeUnit h
      obtain ⟨p, hp, h⟩ := Option.bind_eq_some_iff.mp h
      rcases endUnit_none_cases hp with ⟨hvalid, rfl⟩ | ⟨⟨hlow, hhigh⟩, rfl⟩
      · exact .inr ⟨_, t, .unit hunit hvalid, h⟩
      · -- a leading unit and the one behind it are one character
        rw [List.append_nil] at h
        obtain ⟨t', rfl, hsecond⟩ := exists_second_unit h
        obtain ⟨u', rest, hunit', hsecond⟩ := exists_codeUnit hsecond
        obtain ⟨p, hp', hrest⟩ := Option.bind_eq_some_iff.mp hsecond
        obtain ⟨⟨hlow', hhigh'⟩, rfl⟩ := endUnit_some_eq hp'
        exact .inr ⟨_, rest, .pair hunit hlow hhigh hunit' hlow' hhigh', hrest⟩
    · obtain ⟨d, hd, h⟩ := Option.bind_eq_some_iff.mp h
      obtain ⟨before, after, heq, -⟩ := List.lookup_eq_some_iff.mp hd
      exact .inr ⟨d, s, .escape (by simp [heq]), h⟩
  · exact .inr ⟨c, s, .plain hquote hslash (Nat.not_lt.mp hcontrol), h⟩

theorem stringFrom_of_quoted {text rest : List Char} (h : Quoted text s rest) (acc : List Char) :
    stringFrom .plain acc s = (lexemesFrom [] rest).map (.string (acc ++ text) :: ·) := by
  induction h generalizing acc with
  | close => rw [stringFrom_quote, List.append_nil]
  | character hcharacter _ ih =>
    rw [stringFrom_of_character hcharacter, ih, List.append_assoc, List.singleton_append]

theorem CodeUnit.length_lt {u : Nat} {t : List Char} (h : CodeUnit u s t) :
    t.length < s.length := by
  obtain ⟨⟩ := h
  simp only [List.length_cons]
  omega

theorem Character.length_lt {c : Char} {t : List Char} (h : Character c s t) :
    t.length < s.length := by
  cases h with
  | plain => simp
  | escape =>
    simp only [List.length_cons]
    omega
  | unit hunit =>
    have := hunit.length_lt
    simp only [List.length_cons]
    omega
  | pair hunit _ _ hunit' =>
    have := hunit.length_lt
    have := hunit'.length_lt
    simp only [List.length_cons] at *
    omega

theorem Quoted.length_lt {text rest : List Char} (h : Quoted text s rest) :
    rest.length < s.length := by
  induction h with
  | close => simp
  | character hcharacter _ ih => exact ih.trans hcharacter.length_lt

theorem exists_quoted {lexemes : List Lexeme} (h : stringFrom .plain acc s = some lexemes) :
    ∃ text rest lexemes', Quoted text s rest ∧ lexemes = .string (acc ++ text) :: lexemes' ∧
      lexemesFrom [] rest = some lexemes' := by
  induction hlen : s.length using Nat.strong_induction_on generalizing s acc with
  | _ n ih =>
    rcases exists_character h with ⟨rest, rfl⟩ | ⟨c, t, hcharacter, hrest⟩
    · rw [stringFrom_quote] at h
      obtain ⟨lexemes', hlexemes, rfl⟩ := Option.map_eq_some_iff.mp h
      exact ⟨[], rest, lexemes', .close, by rw [List.append_nil], hlexemes⟩
    · obtain ⟨text, rest, lexemes', hquoted, rfl, hlexemes⟩ :=
        ih _ (hlen ▸ hcharacter.length_lt) hrest rfl
      refine ⟨c :: text, rest, lexemes', .character hcharacter hquoted, ?_, hlexemes⟩
      rw [List.append_assoc, List.singleton_append]

end

/-! ### Whole texts -/

theorem Written.lexemesFrom_eq {lexemes : List Lexeme} {s : List Char} (h : Written lexemes s) :
    lexemesFrom [] s = some lexemes := by
  induction h with
  | nil hblanks =>
    rw [lexemesFrom_of_blanks hblanks]
    rfl
  | @sign c _ _ _ hblanks hsign _ ih =>
    have hquote : c ≠ '"' := by
      rintro rfl
      exact absurd hsign (by decide)
    rw [lexemesFrom_of_blanks hblanks, lexemesFrom, if_neg hquote, if_pos hsign, ih]
    rfl
  | string hblanks hquoted _ ih =>
    rw [lexemesFrom_of_blanks hblanks, lexemesFrom, if_pos rfl, stringFrom_of_quoted hquoted, ih]
    rfl
  | word hblanks hne hword hstop _ ih =>
    rw [lexemesFrom_of_blanks hblanks, lexemesFrom_word_append hword, List.nil_append,
      lexemesFrom_of_stopsAt hstop, ih, Option.map_some, endWord, if_neg (by simpa using hne)]

theorem written_of_lexemesFrom {lexemes : List Lexeme} {s : List Char}
    (h : lexemesFrom [] s = some lexemes) : Written lexemes s := by
  induction hlen : s.length using Nat.strong_induction_on generalizing s lexemes with
  | _ n ih =>
    rcases s with _ | ⟨c, s⟩
    · obtain rfl : [] = lexemes := Option.some.inj h
      exact .nil .nil
    rw [List.length_cons] at hlen
    -- a word is taken off as a whole, so the induction is on the length and not on the text
    by_cases hword : isWordChar c = true
    · obtain ⟨hs, hw, hstop⟩ := span_spec isWordChar (c :: s)
      have hne : ((c :: s).span isWordChar).1 ≠ [] := by simp [hword]
      generalize (c :: s).span isWordChar = parts at *
      obtain ⟨w, t⟩ := parts
      dsimp only at hs hw hstop hne
      have hlt : t.length < n := by
        have := congrArg List.length hs
        have := List.length_pos_iff.mpr hne
        simp only [List.length_cons, List.length_append] at *
        omega
      rw [hs, lexemesFrom_word_append hw, List.nil_append, lexemesFrom_of_stopsAt hstop] at h
      obtain ⟨rest, hrest, rfl⟩ := Option.map_eq_some_iff.mp h
      rw [hs, endWord, if_neg (by simpa using hne)]
      exact .word .nil hne hw hstop (ih _ hlt hrest rfl)
    · rw [lexemesFrom] at h
      split_ifs at h with hquote hsign hblank
      · subst hquote
        obtain ⟨lexemes', hstring, rfl⟩ := Option.map_eq_some_iff.mp h
        obtain ⟨text, rest, lexemes', hquoted, rfl, hrest⟩ := exists_quoted hstring
        have hlt := hquoted.length_lt
        exact .string .nil hquoted (ih _ (by omega) hrest rfl)
      · obtain ⟨lexemes', hrest, rfl⟩ := Option.map_eq_some_iff.mp h
        exact .sign .nil hsign (ih _ (by omega) hrest rfl)
      · obtain ⟨lexemes', hrest, rfl⟩ := Option.map_eq_some_iff.mp h
        exact .of_blanks (.cons (isBlank_iff.mp hblank) .nil) (ih _ (by omega) hrest rfl)
      · simp [isWordChar, hquote, hsign, hblank] at hword

/-- **The lexemes of a text are those that it is written with.** -/
theorem lexemesFrom_eq_some_iff {lexemes : List Lexeme} {s : List Char} :
    lexemesFrom [] s = some lexemes ↔ Written lexemes s :=
  ⟨written_of_lexemesFrom, Written.lexemesFrom_eq⟩

end CurrencyDesk.Json
