import CurrencyDesk.Proofs.Json.Lexemes
/-!
# Documents

The texts that are read as JSON are the documents of the grammar, each of its value
(`parse?_eq_some_iff`). The reader of lexemes follows the rules of the grammar: what it makes
of lexemes is what the text is that is written with them (`spells_of_reads`), and a part of a
document is read when there is fuel for each of its lexemes (`Spells.exists_readFrom`). One
lexeme tells which rule comes next, except that a collection may be empty; and no item and no
member begins with the sign that closes it.

Key definitions: `Part.Reads`, `Part.ReadFrom`.
Key theorems: `spells_of_reads`, `Spells.exists_readFrom`, `parse?_eq_some_iff`,
`IsDocument.unique`.
-/

namespace CurrencyDesk.Json

/-- A part of a document is read from lexemes, up to those that are left. -/
def Part.Reads (depth fuel : Nat) (lexemes rest : List Lexeme) : Part → Prop
  | .value v => value? (depth + 1) fuel lexemes = some (v, rest)
  | .items vs => items? (depth + 1) fuel lexemes = some (vs, rest)
  | .members ms => members? (depth + 1) fuel lexemes = some (ms, rest)

/-! ### What the reader does with the first lexemes -/

section

variable {depth fuel : Nat} {lexemes rest : List Lexeme}

theorem value?_cases {v : Json} (h : value? (depth + 1) (fuel + 1) lexemes = some (v, rest)) :
    (∃ text, lexemes = .string text :: rest ∧ v = .string text) ∨
    (∃ w, lexemes = .word w :: rest ∧ Literal w v) ∨
    ∃ inner, depth = inner + 1 ∧
      (lexemes = .sign '[' :: .sign ']' :: rest ∧ v = .array [] ∨
      (∃ vs more, lexemes = .sign '[' :: more ∧ v = .array vs ∧
        (Part.items vs).Reads inner fuel more rest) ∨
      lexemes = .sign '{' :: .sign '}' :: rest ∧ v = .object [] ∨
      ∃ ms more, lexemes = .sign '{' :: more ∧ v = .object ms ∧
        (Part.members ms).Reads inner fuel more rest) := by
  have hdepth (hle : ¬depth + 1 ≤ 1) : ∃ inner, depth = inner + 1 :=
    Nat.exists_eq_succ_of_ne_zero (by omega)
  rw [value?.eq_def] at h
  dsimp only at h
  split at h
  · obtain ⟨rfl, rfl⟩ : _ ∧ _ := by simpa using h
    exact .inl ⟨_, rfl, rfl⟩
  · obtain ⟨v, hv, heq⟩ := Option.map_eq_some_iff.mp h
    obtain ⟨rfl, rfl⟩ : _ ∧ _ := by simpa using heq
    exact .inr (.inl ⟨_, rfl, ofWord?_eq_some_iff.mp hv⟩)
  · split_ifs at h with hle
    obtain ⟨inner, rfl⟩ := hdepth hle
    obtain ⟨rfl, rfl⟩ : _ ∧ _ := by simpa using h
    exact .inr (.inr ⟨inner, rfl, .inl ⟨rfl, rfl⟩⟩)
  · split_ifs at h with hle
    obtain ⟨inner, rfl⟩ := hdepth hle
    obtain ⟨⟨vs, left⟩, hvs, heq⟩ := Option.map_eq_some_iff.mp h
    obtain ⟨rfl, rfl⟩ : _ ∧ _ := by simpa using heq
    exact .inr (.inr ⟨inner, rfl, .inr (.inl ⟨vs, _, rfl, rfl, hvs⟩)⟩)
  · split_ifs at h with hle
    obtain ⟨inner, rfl⟩ := hdepth hle
    obtain ⟨rfl, rfl⟩ : _ ∧ _ := by simpa using h
    exact .inr (.inr ⟨inner, rfl, .inr (.inr (.inl ⟨rfl, rfl⟩))⟩)
  · split_ifs at h with hle
    obtain ⟨inner, rfl⟩ := hdepth hle
    obtain ⟨⟨ms, left⟩, hms, heq⟩ := Option.map_eq_some_iff.mp h
    obtain ⟨rfl, rfl⟩ : _ ∧ _ := by simpa using heq
    exact .inr (.inr ⟨inner, rfl, .inr (.inr (.inr ⟨ms, _, rfl, rfl, hms⟩))⟩)
  · cases h

/-- What items are read from: an item and then more of them, or the last one. -/
theorem items?_cases {vs : List Json}
    (h : items? (depth + 1) (fuel + 1) lexemes = some (vs, rest)) :
    ∃ v, (Part.value v).Reads depth fuel lexemes (.sign ']' :: rest) ∧ vs = [v] ∨
      ∃ more others, (Part.value v).Reads depth fuel lexemes (.sign ',' :: more) ∧
        (Part.items others).Reads depth fuel more rest ∧ vs = v :: others := by
  rw [items?.eq_def] at h
  dsimp only at h
  split at h
  · rename_i v more hv
    obtain ⟨⟨others, left⟩, hothers, heq⟩ := Option.map_eq_some_iff.mp h
    obtain ⟨rfl, rfl⟩ : _ ∧ _ := by simpa using heq
    exact ⟨v, .inr ⟨more, others, hv, hothers, rfl⟩⟩
  · rename_i v more hv
    obtain ⟨rfl, rfl⟩ : _ ∧ _ := by simpa using h
    exact ⟨v, .inl ⟨hv, rfl⟩⟩
  · cases h

theorem members?_cases {ms : List (List Char × Json)}
    (h : members? (depth + 1) (fuel + 1) lexemes = some (ms, rest)) :
    ∃ name v first, lexemes = .string name :: .sign ':' :: first ∧
      ((Part.value v).Reads depth fuel first (.sign '}' :: rest) ∧ ms = [(name, v)] ∨
      ∃ more others, (Part.value v).Reads depth fuel first (.sign ',' :: more) ∧
        (Part.members others).Reads depth fuel more rest ∧ ms = (name, v) :: others) := by
  rw [members?.eq_def] at h
  dsimp only at h
  split at h
  · rename_i name first
    split at h
    · rename_i v more hv
      obtain ⟨⟨others, left⟩, hothers, heq⟩ := Option.map_eq_some_iff.mp h
      obtain ⟨rfl, rfl⟩ : _ ∧ _ := by simpa using heq
      exact ⟨name, v, first, rfl, .inr ⟨more, others, hv, hothers, rfl⟩⟩
    · rename_i v more hv
      obtain ⟨rfl, rfl⟩ : _ ∧ _ := by simpa using h
      exact ⟨name, v, first, rfl, .inl ⟨hv, rfl⟩⟩
    · cases h
  · cases h

end

/-! ### What is read is written -/

/-- What the reader makes of lexemes the text spells that is written with them. -/
theorem spells_of_reads {depth fuel : Nat} {part : Part} {lexemes rest : List Lexeme}
    {s : List Char} (h : part.Reads depth fuel lexemes rest) (hs : Written lexemes s) :
    ∃ t, Written rest t ∧ Spells depth part s t := by
  induction fuel generalizing depth part lexemes rest s with
  | zero =>
    cases part with
    | value v => cases h
    | items vs => cases h
    | members ms => cases h
  | succ fuel ih =>
    cases part with
    | value v =>
      rcases value?_cases h with ⟨text, rfl, rfl⟩ | ⟨w, rfl, hliteral⟩ |
        ⟨inner, rfl, hcollection⟩
      · cases hs with
        | string hblanks hquoted hrest => exact ⟨_, hrest, .string hblanks hquoted⟩
      · cases hs with
        | word hblanks _ _ _ hrest => exact ⟨_, hrest, .literal hblanks hliteral⟩
      · rcases hcollection with ⟨rfl, rfl⟩ | ⟨vs, more, rfl, rfl, hvs⟩ | ⟨rfl, rfl⟩ |
          ⟨ms, more, rfl, rfl, hms⟩
        · cases hs with
          | sign hopen _ hs =>
            cases hs with
            | sign hclose _ hrest => exact ⟨_, hrest, .emptyArray hopen hclose⟩
        · cases hs with
          | sign hopen _ hs =>
            obtain ⟨t, hrest, hspells⟩ := ih hvs hs
            exact ⟨t, hrest, .array hopen hspells⟩
        · cases hs with
          | sign hopen _ hs =>
            cases hs with
            | sign hclose _ hrest => exact ⟨_, hrest, .emptyObject hopen hclose⟩
        · cases hs with
          | sign hopen _ hs =>
            obtain ⟨t, hrest, hspells⟩ := ih hms hs
            exact ⟨t, hrest, .object hopen hspells⟩
    | items vs =>
      obtain ⟨v, ⟨hv, rfl⟩ | ⟨more, others, hv, hothers, rfl⟩⟩ := items?_cases h
      · obtain ⟨t, ht, hspells⟩ := ih hv hs
        cases ht with
        | sign hclose _ hrest => exact ⟨_, hrest, .lastItem hspells hclose⟩
      · obtain ⟨t, ht, hspells⟩ := ih hv hs
        cases ht with
        | sign hcomma _ hmore =>
          obtain ⟨t, hrest, hitems⟩ := ih hothers hmore
          exact ⟨t, hrest, .item hspells hcomma hitems⟩
    | members ms =>
      obtain ⟨name, v, first, rfl, hmember⟩ := members?_cases h
      cases hs with
      | string hblanks hquoted hs =>
        cases hs with
        | sign hcolon _ hs =>
          rcases hmember with ⟨hv, rfl⟩ | ⟨more, others, hv, hothers, rfl⟩
          · obtain ⟨t, ht, hspells⟩ := ih hv hs
            cases ht with
            | sign hclose _ hrest =>
              exact ⟨_, hrest, .lastMember hblanks hquoted hcolon hspells hclose⟩
          · obtain ⟨t, ht, hspells⟩ := ih hv hs
            cases ht with
            | sign hcomma _ hmore =>
              obtain ⟨t, hrest, hmembers⟩ := ih hothers hmore
              exact ⟨t, hrest, .member hblanks hquoted hcolon hspells hcomma hmembers⟩

/-! ### What is written is read -/

section

variable {depth fuel : Nat} {more rest : List Lexeme}

theorem reads_word {w : List Char} {v : Json} (h : Literal w v) :
    (Part.value v).Reads depth (fuel + 1) (.word w :: rest) rest := by
  rw [Part.Reads, value?.eq_def]
  simp [ofWord?_eq_some_iff.mpr h]

theorem value?_close {c : Char} (hc : c = ']' ∨ c = '}') :
    value? (depth + 1) fuel (.sign c :: rest) = none := by
  cases fuel with
  | zero => rfl
  | succ fuel => rcases hc with rfl | rfl <;> rfl

theorem reads_array {vs : List Json} (h : (Part.items vs).Reads depth fuel more rest) :
    (Part.value (.array vs)).Reads (depth + 1) (fuel + 1) (.sign '[' :: more) rest := by
  have hclose : ∀ left, more ≠ .sign ']' :: left := by
    rintro left rfl
    cases fuel with
    | zero => cases h
    | succ fuel =>
      simp only [Part.Reads] at h
      rw [items?.eq_def] at h
      simp [value?_close] at h
  simp only [Part.Reads] at h ⊢
  rw [value?.eq_def]
  simp [h]

theorem reads_object {ms : List (List Char × Json)}
    (h : (Part.members ms).Reads depth fuel more rest) :
    (Part.value (.object ms)).Reads (depth + 1) (fuel + 1) (.sign '{' :: more) rest := by
  have hclose : ∀ left, more ≠ .sign '}' :: left := by
    rintro left rfl
    cases fuel with
    | zero => cases h
    | succ fuel => cases h
  simp only [Part.Reads] at h ⊢
  rw [value?.eq_def]
  simp [h]

theorem reads_lastItem {v : Json} (h : (Part.value v).Reads depth fuel more (.sign ']' :: rest)) :
    (Part.items [v]).Reads depth (fuel + 1) more rest := by
  simp only [Part.Reads] at h ⊢
  rw [items?.eq_def]
  simp [h]

theorem reads_item {v : Json} {vs : List Json} {first : List Lexeme}
    (h : (Part.value v).Reads depth fuel first (.sign ',' :: more))
    (hvs : (Part.items vs).Reads depth fuel more rest) :
    (Part.items (v :: vs)).Reads depth (fuel + 1) first rest := by
  simp only [Part.Reads] at h hvs ⊢
  rw [items?.eq_def]
  simp [h, hvs]

theorem reads_lastMember {name : List Char} {v : Json}
    (h : (Part.value v).Reads depth fuel more (.sign '}' :: rest)) :
    (Part.members [(name, v)]).Reads depth (fuel + 1) (.string name :: .sign ':' :: more) rest := by
  simp only [Part.Reads] at h ⊢
  rw [members?.eq_def]
  simp [h]

theorem reads_member {name : List Char} {v : Json} {ms : List (List Char × Json)}
    {first : List Lexeme} (h : (Part.value v).Reads depth fuel first (.sign ',' :: more))
    (hms : (Part.members ms).Reads depth fuel more rest) :
    (Part.members ((name, v) :: ms)).Reads depth (fuel + 1) (.string name :: .sign ':' :: first)
      rest := by
  simp only [Part.Reads] at h hms ⊢
  rw [members?.eq_def]
  simp [h, hms]

end

/-- A word does not go on over blanks and the sign behind them. -/
theorem Blanks.stopsAt {s t : List Char} (h : Blanks s t) (ht : StopsAt isWordChar t) :
    StopsAt isWordChar s := by
  cases h with
  | nil => exact ht
  | cons hc =>
    refine stopsAt_cons ?_ _
    simp [isWordChar, isBlank_iff.mpr hc]

/-- Lexemes of which a part is read: the text is written with them, there are some, and
there is fuel enough if there is as much as there are. -/
structure Part.ReadFrom (part : Part) (depth : Nat) (s : List Char) (lexemes rest : List Lexeme) :
    Prop where
  written : Written lexemes s
  length_lt : rest.length < lexemes.length
  reads : ∀ fuel, lexemes.length ≤ fuel + rest.length → part.Reads depth fuel lexemes rest

/-- Fuel for at least one lexeme is fuel for one more step. -/
theorem forall_fuel {p : Nat → Prop} {n k : Nat} (hk : k < n)
    (hp : ∀ fuel, n ≤ fuel + 1 + k → p (fuel + 1)) : ∀ fuel, n ≤ fuel + k → p fuel := by
  rintro (_ | fuel) hle
  · omega
  · exact hp fuel hle

section

variable {depth inner : Nat} {part whole : Part} {s t : List Char} {lexemes left rest : List Lexeme}

theorem readFrom_of_reads (hwritten : Written lexemes s) (hlength : rest.length < lexemes.length)
    (hread : ∀ fuel, part.Reads depth (fuel + 1) lexemes rest) :
    part.ReadFrom depth s lexemes rest :=
  ⟨hwritten, hlength, forall_fuel hlength fun fuel _ => hread fuel⟩

/-- What is read in one step and with one of its parts. This step has a lexeme of its own, in
front of the part or behind it, that pays for it. -/
theorem Part.ReadFrom.step (h : part.ReadFrom inner t lexemes left) (first : List Lexeme)
    (hwritten : Written (first ++ lexemes) s) (hown : rest.length < first.length + left.length)
    (hread : ∀ fuel, (first ++ lexemes).length ≤ fuel + 1 + rest.length →
      part.Reads inner fuel lexemes left → whole.Reads depth (fuel + 1) (first ++ lexemes) rest) :
    whole.ReadFrom depth s (first ++ lexemes) rest := by
  have hlt := h.length_lt
  have hlength : rest.length < (first ++ lexemes).length := by
    rw [List.length_append]
    omega
  refine ⟨hwritten, hlength, forall_fuel hlength fun fuel hle => hread fuel hle ?_⟩
  rw [List.length_append] at hle
  exact h.reads fuel (by omega)

end

/-- What is written is read. -/
theorem Spells.exists_readFrom {depth : Nat} {part : Part} {s t : List Char}
    (h : Spells depth part s t) {rest : List Lexeme} (ht : Written rest t)
    (hstop : StopsAt isWordChar t) : ∃ lexemes, part.ReadFrom depth s lexemes rest := by
  have hsign {c : Char} (hc : isSign c = true) (s : List Char) : StopsAt isWordChar (c :: s) :=
    stopsAt_cons (by simp [isWordChar, hc]) s
  -- lexemes are found from the back: those behind a part come first, then those of the part
  induction h generalizing rest with
  | string hblanks hquoted =>
    exact ⟨_, readFrom_of_reads (.string hblanks hquoted ht) (by simp) fun _ => rfl⟩
  | literal hblanks hliteral =>
    have hwritten : Written (.word _ :: rest) _ :=
      .word hblanks hliteral.ne_nil (fun _ => hliteral.isWordChar_of_mem) hstop ht
    exact ⟨_, readFrom_of_reads hwritten (by simp) fun _ => reads_word hliteral⟩
  | emptyArray hopen hclose =>
    have hwritten : Written (.sign '[' :: .sign ']' :: rest) _ :=
      .sign hopen rfl (.sign hclose rfl ht)
    exact ⟨_, readFrom_of_reads hwritten (Nat.lt_succ_of_lt (Nat.lt_succ_self _)) fun _ => rfl⟩
  | array hopen _ ih =>
    obtain ⟨lexemes, hitems⟩ := ih ht hstop
    exact ⟨_, hitems.step [.sign '['] (.sign hopen rfl hitems.written) (by simp)
      fun _ _ => reads_array⟩
  | emptyObject hopen hclose =>
    have hwritten : Written (.sign '{' :: .sign '}' :: rest) _ :=
      .sign hopen rfl (.sign hclose rfl ht)
    exact ⟨_, readFrom_of_reads hwritten (Nat.lt_succ_of_lt (Nat.lt_succ_self _)) fun _ => rfl⟩
  | object hopen _ ih =>
    obtain ⟨lexemes, hmembers⟩ := ih ht hstop
    exact ⟨_, hmembers.step [.sign '{'] (.sign hopen rfl hmembers.written) (by simp)
      fun _ _ => reads_object⟩
  | lastItem _ hclose ih =>
    obtain ⟨lexemes, hvalue⟩ := ih (.sign hclose rfl ht) (hclose.stopsAt (hsign rfl _))
    exact ⟨_, hvalue.step [] hvalue.written (by simp) fun _ _ => reads_lastItem⟩
  | item _ hcomma _ ih ihs =>
    obtain ⟨more, hitems⟩ := ihs ht hstop
    obtain ⟨lexemes, hvalue⟩ := ih (.sign hcomma rfl hitems.written) (hcomma.stopsAt (hsign rfl _))
    have hlt := hvalue.length_lt
    have hlt' := hitems.length_lt
    refine ⟨_, hvalue.step [] hvalue.written ?_ fun fuel hle hread =>
      reads_item hread (hitems.reads fuel ?_)⟩ <;>
    · simp only [List.length_append, List.length_cons, List.length_nil] at *
      omega
  | lastMember hblanks hquoted hcolon _ hclose ih =>
    obtain ⟨lexemes, hvalue⟩ := ih (.sign hclose rfl ht) (hclose.stopsAt (hsign rfl _))
    refine ⟨_, hvalue.step [.string _, .sign ':']
      (.string hblanks hquoted (.sign hcolon rfl hvalue.written)) ?_ fun _ _ => reads_lastMember⟩
    simp only [List.length_cons]
    omega
  | member hblanks hquoted hcolon _ hcomma _ ih ihs =>
    obtain ⟨more, hmembers⟩ := ihs ht hstop
    obtain ⟨lexemes, hvalue⟩ :=
      ih (.sign hcomma rfl hmembers.written) (hcomma.stopsAt (hsign rfl _))
    have hlt := hvalue.length_lt
    have hlt' := hmembers.length_lt
    refine ⟨_, hvalue.step [.string _, .sign ':']
      (.string hblanks hquoted (.sign hcolon rfl hvalue.written)) ?_ fun fuel hle hread =>
        reads_member hread (hmembers.reads fuel ?_)⟩ <;>
    · simp only [List.length_append, List.length_cons, List.length_nil] at *
      omega

/-! ### Documents -/

theorem Written.blanks {s : List Char} (h : Written [] s) : Blanks s [] := by
  cases h with
  | nil hblanks => exact hblanks

/-- **The texts that are read are the documents of the grammar, each of its value.** -/
theorem parse?_eq_some_iff {text : List Char} {v : Json} :
    parse? text = some v ↔ IsDocument text v := by
  rw [parse?, Option.bind_eq_some_iff]
  constructor
  · rintro ⟨lexemes, hlexemes, hv⟩
    have hread : (Part.value v).Reads 127 (lexemes.length + 1) lexemes [] := by
      rw [ofLexemes?] at hv
      split at hv
      · rename_i v' heq
        obtain rfl := Option.some.inj hv
        exact heq
      · cases hv
    obtain ⟨t, ht, hspells⟩ := spells_of_reads hread (lexemesFrom_eq_some_iff.mp hlexemes)
    exact ⟨t, hspells, ht.blanks⟩
  · rintro ⟨rest, hspells, hblanks⟩
    obtain ⟨lexemes, hwritten, -, hreads⟩ :=
      hspells.exists_readFrom (.nil hblanks) (hblanks.stopsAt (stopsAt_nil _))
    refine ⟨lexemes, lexemesFrom_eq_some_iff.mpr hwritten, ?_⟩
    have hread : value? depthLimit (lexemes.length + 1) lexemes = some (v, []) :=
      hreads (lexemes.length + 1) (Nat.le_succ _)
    rw [ofLexemes?, hread]

theorem IsDocument.unique {text : List Char} {v w : Json} (hv : IsDocument text v)
    (hw : IsDocument text w) : v = w :=
  Option.some.inj ((parse?_eq_some_iff.mpr hv).symm.trans (parse?_eq_some_iff.mpr hw))

theorem Spells.exists_of_mem {depth : Nat} {ms : List (List Char × Json)} {s t : List Char}
    (h : Spells depth (.members ms) s t) {m : List Char × Json} (hm : m ∈ ms) :
    ∃ s t, Spells depth (.value m.2) s t := by
  generalize hpart : Part.members ms = part at h
  induction h generalizing ms with
  | lastMember _ _ _ hvalue =>
    obtain rfl := Part.members.inj hpart
    obtain rfl := List.mem_singleton.mp hm
    exact ⟨_, _, hvalue⟩
  | member _ _ _ hvalue _ _ _ ih =>
    obtain rfl := Part.members.inj hpart
    rcases List.mem_cons.mp hm with rfl | hm
    · exact ⟨_, _, hvalue⟩
    · exact ih hm rfl
  | _ => cases hpart

theorem IsDocument.isFinite_of_mem {text name : List Char} {ms : List (List Char × Json)}
    {n : Number} (h : IsDocument text (.object ms)) (hm : (name, .number n) ∈ ms) :
    n.toBinary64.isFinite = true := by
  obtain ⟨rest, hspells, -⟩ := h
  cases hspells with
  | literal _ hliteral => cases hliteral
  | emptyObject => cases hm
  | object _ hmembers =>
    obtain ⟨_, _, hvalue⟩ := hmembers.exists_of_mem hm
    cases hvalue with
    | literal _ hliteral =>
      cases hliteral with
      | number _ hn => exact Number.isFinite_toBinary64 hn

end CurrencyDesk.Json
