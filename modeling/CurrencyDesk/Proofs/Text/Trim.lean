import CurrencyDesk.Proofs.Text.Words
import Mathlib.Data.List.DropRight
/-!
# White space around a text and inside it

To trim a text is to take white space off both ends until neither has any (`trim_split`,
`isTidy_trim`); nothing is left exactly when there was nothing else (`trim_eq_nil_iff`). The
same characters stand between words: a text of words with white space between them, and maybe
around them, is cut into these words (`Spaced.words_eq`). So a trimmed text without white space
inside is a word (`IsTidy.isWord`).

Key definitions: `AllBlank`, `IsTidy`, `HasInnerBlank`, `IsWord`, `Spaced`.
Key theorems: `trim_split`, `trim_eq_nil_iff`, `isTidy_trim`, `IsTidy.isWord`, `Spaced.words_eq`.
-/

namespace CurrencyDesk.Text

/-- A text of white space alone, or of nothing. -/
def AllBlank (s : List Char) : Prop :=
  ∀ c ∈ s, isBlank c = true

-- All of these go through `all`: a quantifier over characters could be decided one by one for
-- every character there is.
instance : DecidablePred AllBlank := fun s =>
  decidable_of_iff (s.all isBlank = true) (by simp [AllBlank])

/-- A text that holds something, and no white space at its ends. -/
@[mk_iff isTidy_iff]
structure IsTidy (s : List Char) : Prop where
  ne_nil : s ≠ []
  head : ∀ c ∈ s.head?, isBlank c = false
  last : ∀ c ∈ s.getLast?, isBlank c = false

instance : DecidablePred IsTidy := fun s =>
  decidable_of_iff (s ≠ [] ∧ s.head?.all (!isBlank ·) = true ∧ s.getLast?.all (!isBlank ·) = true)
    (by simp [isTidy_iff, Option.all_eq_true])

/-- A text has white space between other characters. -/
def HasInnerBlank (s : List Char) : Prop :=
  ∃ before c after, s = before ++ c :: after ∧ isBlank c = true ∧
    (∃ a ∈ before, isBlank a = false) ∧ ∃ a ∈ after, isBlank a = false

/-- A text can be a word: it holds something, and no white space. -/
@[mk_iff isWord_iff]
structure IsWord (w : List Char) : Prop where
  ne_nil : w ≠ []
  notBlank : ∀ c ∈ w, isBlank c = false

instance : DecidablePred IsWord := fun w =>
  decidable_of_iff (w ≠ [] ∧ w.all (!isBlank ·) = true) (by simp [isWord_iff])

/-- A text is words with white space between them, and maybe around them. -/
inductive Spaced : List (List Char) → List Char → Prop
  | one {before w after : List Char} : AllBlank before → AllBlank after →
      Spaced [w] (before ++ w ++ after)
  | cons {before w gap s : List Char} {ws : List (List Char)} : AllBlank before → AllBlank gap →
      gap ≠ [] → Spaced ws s → Spaced (w :: ws) (before ++ w ++ gap ++ s)

/-! ### What trimming leaves -/

theorem trimEnd_eq (s : List Char) : trimEnd s = s.rdropWhile isBlank := rfl

/-- A text is what trimming leaves, with white space around it. -/
theorem trim_split (s : List Char) :
    ∃ before after, s = before ++ trim s ++ after ∧ AllBlank before ∧ AllBlank after := by
  refine ⟨s.takeWhile isBlank, (trimStart s).rtakeWhile isBlank, ?_, fun c hc => ?_, fun c hc => ?_⟩
  · rw [trim, trimEnd_eq, List.append_assoc, List.rdropWhile_append_rtakeWhile, trimStart,
      List.takeWhile_append_dropWhile]
  · exact List.mem_takeWhile_imp hc
  · exact List.mem_rtakeWhile_imp hc

theorem trim_eq_nil_iff {s : List Char} : trim s = [] ↔ AllBlank s := by
  constructor
  · intro h c hc
    obtain ⟨before, after, hs, hbefore, hafter⟩ := trim_split s
    rw [h, List.append_nil] at hs
    rw [hs] at hc
    exact (List.mem_append.mp hc).elim (hbefore c) (hafter c)
  · intro h
    have hstart : trimStart s = [] := List.dropWhile_eq_nil_iff.mpr h
    rw [trim, hstart]
    rfl

theorem notBlank_of_mem_head?_trimStart {s : List Char} {c : Char} (hc : c ∈ (trimStart s).head?) :
    isBlank c = false :=
  eq_false_of_mem_head?_dropWhile hc

theorem isTidy_trim {s : List Char} (h : trim s ≠ []) : IsTidy (trim s) where
  ne_nil := h
  head := by
    -- the first character is that of the text without the white space in front
    intro c hc
    obtain ⟨rest, hrest⟩ : trim s <+: trimStart s := List.rdropWhile_prefix isBlank _
    refine notBlank_of_mem_head?_trimStart (s := s) ?_
    rw [← hrest, List.head?_append, Option.mem_def.mp hc]
    rfl
  last := by
    intro c hc
    rw [Option.mem_def, List.getLast?_eq_some_getLast h, Option.some.injEq] at hc
    have := List.rdropWhile_last_not isBlank (trimStart s) h
    rw [Bool.not_eq_true] at this
    exact hc ▸ this

/-- A text that is tidy and has no white space inside has none at all. -/
theorem IsTidy.isWord {s : List Char} (h : IsTidy s) (hinner : ¬HasInnerBlank s) : IsWord s where
  ne_nil := h.ne_nil
  notBlank := by
    intro c hc
    rw [Bool.eq_false_iff]
    intro hblank
    obtain ⟨before, after, rfl⟩ := List.append_of_mem hc
    refine hinner ⟨before, c, after, rfl, hblank, ?_, ?_⟩
    · cases before with
      | nil => exact absurd (h.head c rfl) (by simp [hblank])
      | cons a before => exact ⟨a, List.mem_cons_self, h.head a rfl⟩
    · rcases List.eq_nil_or_concat' after with rfl | ⟨after, a, rfl⟩
      · exact absurd (h.last c (by simp)) (by simp [hblank])
      · have hlast : (before ++ c :: (after ++ [a])).getLast? = some a := by
          rw [← List.cons_append, ← List.append_assoc, List.getLast?_concat]
        exact ⟨a, List.mem_append_right after (List.mem_singleton_self a), h.last a hlast⟩

theorem IsWord.not_hasInnerBlank {s : List Char} (h : IsWord s) : ¬HasInnerBlank s := by
  rintro ⟨before, c, after, rfl, hblank, -⟩
  have hc := h.notBlank c (List.mem_append_right before List.mem_cons_self)
  rw [hblank] at hc
  cases hc

/-! ### Words with white space between them -/

theorem Cut.blanks {before s : List Char} {ws : List (List Char)} (hbefore : AllBlank before)
    (h : Cut s ws) : Cut (before ++ s) ws := by
  induction before with
  | nil => exact h
  | cons c before ih =>
    obtain ⟨hc, hbefore⟩ := List.forall_mem_cons.mp hbefore
    exact .blank hc (ih hbefore)

theorem AllBlank.atBreak {gap : List Char} (h : AllBlank gap) : AtBreak gap :=
  fun c hc => h c (List.mem_of_mem_head? hc)

theorem AllBlank.atBreak_append {gap : List Char} (h : AllBlank gap) (hne : gap ≠ [])
    (s : List Char) : AtBreak (gap ++ s) := by
  obtain ⟨c, gap, rfl⟩ := List.exists_cons_of_ne_nil hne
  intro a ha
  obtain rfl : c = a := Option.some.inj ha
  exact h c List.mem_cons_self

theorem Spaced.cut {ws : List (List Char)} {s : List Char} (h : Spaced ws s)
    (hws : ∀ w ∈ ws, IsWord w) : Cut s ws := by
  induction h with
  | one hbefore hafter =>
    obtain ⟨hw, -⟩ := List.forall_mem_cons.mp hws
    have hend : Cut _ [] := .blanks hafter .nil
    rw [List.append_nil] at hend
    rw [List.append_assoc]
    exact .blanks hbefore (.word hw.ne_nil hw.notBlank hafter.atBreak hend)
  | cons hbefore hgap hne _ ih =>
    obtain ⟨hw, hws⟩ := List.forall_mem_cons.mp hws
    rw [List.append_assoc, List.append_assoc]
    exact .blanks hbefore
      (.word hw.ne_nil hw.notBlank (hgap.atBreak_append hne _) (.blanks hgap (ih hws)))

/-- **Words with white space between them are the words of the text.** -/
theorem Spaced.words_eq {ws : List (List Char)} {s : List Char} (h : Spaced ws s)
    (hws : ∀ w ∈ ws, IsWord w) : words s = ws :=
  words_of_cut (h.cut hws)

end CurrencyDesk.Text
