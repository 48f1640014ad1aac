import CurrencyDesk.Text.Blank
import Mathlib.Data.List.TakeWhile
/-!
# The words of a text

What it is for a text to be cut into words, said by rules that read it from left to right:
white space is passed over, and a word is a run of other characters, not empty, that ends
with the text or in front of white space. Every text is cut in one way, into the words that
`Text.words` finds (`words_eq_iff`).

Key definitions: `Cut`.
Key theorems: `words_eq_iff`.
-/

namespace CurrencyDesk.Text

/-- A text begins with white space, or is empty. -/
def AtBreak (s : List Char) : Prop :=
  ∀ c ∈ s.head?, isBlank c = true

/-- A text is cut at its white space into words. -/
inductive Cut : List Char → List (List Char) → Prop
  | nil : Cut [] []
  | blank {c : Char} {s : List Char} {ws : List (List Char)} :
      isBlank c = true → Cut s ws → Cut (c :: s) ws
  | word {w s : List Char} {ws : List (List Char)} :
      w ≠ [] → (∀ c ∈ w, isBlank c = false) → AtBreak s → Cut s ws → Cut (w ++ s) (w :: ws)

theorem words_append_of_atBreak {w s : List Char} (hne : w ≠ [])
    (hw : ∀ c ∈ w, isBlank c = false) (hs : AtBreak s) : words (w ++ s) = w :: words s := by
  cases s with
  | nil => rw [List.append_nil, words_eq_singleton hne hw, words_nil]
  | cons c s =>
    have hc : isBlank c = true := hs c rfl
    rw [words_append_cons hc, words_eq_singleton hne hw, words_cons_blank hc, List.singleton_append]

theorem words_of_cut {s : List Char} {ws : List (List Char)} (h : Cut s ws) : words s = ws := by
  induction h with
  | nil => exact words_nil
  | blank hc _ ih => rw [words_cons_blank hc, ih]
  | word hne hw hs _ ih => rw [words_append_of_atBreak hne hw hs, ih]

/-- A text that begins with a character of a word is that word in front of a break. -/
theorem exists_word_of_not_blank {c : Char} (hc : isBlank c = false) (s : List Char) :
    ∃ w t, c :: s = (c :: w) ++ t ∧ (∀ a ∈ c :: w, isBlank a = false) ∧ AtBreak t := by
  refine ⟨s.takeWhile (!isBlank ·), s.dropWhile (!isBlank ·), ?_, fun a ha => ?_, fun a ha => ?_⟩
  · rw [List.cons_append, List.takeWhile_append_dropWhile]
  · rcases List.mem_cons.mp ha with rfl | ha
    · exact hc
    · simpa using List.mem_takeWhile_imp ha
  · simpa using eq_false_of_mem_head?_dropWhile ha

theorem cut_words : ∀ s : List Char, Cut s (words s)
  | [] => .nil
  | c :: s => by
    by_cases hc : isBlank c = true
    · rw [words_cons_blank hc]
      exact .blank hc (cut_words s)
    · rw [Bool.not_eq_true] at hc
      obtain ⟨w, t, heq, hw, ht⟩ := exists_word_of_not_blank hc s
      have hlen : t.length < s.length + 1 := by
        have := congrArg List.length heq
        simp only [List.length_cons, List.length_append] at this
        omega
      rw [heq, words_append_of_atBreak (List.cons_ne_nil c w) hw ht]
      exact .word (List.cons_ne_nil c w) hw ht (cut_words t)
termination_by s => s.length

/-- **A text is cut in one way, into its words.** -/
theorem words_eq_iff {s : List Char} {ws : List (List Char)} : words s = ws ↔ Cut s ws :=
  ⟨fun h => h ▸ cut_words s, words_of_cut⟩

end CurrencyDesk.Text
