import CurrencyDesk.Proofs.Text.Utf8
import CurrencyDesk.Terminal.Session
import Mathlib.Data.List.Basic
/-!
# Lines of an input

A line ends in front of a line feed, or of a carriage return and a line feed; what is left
behind the last line feed is a line too, if there is anything (`HasLines`). Cutting an input
at its line feeds finds these lines (`hasLines_iff`), those of two inputs one after the other
are found in each by itself when the first one ends in a line feed (`inputLines_append`), and
the lines of a text are texts (`isText_of_mem_inputLines`).

Key definitions: `HasLines`, `IsText`.
Key theorems: `induction_on_separator`, `inputLines_append_cons`, `inputLines_append`,
`hasLines_iff`, `isText_of_mem_inputLines`.
-/

namespace CurrencyDesk.Session

open Text Text.Utf8

/-- The lines of an input. -/
inductive HasLines : List UInt8 → List (List UInt8) → Prop where
  | nil : HasLines [] []
  | unterminated {line : List UInt8} : line ≠ [] → 10 ∉ line → HasLines line [line]
  | fed {line input : List UInt8} {lines : List (List UInt8)} :
      10 ∉ line → line.getLast? ≠ some 13 → HasLines input lines →
        HasLines (line ++ 10 :: input) (line :: lines)
  | returned {line input : List UInt8} {lines : List (List UInt8)} :
      10 ∉ line → HasLines input lines → HasLines (line ++ 13 :: 10 :: input) (line :: lines)

/-- Induction over the pieces of a list: it has no separator, or its first piece stands in front
of one. -/
@[elab_as_elim]
theorem induction_on_separator {α : Type} (separator : α) {motive : List α → Prop}
    (last : ∀ piece, separator ∉ piece → motive piece)
    (step : ∀ piece rest, separator ∉ piece → motive rest → motive (piece ++ separator :: rest))
    (s : List α) : motive s := by
  induction hlen : s.length using Nat.strong_induction_on generalizing s with
  | _ n ih =>
    by_cases h : separator ∈ s
    · obtain ⟨piece, rest, rfl, hpiece⟩ := List.eq_append_cons_of_mem h
      have hrest : rest.length < n := by
        rw [← hlen, List.length_append, List.length_cons]
        omega
      exact step piece rest hpiece (ih _ hrest rest rfl)
    · exact last s h

/-! ### Cutting at line feeds -/

section

variable {line input : List UInt8}

theorem splitWhen_of_not_mem (h : 10 ∉ line) : splitWhen (· == 10) line = [line] :=
  splitWhen_eq_singleton fun _ hb => beq_eq_false_iff_ne.mpr fun heq => h (heq ▸ hb)

/-- An input without line feeds is one line, or none if it is empty. -/
theorem inputLines_of_not_mem (h : 10 ∉ line) :
    inputLines line = if line.isEmpty then [] else [line] := by
  simp [inputLines, splitWhen_of_not_mem h]

theorem inputLines_append_cons (h : 10 ∉ line) :
    inputLines (line ++ 10 :: input) = dropReturn line :: inputLines input := by
  obtain ⟨part, parts, hparts⟩ :=
    List.exists_cons_of_ne_nil (splitWhen_ne_nil (· == 10) input)
  simp [inputLines, splitWhen_append_cons, splitWhen_of_not_mem h, hparts, List.getLastD]

theorem dropReturn_append_return (line : List UInt8) : dropReturn (line ++ [13]) = line := by
  simp [dropReturn]

theorem dropReturn_of_ne (h : line.getLast? ≠ some 13) : dropReturn line = line :=
  if_neg h

/-- The lines of an input that ends in a line feed are not joined with what follows. -/
theorem inputLines_append (first more : List UInt8) :
    inputLines (first ++ 10 :: more) = inputLines (first ++ [10]) ++ inputLines more := by
  induction first using induction_on_separator (10 : UInt8) with
  | last line h =>
    rw [inputLines_append_cons h, inputLines_append_cons h, List.cons_append]
    rfl
  | step line rest h ih =>
    rw [List.append_assoc, List.append_assoc, List.cons_append, List.cons_append,
      inputLines_append_cons h, inputLines_append_cons h, ih, List.cons_append]

theorem hasLines_inputLines (input : List UInt8) : HasLines input (inputLines input) := by
  induction input using induction_on_separator (10 : UInt8) with
  | last line h =>
    rw [inputLines_of_not_mem h]
    by_cases hempty : line = []
    · rw [hempty]
      exact .nil
    · rw [if_neg (by simpa using hempty)]
      exact .unterminated hempty h
  | step line rest h ih =>
    rw [inputLines_append_cons h]
    by_cases hreturn : line.getLast? = some 13
    · obtain ⟨body, rfl⟩ := List.getLast?_eq_some_iff.mp hreturn
      rw [dropReturn_append_return, List.append_assoc]
      exact .returned (fun hmem => h (List.mem_append_left _ hmem)) ih
    · rw [dropReturn_of_ne hreturn]
      exact .fed h hreturn ih

/-- **Cutting an input at line feeds finds its lines.** -/
theorem hasLines_iff {lines : List (List UInt8)} :
    HasLines input lines ↔ inputLines input = lines := by
  refine ⟨fun h => ?_, fun h => h ▸ hasLines_inputLines input⟩
  induction h with
  | nil => rfl
  | unterminated hne hfeed => rw [inputLines_of_not_mem hfeed, if_neg (by simpa using hne)]
  | fed hfeed hreturn _ ih => rw [inputLines_append_cons hfeed, dropReturn_of_ne hreturn, ih]
  | @returned line input _ hfeed _ ih =>
    have hfeed' : (10 : UInt8) ∉ line ++ [13] := by simpa using hfeed
    rw [show line ++ 13 :: 10 :: input = (line ++ [13]) ++ 10 :: input by simp,
      inputLines_append_cons hfeed', dropReturn_append_return, ih]

end

/-! ### Lines of a text -/

/-- Bytes are a text. -/
def IsText (bytes : List UInt8) : Prop :=
  ∃ s, encode s = bytes

/-- A line feed among the bytes of a text is one of its characters. -/
theorem feed_mem_of_mem_encode {s : List Char} (h : 10 ∈ encode s) : '\n' ∈ s := by
  obtain ⟨c, hc, hmem⟩ := List.mem_flatMap.mp h
  exact eq_of_mem_utf8EncodeChar (d := '\n') hmem (by decide +kernel) (by decide) ▸ hc

theorem IsText.dropReturn {line : List UInt8} (h : IsText line) :
    IsText (Session.dropReturn line) := by
  by_cases hreturn : line.getLast? = some 13
  · obtain ⟨s, rfl⟩ := h
    rcases List.eq_nil_or_concat s with rfl | ⟨s, c, rfl⟩
    · simp at hreturn
    · rw [List.concat_eq_append] at hreturn ⊢
      have hc : String.utf8EncodeChar c = [13] := by
        refine utf8EncodeChar_of_mem ?_ (by decide)
        rw [encode_append, encode_cons, encode_nil, List.append_nil,
          List.getLast?_append_of_ne_nil _ (String.utf8EncodeChar_ne_nil)] at hreturn
        exact List.mem_of_getLast? hreturn
      refine ⟨s, ?_⟩
      rw [encode_append, encode_cons, encode_nil, hc, List.append_nil, dropReturn_append_return]
  · rwa [dropReturn_of_ne hreturn]

theorem isText_of_mem_inputLines {s : List Char} {line : List UInt8}
    (h : line ∈ inputLines (encode s)) : IsText line := by
  induction s using induction_on_separator '\n' with
  | last piece hpiece =>
    rw [inputLines_of_not_mem fun hmem => hpiece (feed_mem_of_mem_encode hmem)] at h
    split_ifs at h
    · cases h
    · exact ⟨piece, (List.mem_singleton.mp h).symm⟩
  | step piece rest hpiece ih =>
    have hbyte : String.utf8EncodeChar '\n' = [10] := by decide +kernel
    rw [encode_append, encode_cons, hbyte, List.singleton_append,
      inputLines_append_cons fun hmem => hpiece (feed_mem_of_mem_encode hmem)] at h
    rcases List.mem_cons.mp h with rfl | h
    · exact IsText.dropReturn ⟨piece, rfl⟩
    · exact ih h

end CurrencyDesk.Session
