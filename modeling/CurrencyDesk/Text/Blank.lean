import CurrencyDesk.Text.Split
/-!
# White space and words

A query is read as words: the longest runs of characters that are not white
space, where white space is the Unicode property of that name (so the
no-break spaces, the typographic spaces and the two separators belong to it, and
the zero-width space and the byte order mark do not). `words` cuts a text into
its words and `trim` drops the white space at both ends.

Key definitions: `isBlank`, `words`, `trim`.
Key theorems: `words_append_cons`, `words_eq_singleton`.
-/

namespace CurrencyDesk.Text

/-- The code points with the Unicode property White_Space. -/
def blanks : List Nat :=
  [0x09, 0x0A, 0x0B, 0x0C, 0x0D, 0x20, 0x85, 0xA0, 0x1680,
   0x2000, 0x2001, 0x2002, 0x2003, 0x2004, 0x2005, 0x2006, 0x2007, 0x2008, 0x2009, 0x200A,
   0x2028, 0x2029, 0x202F, 0x205F, 0x3000]

/-- Whether a character is white space. -/
def isBlank (c : Char) : Bool :=
  blanks.contains c.toNat

/-- The words of a text. -/
def words (s : List Char) : List (List Char) :=
  (splitWhen isBlank s).filter (!·.isEmpty)

/-- Drops the white space in front of a text. -/
def trimStart (s : List Char) : List Char :=
  s.dropWhile isBlank

/-- Drops the white space behind a text. -/
def trimEnd (s : List Char) : List Char :=
  (trimStart s.reverse).reverse

/-- Drops the white space at both ends of a text. -/
def trim (s : List Char) : List Char :=
  trimEnd (trimStart s)

@[simp] theorem words_nil : words [] = [] := rfl

/-- A text has the words in front of a white space character, then those behind it. -/
theorem words_append_cons {c : Char} (h : isBlank c = true) (s t : List Char) :
    words (s ++ c :: t) = words s ++ words t := by
  simp [words, splitWhen_append_cons h]

theorem words_cons_blank {c : Char} (h : isBlank c = true) (s : List Char) :
    words (c :: s) = words s := by
  simpa using words_append_cons h [] s

theorem words_eq_singleton {w : List Char} (hne : w ≠ []) (h : ∀ c ∈ w, isBlank c = false) :
    words w = [w] := by
  simp [words, splitWhen_eq_singleton h, hne]

end CurrencyDesk.Text
