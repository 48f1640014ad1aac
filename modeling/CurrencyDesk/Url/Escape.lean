import CurrencyDesk.Text.Hexadecimal
import CurrencyDesk.Text.Utf8
/-!
# Escapes in URLs

A character that a part of a URL cannot hold as it is stands there as the bytes of its
encoding, each as a percent sign with two digits. Which characters these are differs from
part to part; the control characters and all beyond ASCII are among them everywhere. A
percent sign without two digits stands for itself, so a text is read back as it was if its
percent signs were escaped, too.

Key definitions: `escape`, `unescape`, `isPathEscaped`, `isSegmentEscaped`, `isQueryEscaped`.
Key theorems: `unescape_escape`.
-/

namespace CurrencyDesk.Url

/-- Whether a character is escaped in every part of a URL. -/
def isControl (c : Char) : Bool :=
  c.toNat < 0x20 || 0x7F ≤ c.toNat

/-- Whether a character is escaped in a fragment. -/
def isFragmentEscaped (c : Char) : Bool :=
  isControl c || [' ', '"', '<', '>', '\x60'].contains c

/-- Whether a character is escaped in a path that is given as a whole. -/
def isPathEscaped (c : Char) : Bool :=
  isFragmentEscaped c || ['#', '?', '\x7b', '\x7d'].contains c

/-- Whether a character is escaped in a user name or a password. -/
def isUserEscaped (c : Char) : Bool :=
  isPathEscaped c || ['/', ':', ';', '=', '@', '[', '\\', ']', '^', '|'].contains c

/-- Whether a character is escaped in a segment that is put on a path; a backslash is, where
it would part segments. -/
def isSegmentEscaped (special : Bool) (c : Char) : Bool :=
  isPathEscaped c || c = '/' || c = '%' || (special && c = '\\')

/-- Whether a character is escaped in a query. -/
def isQueryEscaped (special : Bool) (c : Char) : Bool :=
  isControl c || [' ', '"', '#', '<', '>'].contains c || (special && c = '\'')

/-- A byte as an escape. -/
def escapeByte (b : UInt8) : List Char :=
  ['%', Text.capitalHexDigit (b.toNat / 16), Text.capitalHexDigit (b.toNat % 16)]

/-- A text with escapes for the characters that satisfy `p`. -/
def escape (p : Char → Bool) (s : List Char) : List Char :=
  s.flatMap fun c => if p c then (String.utf8EncodeChar c).flatMap escapeByte else [c]

/-- The bytes of a text, with those that escapes stand for. -/
def unescape : List Char → List UInt8
  | [] => []
  | '%' :: a :: b :: s =>
    match Text.hexValue? a, Text.hexValue? b with
    | some high, some low => UInt8.ofNat (16 * high + low) :: unescape s
    | _, _ => 0x25 :: unescape (a :: b :: s)
  | c :: s => String.utf8EncodeChar c ++ unescape s

theorem unescape_cons {c : Char} (h : c ≠ '%') (s : List Char) :
    unescape (c :: s) = String.utf8EncodeChar c ++ unescape s := by
  rw [unescape]
  intro _ _ _ hc
  exact absurd hc h

theorem unescape_escapeByte (b : UInt8) (s : List Char) :
    unescape (escapeByte b ++ s) = b :: unescape s := by
  have hb := b.toNat_lt
  have hhigh := Text.hexValue?_capitalHexDigit (n := b.toNat / 16) (by omega)
  have hlow := Text.hexValue?_capitalHexDigit (n := b.toNat % 16) (by omega)
  simp only [escapeByte, List.cons_append, List.nil_append, unescape, hhigh, hlow]
  rw [Nat.div_add_mod, UInt8.ofNat_toNat]

theorem unescape_escapeBytes (bytes : List UInt8) (s : List Char) :
    unescape (bytes.flatMap escapeByte ++ s) = bytes ++ unescape s := by
  induction bytes with
  | nil => rfl
  | cons b bytes ih => simp [unescape_escapeByte, ih]

/-- Escapes are read back as the text that they stand for, if percent signs are escaped. -/
theorem unescape_escape {p : Char → Bool} (h : p '%' = true) (s : List Char) :
    unescape (escape p s) = Text.Utf8.encode s := by
  induction s with
  | nil => rfl
  | cons c s ih =>
    by_cases hc : p c = true
    · simpa [escape, hc, Text.Utf8.encode, unescape_escapeBytes] using ih
    · have hne : c ≠ '%' := fun e => hc (e ▸ h)
      simpa [escape, hc, Text.Utf8.encode, unescape_cons hne] using ih

end CurrencyDesk.Url
