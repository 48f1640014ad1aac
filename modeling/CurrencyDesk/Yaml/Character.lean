/-!
# Characters and lines of YAML

A document may hold the printable characters, the tab and the line breaks. Five characters
break a line, and a carriage return with a line feed is one break. All of them but the
separators of Unicode read as a line feed, and `unifyBreaks` makes them so before anything
else is read.

Key definitions: `isAllowed`, `isBreak`, `isBlank`, `startsBlank`, `unifyBreaks`, `Line`,
`lines`.
-/

namespace CurrencyDesk.Yaml

/-- Whether a document may hold a character. -/
def isAllowed (c : Char) : Bool :=
  let n := c.toNat
  n = 0x09 || n = 0x0A || n = 0x0D || (0x20 ≤ n && n ≤ 0x7E) || n = 0x85 ||
    (0xA0 ≤ n && n ≤ 0xD7FF) || (0xE000 ≤ n && n ≤ 0xFFFD) || 0x10000 ≤ n

/-- Writes each line break as a line feed, except for the separators of Unicode. -/
def unifyBreaks : List Char → List Char
  | [] => []
  | '\r' :: '\n' :: s => '\n' :: unifyBreaks s
  | c :: s => (if c = '\r' ∨ c = '\u0085' then '\n' else c) :: unifyBreaks s

/-- Whether a character breaks a line. -/
def isBreak (c : Char) : Bool :=
  c = '\n' || c = '\u2028' || c = '\u2029'

/-- Whether a character is a space or a tab. -/
def isBlank (c : Char) : Bool :=
  c = ' ' || c = '\t'

/-- Whether a text begins with a blank or a line break, or is over. -/
def startsBlank : List Char → Bool
  | [] => true
  | c :: _ => isBlank c || isBreak c

/-- Whether a text begins with a character that satisfies `p`. -/
def startsWith (p : Char → Bool) : List Char → Bool
  | [] => false
  | c :: _ => p c

/-- Whether a text, at the start of a line, marks the start or the end of a document. -/
def isDocumentMark (mark : Char) : List Char → Bool
  | a :: b :: c :: s => a = mark && b = mark && c = mark && startsBlank s
  | _ => false

/-- Whether a text, at the start of a line, is one of the marks of a document. -/
def atDocumentMark (s : List Char) : Bool :=
  isDocumentMark '-' s || isDocumentMark '.' s

/-- The characters of names of anchors, handles and directives. -/
def isNameChar (c : Char) : Bool :=
  c.isAlphanum || c = '_' || c = '-'

/-- A line of a text: what stands on it, the break behind it, and the text after that. -/
structure Line where
  text : List Char
  ending : Option Char
  after : List Char

/-- What stands behind the text of a line. -/
def Line.behind (line : Line) : List Char :=
  match line.ending with
  | some c => c :: line.after
  | none => []

/-- The lines of a text. -/
def lines : List Char → List Line
  | [] => []
  | c :: s =>
    if isBreak c then ⟨[], some c, s⟩ :: lines s
    else
      match lines s with
      | [] => [⟨[c], none, []⟩]
      | line :: rest => { line with text := c :: line.text } :: rest

end CurrencyDesk.Yaml
