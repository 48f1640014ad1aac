import CurrencyDesk.Json.Number
/-!
# Reading JSON

A document is read into lexemes first: strings, signs and words, with blanks between them.
A word is whatever stands between blanks, signs and strings, and has to be a literal or a
numeral. The lexemes then make up one value, with fewer than `depthLimit` collections around
any other.

In a string a backslash stands in front of a letter for a character; the two code units of
a character beyond the first plane are written side by side, and one alone is no character.

Key definitions: `Lexeme`, `lexemes?`, `Json.parse?`.
-/

namespace CurrencyDesk.Json

/-- The pieces of a document. -/
inductive Lexeme where
  | sign (c : Char)
  | string (s : List Char)
  | word (s : List Char)
deriving DecidableEq

/-- The signs of a document. -/
def isSign (c : Char) : Bool :=
  ['{', '}', '[', ']', ':', ','].contains c

/-- The blanks of a document. -/
def isBlank (c : Char) : Bool :=
  c = ' ' || c = '\n' || c = '\t' || c = '\r'

/-- The characters that a backslash and one letter stand for. -/
def escapes : List (Char × Char) :=
  [('"', '"'), ('\\', '\\'), ('/', '/'), ('b', '\x08'), ('f', '\x0C'), ('n', '\n'), ('r', '\r'),
   ('t', '\t')]

/-- Where the reader of a string stands: among characters, behind a backslash, or in the
digits of a code unit; a leading unit waits for the other one, as a second backslash and a
second letter. -/
inductive Place where
  | plain
  | escape
  | unit (leading : Option Nat) (digits value : Nat)
  | pair (leading : Nat)
  | pairEscape (leading : Nat)

/-- What a code unit completes: the character that it is, by itself or with the leading
unit before it, or nothing yet. -/
def endUnit (leading : Option Nat) (unit : Nat) : Option (List Char × Place) :=
  match leading with
  | none =>
    if 0xD800 ≤ unit ∧ unit < 0xDC00 then some ([], .pair unit)
    else if unit.isValidChar then some ([Char.ofNat unit], .plain)
    else none
  | some high =>
    if 0xDC00 ≤ unit ∧ unit < 0xE000 then
      some ([Char.ofNat (0x10000 + (high - 0xD800) * 0x400 + (unit - 0xDC00))], .plain)
    else none

/-- Reads one character of a string. -/
def stringStep (place : Place) (c : Char) : Option (List Char × Place) :=
  match place with
  | .plain =>
    if c = '\\' then some ([], .escape) else if c.toNat < 0x20 then none else some ([c], .plain)
  | .escape =>
    if c = 'u' then some ([], .unit none 4 0)
    else (escapes.lookup c).map fun d => ([d], .plain)
  | .unit leading digits value =>
    match Text.hexValue? c with
    | none => none
    | some digit =>
      let value := value * 16 + digit
      if digits ≤ 1 then endUnit leading value else some ([], .unit leading (digits - 1) value)
  | .pair leading => if c = '\\' then some ([], .pairEscape leading) else none
  | .pairEscape leading => if c = 'u' then some ([], .unit (some leading) 4 0) else none

/-- Whether a string may end at a place. -/
def Place.isPlain : Place → Bool
  | .plain => true
  | _ => false

/-- Ends a word, if there is one. -/
def endWord (word : List Char) (rest : List Lexeme) : List Lexeme :=
  if word.isEmpty then rest else .word word :: rest

mutual

/-- The lexemes of a text, behind the part of a word. -/
def lexemesFrom (word : List Char) : List Char → Option (List Lexeme)
  | [] => some (endWord word [])
  | c :: s =>
    if c = '"' then (stringFrom .plain [] s).map (endWord word)
    else if isSign c then (lexemesFrom [] s).map fun rest => endWord word (.sign c :: rest)
    else if isBlank c then (lexemesFrom [] s).map (endWord word)
    else lexemesFrom (word ++ [c]) s

/-- The lexemes of a text, inside a string. -/
def stringFrom (place : Place) (text : List Char) : List Char → Option (List Lexeme)
  | [] => none
  | c :: s =>
    if c = '"' && place.isPlain then (lexemesFrom [] s).map (.string text :: ·)
    else
      match stringStep place c with
      | none => none
      | some (more, place) => stringFrom place (text ++ more) s

end

/-- The lexemes of a text. -/
def lexemes? (s : List Char) : Option (List Lexeme) :=
  lexemesFrom [] s

/-- The value that a word stands for. -/
def ofWord? (word : List Char) : Option Json :=
  if word = "null".toList then some .null
  else if word = "true".toList then some (.bool true)
  else if word = "false".toList then some (.bool false)
  else (Number.ofWord? word).map .number

/-- So many collections around a value are too many. -/
def depthLimit : Nat := 128

mutual

/-- Reads a value; `depth` more collections are too many. -/
def value? (depth : Nat) : (fuel : Nat) → List Lexeme → Option (Json × List Lexeme)
  | 0, _ => none
  | fuel + 1, lexemes =>
    match lexemes with
    | .string s :: rest => some (.string s, rest)
    | .word w :: rest => (ofWord? w).map (·, rest)
    | .sign '[' :: .sign ']' :: rest => if depth ≤ 1 then none else some (.array [], rest)
    | .sign '[' :: rest =>
      if depth ≤ 1 then none
      else (items? (depth - 1) fuel rest).map fun (items, rest) => (.array items, rest)
    | .sign '{' :: .sign '}' :: rest => if depth ≤ 1 then none else some (.object [], rest)
    | .sign '{' :: rest =>
      if depth ≤ 1 then none
      else (members? (depth - 1) fuel rest).map fun (members, rest) => (.object members, rest)
    | _ => none

/-- Reads the items of an array to its end; there is one at least. -/
def items? (depth : Nat) : (fuel : Nat) → List Lexeme → Option (List Json × List Lexeme)
  | 0, _ => none
  | fuel + 1, lexemes =>
    match value? depth fuel lexemes with
    | some (item, .sign ',' :: rest) =>
      (items? depth fuel rest).map fun (items, rest) => (item :: items, rest)
    | some (item, .sign ']' :: rest) => some ([item], rest)
    | _ => none

/-- Reads the members of an object to its end; there is one at least. -/
def members? (depth : Nat) :
    (fuel : Nat) → List Lexeme → Option (List (List Char × Json) × List Lexeme)
  | 0, _ => none
  | fuel + 1, lexemes =>
    match lexemes with
    | .string name :: .sign ':' :: rest =>
      match value? depth fuel rest with
      | some (value, .sign ',' :: rest) =>
        (members? depth fuel rest).map fun (members, rest) => ((name, value) :: members, rest)
      | some (value, .sign '}' :: rest) => some ([(name, value)], rest)
      | _ => none
    | _ => none

end

/-- The value that lexemes make up. -/
def ofLexemes? (lexemes : List Lexeme) : Option Json :=
  match value? depthLimit (lexemes.length + 1) lexemes with
  | some (value, []) => some value
  | _ => none

/-- Reads a text that is one JSON document. -/
def parse? (s : List Char) : Option Json :=
  (lexemes? s).bind ofLexemes?

end CurrencyDesk.Json
