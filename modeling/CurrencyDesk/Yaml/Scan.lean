import CurrencyDesk.Text.Utf8
import CurrencyDesk.Yaml.Scalar
/-!
# The tokens of a text

The reader goes through a text from token to token. It keeps the columns of the block
collections that are open, and for each flow collection, and around them all, the place of
a token that would be a key if a colon followed: on the same line and within 1024
characters. When the colon comes, the begin of the key is put in front of that token after
all, and the begin of a block mapping too if the key stands further in than the block
around it. A line that begins further out ends the blocks in between.

Key definitions: `Scanner`, `Scanner.token`, `Scanner.all`, `tokens`.
-/

namespace CurrencyDesk.Yaml

/-- The place of a token that may turn out to be a key: how many tokens stand before it,
and whether nothing but a key may stand there. -/
structure KeyPlace where
  number : Nat
  line : Nat
  column : Nat
  required : Bool

/-- A reader of tokens: the text that is left, the tokens so far, the last one first, the
columns of the open block collections, the places of possible keys, those of the innermost
collection first, and whether a key may begin here. -/
structure Scanner where
  cursor : Cursor
  found : List Token := []
  count : Nat := 0
  indent : Int := -1
  outer : List Int := []
  keys : List (Option KeyPlace) := [none]
  keyAllowed : Bool := true

namespace Scanner

/-- Whether the reader is inside a flow collection. -/
def inFlow (s : Scanner) : Bool :=
  s.keys.length != 1

/-- The reader with one more token. -/
def emit (s : Scanner) (token : Token) : Scanner :=
  { s with found := token :: s.found, count := s.count + 1 }

/-- The reader with one more token behind the first `number` ones. -/
def insertAt (s : Scanner) (number : Nat) (token : Token) : Scanner :=
  { s with found := s.found.insertIdx (s.count - number) token, count := s.count + 1 }

/-- Moves on to a place. -/
def move (s : Scanner) (cursor : Cursor) : Scanner :=
  { s with cursor := cursor }

/-- Moves on by characters that stand on one line. -/
def skip (s : Scanner) (n : Nat) : Scanner :=
  s.move ⟨s.cursor.rest.drop n, s.cursor.line, s.cursor.column + n⟩

/-- Moves on to a text that is left on the same line. -/
def skipTo (s : Scanner) (rest : List Char) : Scanner :=
  s.skip (s.cursor.rest.length - rest.length)

/-! ### Blocks -/

/-- Opens a block collection with the token if the column lies further in than the block
around it; the token goes behind the first `number` ones. -/
def openBlock (s : Scanner) (column number : Nat) (token : Token) : Scanner :=
  if !s.inFlow && decide (s.indent < column) then
    { s with indent := column, outer := s.indent :: s.outer }.insertAt number token
  else s

/-- Ends the block collections further in than a column, whose columns are given. -/
def endBlocks (column : Int) (s : Scanner) : List Int → Scanner
  | [] => s
  | indent :: outer =>
    if column < s.indent then
      endBlocks column ({ s with indent := indent, outer := outer }.emit .blockEnd) outer
    else s

/-- Ends the block collections further in than a column. -/
def closeBlocks (s : Scanner) (column : Int) : Scanner :=
  if s.inFlow then s else endBlocks column s s.outer

/-! ### Keys -/

/-- Forgets the possible key of the innermost collection; a required one has to be one. -/
def dropKey (s : Scanner) : Except Fault Scanner :=
  match s.keys with
  | some key :: rest =>
    if key.required then .error .keyWithoutValue else .ok { s with keys := none :: rest }
  | _ => .ok s

/-- Takes the next token for a possible key, if one may begin here. -/
def saveKey (s : Scanner) : Except Fault Scanner := do
  if !s.keyAllowed then return s
  let s ← s.dropKey
  let key : KeyPlace :=
    { number := s.count
      line := s.cursor.line
      column := s.cursor.column
      required := !s.inFlow && s.indent = s.cursor.column }
  return { s with keys := some key :: s.keys.drop 1 }

/-- A possible key that is still within reach. -/
def keepKey (line column : Nat) : Option KeyPlace → Except Fault (Option KeyPlace)
  | none => .ok none
  | some key =>
    if key.line < line ∨ key.column + 1024 < column then
      if key.required then .error .keyWithoutValue else .ok none
    else .ok (some key)

/-- Forgets the possible keys that are out of reach. -/
def ageKeys (s : Scanner) : Except Fault Scanner := do
  return { s with keys := ← s.keys.mapM (keepKey s.cursor.line s.cursor.column) }

/-! ### Between tokens -/

/-- Goes over blanks, comments and line breaks to the next token. Tabs count as blanks
where no key may begin. -/
def toToken (inFlow comment : Bool) (keyAllowed : Bool) (line column : Nat) :
    List Char → Cursor × Bool
  | [] => (⟨[], line, column⟩, keyAllowed)
  | c :: s =>
    if isBreak c then toToken inFlow false (keyAllowed || !inFlow) (line + 1) 0 s
    else if comment || c = ' ' || ((inFlow || !keyAllowed) && c = '\t') then
      toToken inFlow comment keyAllowed line (column + 1) s
    else if c = '#' then toToken inFlow true keyAllowed line (column + 1) s
    else (⟨c :: s, line, column⟩, keyAllowed)

/-! ### The kinds of tokens -/

/-- Ends all blocks, in front of a directive or a mark of a document. -/
def leaveBlocks (s : Scanner) : Except Fault Scanner := do
  return { ← (s.closeBlocks (-1)).dropKey with keyAllowed := false }

/-- Drops the rest of a line, which may only hold blanks and a comment. -/
def restOfLine (s : Scanner) : Except Fault Scanner :=
  let rest := dropComment s.cursor.rest
  if rest.isEmpty || startsWith isBreak rest then .ok (s.skipTo rest) else .error .directive

/-- Takes a natural number of at most nine digits off the front of a text. -/
def versionNumber (s : List Char) : Except Fault (Nat × List Char) :=
  let digits := s.takeWhile Char.isDigit
  if digits.isEmpty || 9 < digits.length then .error .directive
  else .ok (Nat.ofDigitChars 10 digits 0, s.drop digits.length)

/-- The characters of a tag, those of a name aside; `verbatim` ones may hold three more. -/
def isTagChar (verbatim : Bool) (c : Char) : Bool :=
  isNameChar c ||
    [';', '/', '?', ':', '@', '&', '=', '+', '$', '.', '%', '!', '~', '*', '\'', '(', ')'].contains
      c ||
    (verbatim && [',', '[', ']'].contains c)

/-- The length of the encoded character that a byte begins. -/
def encodedLength? (b : Nat) : Option Nat :=
  if b < 0x80 then some 1
  else if b < 0xC0 then none
  else if b < 0xE0 then some 2
  else if b < 0xF0 then some 3
  else if b < 0xF8 then some 4
  else none

/-- The bytes of a tag, in which an escape stands for one byte. A byte that does not go on
in a character has to begin one; `missing` ones are still to go on. -/
def tagBytes? (missing : Nat) : List Char → Option (List UInt8)
  | [] => if missing = 0 then some [] else none
  | '%' :: h :: l :: rest => do
    let b := 16 * (← Text.hexValue? h) + (← Text.hexValue? l)
    let missing ←
      if missing = 0 then (encodedLength? b).map (· - 1)
      else if b / 64 = 2 then some (missing - 1)
      else none
    return UInt8.ofNat b :: (← tagBytes? missing rest)
  | c :: rest =>
    if c = '%' ∨ missing ≠ 0 then none
    else (tagBytes? 0 rest).map (UInt8.ofNat c.toNat :: ·)

/-- Takes the characters of a tag off the front of a text. -/
def tagText (verbatim : Bool) (s : List Char) : Except Fault (List Char × List Char) :=
  let text := s.takeWhile (isTagChar verbatim)
  match tagBytes? 0 text with
  | some bytes => .ok (Text.Utf8.decodeLossy bytes, s.drop text.length)
  | none => .error .tag

/-- Takes a handle off the front of a text: an exclamation mark, and a name with another
one behind it, if they are there. -/
def tagHandle (s : List Char) : List Char × List Char :=
  let name := (s.drop 1).takeWhile isNameChar
  let rest := s.drop (1 + name.length)
  if startsWith (· = '!') rest then ('!' :: name ++ ['!'], rest.drop 1) else ('!' :: name, rest)

/-- Reads a directive; the reader stands behind the percent sign. -/
def directive (s : Scanner) : Except Fault Scanner := do
  let name := s.cursor.rest.takeWhile isNameChar
  let rest := s.cursor.rest.drop name.length
  if !startsBlank rest then throw .directive
  let arguments := rest.dropWhile isBlank
  if name = "YAML".toList then
    let (major, rest) ← versionNumber arguments
    if !startsWith (· = '.') rest then throw .directive
    let (minor, rest) ← versionNumber (rest.drop 1)
    ((s.emit (.versionDirective major minor)).skipTo rest).restOfLine
  else if name = "TAG".toList then
    if !startsWith (· = '!') arguments then throw .directive
    let (handle, rest) := tagHandle arguments
    if handle ≠ ['!'] && handle.getLast? ≠ some '!' then throw .directive
    if !startsWith isBlank rest then throw .directive
    let (start, rest) ← tagText true (rest.dropWhile isBlank)
    if start.isEmpty || !startsBlank rest then throw .directive
    ((s.emit (.tagDirective handle start)).skipTo rest).restOfLine
  else throw .directive

/-- Reads the name of an anchor or an alias; the reader stands behind the indicator. -/
def named (s : Scanner) (token : List Char → Token) : Except Fault Scanner := do
  let name := s.cursor.rest.takeWhile isNameChar
  let rest := s.cursor.rest.drop name.length
  let ended := startsBlank rest ||
    startsWith (fun c => ['?', ':', ',', ']', '}', '%', '@', '`'].contains c) rest
  if name.isEmpty || !ended then throw .anchor
  return (s.emit (token name)).skipTo rest

/-- Reads a tag; the reader stands at its exclamation mark. -/
def tag (s : Scanner) : Except Fault Scanner := do
  let text := s.cursor.rest
  let (token, rest) ←
    if startsWith (· = '<') (text.drop 1) then do
      let (suffix, rest) ← tagText true (text.drop 2)
      if suffix.isEmpty || !startsWith (· = '>') rest then throw .tag
      pure (Token.tag [] suffix, rest.drop 1)
    else do
      let (handle, rest) := tagHandle text
      let (suffix, rest) ← tagText false rest
      if handle.length ≠ 1 && handle.getLast? = some '!' then
        if suffix.isEmpty then throw .tag
        pure (Token.tag handle suffix, rest)
      else
        let suffix := handle.drop 1 ++ suffix
        pure (if suffix.isEmpty then Token.tag [] ['!'] else Token.tag ['!'] suffix, rest)
  if !startsBlank rest && !(s.inFlow && startsWith (· = ',') rest) then throw .tag
  return (s.emit token).skipTo rest

/-- Emits a scalar and moves behind it. -/
def scalar (s : Scanner) (style : ScalarStyle) (read : ScalarRead) : Scanner :=
  (s.emit (.scalar style read.text)).move read.after

/-- Reads a plain scalar. -/
def plain (s : Scanner) : Except Fault Scanner := do
  let s := { ← s.saveKey with keyAllowed := false }
  let read ← readPlain s.inFlow (s.indent + 1) s.cursor.line s.cursor.column .empty s.cursor.rest
  return { s.scalar .plain read with keyAllowed := read.endsLine }

/-- Reads a scalar in quotes; the reader stands at the first one. -/
def quoted (s : Scanner) (double : Bool) : Except Fault Scanner := do
  let s := { ← s.saveKey with keyAllowed := false }.skip 1
  let c := s.cursor
  if double then
    return s.scalar .doubleQuoted (← readDoubleQuoted c.line c.column .empty .outside c.rest)
  else
    return s.scalar .singleQuoted (← readSingleQuoted c.line c.column .empty false c.rest)

/-- Reads a scalar in a block; the reader stands at its indicator. -/
def block (s : Scanner) (folded : Bool) : Except Fault Scanner := do
  let s := { ← s.dropKey with keyAllowed := true }.skip 1
  let read ← readBlock folded s.indent s.cursor.line s.cursor.rest
  return s.scalar (if folded then .folded else .literal) read

/-- Opens a flow collection. -/
def openFlow (s : Scanner) (token : Token) : Except Fault Scanner := do
  let s ← s.saveKey
  return ({ s with keys := none :: s.keys, keyAllowed := true }.emit token).skip 1

/-- Ends a flow collection. -/
def closeFlow (s : Scanner) (token : Token) : Except Fault Scanner := do
  let s ← s.dropKey
  let keys := if s.inFlow then s.keys.drop 1 else s.keys
  return ({ s with keys := keys, keyAllowed := false }.emit token).skip 1

/-- Reads the comma between the entries of a flow collection. -/
def flowEntry (s : Scanner) : Except Fault Scanner := do
  return ({ ← s.dropKey with keyAllowed := true }.emit .flowEntry).skip 1

/-- Opens a block collection at this place, where one may begin. -/
def openHere (s : Scanner) (token : Token) : Except Fault Scanner :=
  if s.inFlow then .ok s
  else if s.keyAllowed then .ok (s.openBlock s.cursor.column s.count token)
  else .error .misplaced

/-- Reads the dash of an entry of a block sequence. -/
def blockEntry (s : Scanner) : Except Fault Scanner := do
  let s ← s.openHere .blockSequenceStart
  return ({ ← s.dropKey with keyAllowed := true }.emit .blockEntry).skip 1

/-- Reads the question mark of a key. -/
def key (s : Scanner) : Except Fault Scanner := do
  let s ← s.openHere .blockMappingStart
  let s ← s.dropKey
  return ({ s with keyAllowed := !s.inFlow }.emit .key).skip 1

/-- Reads the colon behind a key. -/
def value (s : Scanner) : Except Fault Scanner := do
  match s.keys with
  | some key :: rest =>
    let s := s.insertAt key.number .key
    let s := s.openBlock key.column key.number .blockMappingStart
    return ({ s with keys := none :: rest, keyAllowed := false }.emit .value).skip 1
  | _ =>
    let s ← s.openHere .blockMappingStart
    return ({ s with keyAllowed := !s.inFlow }.emit .value).skip 1

/-- The characters that begin no plain scalar by themselves. -/
def indicators : List Char :=
  ['-', '?', ':', ',', '[', ']', '{', '}', '#', '&', '*', '!', '|', '>', '\'', '"', '%', '@', '`']

/-- Reads the token that begins at the place of the reader. -/
def token (s : Scanner) (c : Char) (rest : List Char) : Except Fault Scanner := do
  let atStart := s.cursor.column = 0
  if atStart && c = '%' then (← (s.skip 1).leaveBlocks).directive
  else if atStart && isDocumentMark '-' (c :: rest) then
    return ((← s.leaveBlocks).emit .documentStart).skip 3
  else if atStart && isDocumentMark '.' (c :: rest) then
    return ((← s.leaveBlocks).emit .documentEnd).skip 3
  else if c = '[' then s.openFlow .flowSequenceStart
  else if c = '{' then s.openFlow .flowMappingStart
  else if c = ']' then s.closeFlow .flowSequenceEnd
  else if c = '}' then s.closeFlow .flowMappingEnd
  else if c = ',' then s.flowEntry
  else if c = '-' && startsBlank rest then s.blockEntry
  else if c = '?' && (s.inFlow || startsBlank rest) then s.key
  else if c = ':' && (s.inFlow || startsBlank rest) then s.value
  else if c = '*' then ({ ← s.saveKey with keyAllowed := false }.skip 1).named .alias
  else if c = '&' then ({ ← s.saveKey with keyAllowed := false }.skip 1).named .anchor
  else if c = '!' then ({ ← s.saveKey with keyAllowed := false }).tag
  else if c = '|' && !s.inFlow then s.block false
  else if c = '>' && !s.inFlow then s.block true
  else if c = '\'' then s.quoted false
  else if c = '"' then s.quoted true
  else if !(isBlank c || indicators.contains c) || (c = '-' && !startsWith isBlank rest) ||
      (!s.inFlow && (c = '?' || c = ':') && !startsBlank rest) then s.plain
  else throw .misplaced

/-- Ends the text: all blocks end. -/
def finish (s : Scanner) : Except Fault Scanner :=
  (s.closeBlocks (-1)).dropKey

/-- Reads up to `fuel` tokens, which is to be more than there are. -/
def all : (fuel : Nat) → Scanner → Except Fault Scanner
  | 0, s => .ok s
  | fuel + 1, s => do
    let (cursor, keyAllowed) :=
      toToken s.inFlow false s.keyAllowed s.cursor.line s.cursor.column s.cursor.rest
    let s ← ({ s with keyAllowed := keyAllowed }.move cursor).ageKeys
    let s := s.closeBlocks s.cursor.column
    match s.cursor.rest with
    | [] => s.finish
    | c :: rest => all fuel (← s.token c rest)

end Scanner

/-- The tokens of a text. A byte order mark in front of it takes up a column and is not
part of it. -/
def tokens (text : List Char) : Except Fault (List Token) := do
  if !text.all isAllowed then throw .character
  let text := unifyBreaks text
  let start : Cursor :=
    match text with
    | '\uFEFF' :: rest => ⟨rest, 0, 1⟩
    | _ => ⟨text, 0, 0⟩
  return (← Scanner.all (text.length + 1) { cursor := start }).found.reverse

end CurrencyDesk.Yaml
