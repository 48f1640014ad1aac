import CurrencyDesk.Text.Hexadecimal
import CurrencyDesk.Yaml.Character
import CurrencyDesk.Yaml.Token
/-!
# Scalars of YAML

A scalar that is plain or in quotes may go on over several lines. What stands between two
of its characters that are not blank is a gap: blanks on one line, which belong to the
scalar, or line breaks with the blanks around them, which fold into a space, or into the
breaks behind the first one. A scalar in a block keeps its lines, without the indentation;
in a folded one a single break between two lines that do not begin with a blank becomes a
space. All readers here take the text behind the first indicator, with the line and the
column they stand at, and return the scalar with the text that is left.

Key definitions: `Gap`, `readPlain`, `readSingleQuoted`, `readDoubleQuoted`, `readBlock`.
-/

namespace CurrencyDesk.Yaml

/-- A place in a text: what is left of it, and where that begins. -/
structure Cursor where
  rest : List Char
  line : Nat
  column : Nat

/-- A scalar that was read, and the place behind it. -/
structure ScalarRead where
  text : List Char
  after : Cursor
  /-- Whether line breaks stand between the scalar and the place behind it. -/
  endsLine : Bool := false

/-- A scalar that begins with a text and goes on as the rest of it is read. -/
def behind (start : List Char) (rest : Except Fault ScalarRead) : Except Fault ScalarRead :=
  rest.map fun read => { read with text := start ++ read.text }

/-- What stands between two characters of a scalar that are not blank. -/
inductive Gap where
  | blanks (found : List Char)
  | breaks (first : Option Char) (more : List Char)

namespace Gap

/-- No gap. -/
def empty : Gap := .blanks []

/-- The gap with one more blank. -/
def addBlank (c : Char) : Gap → Gap
  | .blanks found => .blanks (found ++ [c])
  | gap => gap

/-- The gap with one more line break. -/
def addBreak (c : Char) : Gap → Gap
  | .blanks _ => .breaks (some c) []
  | .breaks first more => .breaks first (more ++ [c])

/-- Whether the gap goes over the end of a line. -/
def isBreaks : Gap → Bool
  | .blanks _ => false
  | .breaks .. => true

/-- What a gap contributes to the scalar. -/
def text : Gap → List Char
  | .blanks found => found
  | .breaks none more => more
  | .breaks (some c) more => if c = '\n' then (if more.isEmpty then [' '] else more) else c :: more

end Gap

/-- The characters that end a plain scalar inside a flow collection. -/
def endsFlowPlain (c : Char) : Bool :=
  c = ',' || c = '[' || c = ']' || c = '{' || c = '}'

/-- Reads on in a plain scalar; `inFlow` tells whether it stands in a flow collection, and
`indent` is the least column that a further line may begin at. -/
def readPlain (inFlow : Bool) (indent : Int) (line column : Nat) (gap : Gap) :
    List Char → Except Fault ScalarRead
  | [] => .ok ⟨[], ⟨[], line, column⟩, gap.isBreaks⟩
  | c :: s =>
    let ended : ScalarRead := ⟨[], ⟨c :: s, line, column⟩, gap.isBreaks⟩
    if isBlank c then
      if gap.isBreaks && decide ((column : Int) < indent) && c = '\t' then .error .tabIndentation
      else readPlain inFlow indent line (column + 1) (gap.addBlank c) s
    else if isBreak c then readPlain inFlow indent (line + 1) 0 (gap.addBreak c) s
    else if gap.isBreaks && !inFlow && decide ((column : Int) < indent) then .ok ended
    else if column = 0 && atDocumentMark (c :: s) then .ok ended
    else if c = '#' && !gap.text.isEmpty then .ok ended
    else if inFlow && c = ':' && startsWith (fun d => endsFlowPlain d || d = '?') s then
      .error .misplaced
    else if (c = ':' && startsBlank s) || (inFlow && endsFlowPlain c) then .ok ended
    else behind (gap.text ++ [c]) (readPlain inFlow indent line (column + 1) .empty s)

/-- Reads on in a scalar in single quotes; `quote` tells whether the last character was a
quote, which ends the scalar unless another one follows. -/
def readSingleQuoted (line column : Nat) (gap : Gap) (quote : Bool) :
    List Char → Except Fault ScalarRead
  | [] => if quote then .ok ⟨[], ⟨[], line, column⟩, false⟩ else .error .unclosed
  | c :: s =>
    if quote then
      if c = '\'' then behind ['\''] (readSingleQuoted line (column + 1) .empty false s)
      else .ok ⟨[], ⟨c :: s, line, column⟩, false⟩
    else if isBlank c then readSingleQuoted line (column + 1) (gap.addBlank c) false s
    else if isBreak c then readSingleQuoted (line + 1) 0 (gap.addBreak c) false s
    else if column = 0 && atDocumentMark (c :: s) then .error .misplaced
    else if c = '\'' then behind gap.text (readSingleQuoted line (column + 1) .empty true s)
    else behind (gap.text ++ [c]) (readSingleQuoted line (column + 1) .empty false s)

/-- Where the reader of a scalar in double quotes stands: in the text, behind a backslash,
or in the digits of a character code. -/
inductive Escape where
  | outside
  | begun
  | code (digits value : Nat)

/-- The characters that a backslash and one letter stand for. -/
def escapes : List (Char × Char) :=
  [('0', '\x00'), ('a', '\x07'), ('b', '\x08'), ('t', '\t'), ('\t', '\t'), ('n', '\n'),
   ('v', '\x0B'), ('f', '\x0C'), ('r', '\r'), ('e', '\x1B'), (' ', ' '), ('"', '"'), ('/', '/'),
   ('\\', '\\'), ('N', '\u0085'), ('_', '\u00A0'), ('L', '\u2028'), ('P', '\u2029')]

/-- The number of digits behind the letters that begin a character code. -/
def codeLengths : List (Char × Nat) :=
  [('x', 2), ('u', 4), ('U', 8)]

/-- Reads on in a scalar in double quotes. -/
def readDoubleQuoted (line column : Nat) (gap : Gap) (escape : Escape) :
    List Char → Except Fault ScalarRead
  | [] => .error .unclosed
  | c :: s =>
    match escape with
    | .code digits value =>
      match Text.hexValue? c with
      | none => .error .escape
      | some digit =>
        let value := value * 16 + digit
        if digits ≤ 1 then
          if value.isValidChar then
            behind [Char.ofNat value] (readDoubleQuoted line (column + 1) .empty .outside s)
          else .error .escape
        else readDoubleQuoted line (column + 1) .empty (.code (digits - 1) value) s
    | .begun =>
      if isBreak c then readDoubleQuoted (line + 1) 0 (.breaks none []) .outside s
      else
        match codeLengths.lookup c with
        | some digits => readDoubleQuoted line (column + 1) .empty (.code digits 0) s
        | none =>
          match escapes.lookup c with
          | some d => behind [d] (readDoubleQuoted line (column + 1) .empty .outside s)
          | none => .error .escape
    | .outside =>
      if isBlank c then readDoubleQuoted line (column + 1) (gap.addBlank c) .outside s
      else if isBreak c then readDoubleQuoted (line + 1) 0 (gap.addBreak c) .outside s
      else if column = 0 && atDocumentMark (c :: s) then .error .misplaced
      else if c = '"' then .ok ⟨gap.text, ⟨s, line, column + 1⟩, false⟩
      else if c = '\\' then
        behind gap.text (readDoubleQuoted line (column + 1) .empty .begun s)
      else behind (gap.text ++ [c]) (readDoubleQuoted line (column + 1) .empty .outside s)

/-! ### Scalars in a block -/

/-- What becomes of the line breaks at the end of a scalar in a block. -/
inductive Chomping where
  | strip
  | clip
  | keep
deriving DecidableEq

/-- The indicators of a scalar in a block: what to do with the breaks at its end, and the
depth of its indentation, zero if it is to be found out. -/
structure BlockHeader where
  chomping : Chomping := .clip
  increment : Nat := 0

/-- The chomping that a character stands for. -/
def chomping? (c : Char) : Option Chomping :=
  if c = '+' then some .keep else if c = '-' then some .strip else none

/-- Takes the indicators of a scalar in a block off the front of a text: one of each kind
at most, in either order, and no indentation of zero. -/
def readHeader : List Char → Except Fault (BlockHeader × List Char)
  | [] => .ok ({}, [])
  | c :: s =>
    match chomping? c with
    | some chomping =>
      match s with
      | d :: t =>
        if d = '0' then .error .misplaced
        else if d.isDigit then .ok (⟨chomping, d.toNat - 48⟩, t)
        else .ok (⟨chomping, 0⟩, s)
      | [] => .ok (⟨chomping, 0⟩, [])
    | none =>
      if c = '0' then .error .misplaced
      else if c.isDigit then
        match s with
        | d :: t =>
          match chomping? d with
          | some chomping => .ok (⟨chomping, c.toNat - 48⟩, t)
          | none => .ok (⟨.clip, c.toNat - 48⟩, s)
        | [] => .ok (⟨.clip, c.toNat - 48⟩, [])
      else .ok ({}, c :: s)

/-- Drops blanks and a comment from the front of a text. -/
def dropComment (s : List Char) : List Char :=
  let rest := s.dropWhile isBlank
  if startsWith (· = '#') rest then rest.dropWhile (!isBreak ·) else rest

/-- Where the reader of a scalar in a block stands between two lines: the break behind the
last line, the breaks of the empty lines behind that, and whether the last line begins with a
blank. -/
structure BlockGap where
  lastBreak : List Char := []
  emptyBreaks : List Char := []
  blankLine : Bool := false

namespace BlockGap

/-- The gap with one more empty line. -/
def addEmpty (g : BlockGap) (ending : Char) : BlockGap :=
  { g with emptyBreaks := g.emptyBreaks ++ [ending] }

/-- What a gap in front of a line contributes to the scalar. -/
def text (g : BlockGap) (folded : Bool) (content : List Char) : List Char :=
  if folded && g.lastBreak = ['\n'] && !g.blankLine && !startsWith isBlank content then
    if g.emptyBreaks.isEmpty then [' '] else g.emptyBreaks
  else g.lastBreak ++ g.emptyBreaks

/-- What a gap at the end of the scalar contributes to it. -/
def ending (g : BlockGap) : Chomping → List Char
  | .strip => []
  | .clip => g.lastBreak
  | .keep => g.lastBreak ++ g.emptyBreaks

end BlockGap

/-- The number of spaces at the begin of a line. -/
def leadingSpaces (text : List Char) : Nat :=
  (text.takeWhile (· = ' ')).length

/-- The indentation of a scalar in a block that begins with these lines: the most spaces of
the empty lines and of the first other one, and at least `least`. -/
def findIndent (least : Nat) : List Line → Nat
  | [] => least
  | line :: rest =>
    let spaces := leadingSpaces line.text
    if spaces = line.text.length && line.ending.isSome then findIndent (max least spaces) rest
    else max least spaces

/-- Reads the lines of a scalar in a block with an indentation. While `searching` for the
first line that is not empty, no line before it may have a tab behind its spaces. -/
def readLines (folded : Bool) (chomping : Chomping) (indent : Nat) (number : Nat) (gap : BlockGap)
    (searching : Bool) : List Line → Except Fault ScalarRead
  | [] => .ok ⟨gap.ending chomping, ⟨[], number, 0⟩, false⟩
  | line :: rest =>
    let spaces := min (leadingSpaces line.text) indent
    let content := line.text.drop spaces
    if (searching || decide (spaces < indent)) && startsWith (· = '\t') content then
      .error .tabIndentation
    else if content.isEmpty then
      match line.ending with
      | some c =>
        readLines folded chomping indent (number + 1) (gap.addEmpty c) searching rest
      | none => .ok ⟨gap.ending chomping, ⟨[], number, spaces⟩, false⟩
    else if spaces < indent then
      .ok ⟨gap.ending chomping, ⟨content ++ line.behind, number, spaces⟩, false⟩
    else
      let next : BlockGap := ⟨line.ending.toList, [], startsWith isBlank content⟩
      behind (gap.text folded content ++ content) <|
        if line.ending.isSome then readLines folded chomping indent (number + 1) next false rest
        else .ok ⟨next.ending chomping, ⟨[], number, line.text.length⟩, false⟩

/-- Reads a scalar in a block behind its indicator; `outer` is the indentation around it. -/
def readBlock (folded : Bool) (outer : Int) (line : Nat) (s : List Char) :
    Except Fault ScalarRead := do
  let (header, rest) ← readHeader s
  let rest := dropComment rest
  match rest with
  | [] => return ⟨[], ⟨[], line, 1⟩, false⟩
  | c :: body =>
    if !isBreak c then throw .misplaced
    let ls := lines body
    let indent :=
      if header.increment = 0 then findIndent (max (outer + 1) 1).toNat ls
      else (max outer 0).toNat + header.increment
    readLines folded header.chomping indent (line + 1) {} (header.increment = 0) ls

end CurrencyDesk.Yaml
