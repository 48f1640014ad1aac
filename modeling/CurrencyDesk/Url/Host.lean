import CurrencyDesk.Power
import CurrencyDesk.Text.Blank
import CurrencyDesk.Text.Case
import CurrencyDesk.Text.Hexadecimal
import CurrencyDesk.Url.Basic
import CurrencyDesk.Url.Escape
/-!
# Hosts of URLs

In brackets stands an address of eight 16-bit pieces. Without them, and under a special
scheme, a host is a name that is read without regard to letter case and to escapes. A name
whose last label is a number is an address of four bytes: it has at most four numbers, of
which the last one fills what the others leave. Under any other scheme a name is kept as it
is.

Key definitions: `Host.ofSpecial?`, `Host.ofOther?`, `Host.address4?`, `Host.pieces?`.
-/

namespace CurrencyDesk.Host

attribute [local instance] corePow

/-! ### Addresses of four bytes -/

/-- The number that a label of a name writes, in base 16 or 8 where it begins like that. -/
def number? (label : List Char) : Option Nat :=
  let (base, digits) : Nat × List Char :=
    match label with
    | '0' :: 'x' :: s => (16, s)
    | '0' :: c :: s => (8, c :: s)
    | s => (10, s)
  if label.isEmpty then none
  else
    (digits.mapM fun c => (Text.hexValue? c).filter (decide <| · < base)).map
      fun values => values.foldl (fun n value => base * n + value) 0

/-- The labels of a name, without an empty one at its end. -/
def labels (name : List Char) : List (List Char) :=
  let parts := Text.splitWhen (· = '.') name
  if 1 < parts.length && parts.getLast? = some [] then parts.dropLast else parts

/-- Whether the last label of a name is a number. -/
def endsInNumber (name : List Char) : Bool :=
  match (labels name).getLast? with
  | some label => (!label.isEmpty && label.all Char.isDigit) || (number? label).isSome
  | none => false

/-- The address that a name with a number for its last label writes. -/
def address4? (name : List Char) : Option Nat := do
  let numbers ← (labels name).mapM number?
  let last ← numbers.getLast?
  let others := numbers.dropLast
  if numbers.length ≤ 4 ∧ (∀ n ∈ others, n < 256) ∧ last < 256 ^ (4 - others.length) then
    some (others.zipIdx.foldl (fun value (n, place) => value + n * 256 ^ (3 - place)) last)
  else none

/-! ### Addresses of eight pieces -/

/-- The piece that one to four hexadecimal digits write. -/
def piece? (s : List Char) : Option Nat :=
  if s.isEmpty || 4 < s.length then none
  else (s.mapM Text.hexValue?).map fun values => values.foldl (fun n value => 16 * n + value) 0

/-- The byte that decimal digits write, without a zero in front of others. -/
def byte? (s : List Char) : Option Nat :=
  if s.isEmpty || 3 < s.length || !s.all Char.isDigit ||
      (1 < s.length && s.head? = some '0') then none
  else
    let n := Nat.ofDigitChars 10 s 0
    if n < 256 then some n else none

/-- The two pieces that four bytes write. -/
def lastPieces? (s : List Char) : Option (List Nat) :=
  match (Text.splitWhen (· = '.') s).mapM byte? with
  | some [a, b, c, d] => some [256 * a + b, 256 * c + d]
  | _ => none

/-- The pieces that fields write; at the end of an address four bytes may stand for the last
two pieces. -/
def fieldPieces? (atEnd : Bool) : List (List Char) → Option (List Nat)
  | [] => some []
  | [field] =>
    if atEnd && field.contains '.' then lastPieces? field else (piece? field).map ([·])
  | field :: fields => do
    let piece ← piece? field
    let pieces ← fieldPieces? atEnd fields
    return piece :: pieces

/-- The pieces that a text between colons writes. -/
def runPieces? (atEnd : Bool) (s : List Char) : Option (List Nat) :=
  if s.isEmpty then some [] else fieldPieces? atEnd (Text.splitWhen (· = ':') s)

/-- Cuts a text at the first two colons that stand side by side. -/
def cutAtGap? : List Char → Option (List Char × List Char)
  | ':' :: ':' :: s => some ([], s)
  | c :: s => (cutAtGap? s).map fun (before, after) => (c :: before, after)
  | [] => none

/-- The pieces of an address: eight, or fewer with a gap that stands for zeros. -/
def pieces? (s : List Char) : Option (List Nat) :=
  match cutAtGap? s with
  | none => (runPieces? true s).filter (·.length = 8)
  | some (before, after) => do
    let first ← runPieces? false before
    let last ← runPieces? true after
    if first.length + last.length < 8 then
      some (first ++ List.replicate (8 - (first.length + last.length)) 0 ++ last)
    else none

/-- The address in brackets; there is one at both ends. -/
def bracketed? (s : List Char) : Option Host :=
  if s.getLast? = some ']' then (pieces? (s.drop 1).dropLast).map .address6 else none

/-! ### Names -/

/-- The characters that no name holds, besides blanks and control characters. -/
def forbidden : List Char :=
  ['#', '/', ':', '<', '>', '?', '@', '[', '\\', ']', '^', '|']

/-- The ranges of the control characters, the marks of direction, the characters for private
use and the specials. -/
def refusedRanges : List (Nat × Nat) :=
  [(0x00, 0x20), (0x7F, 0x9F), (0x61C, 0x61C), (0x200E, 0x200F), (0x202A, 0x202E),
   (0x2065, 0x2069), (0xE000, 0xF8FF), (0xFFF9, 0xFFFF), (0xE0000, 0xE00FF), (0xE01F0, 0x10FFFF)]

/-- Whether a name under a special scheme may not hold a character. -/
def isForbidden (c : Char) : Bool :=
  forbidden.contains c || c = '%' || Text.isBlank c || Text.inRanges refusedRanges c.toNat

/-- The ranges of the characters that do not count in a name: soft hyphens, fillers, joiners,
variation selectors and other marks without a width. -/
def ignoredRanges : List (Nat × Nat) :=
  [(0xAD, 0xAD), (0x34F, 0x34F), (0x115F, 0x1160), (0x17B4, 0x17B5), (0x180B, 0x180F),
   (0x200B, 0x200B), (0x2060, 0x2064), (0x206A, 0x206F), (0x3164, 0x3164), (0xFE00, 0xFE0F),
   (0xFEFF, 0xFEFF), (0xFFA0, 0xFFA0), (0x1BCA0, 0x1BCA3), (0x1D173, 0x1D17A),
   (0xE0100, 0xE01EF)]

/-- Whether a character does not count in a name. -/
def isIgnored (c : Char) : Bool :=
  Text.inRanges ignoredRanges c.toNat

/-- The form in which a name is compared: full stops and letters of other widths are those of
ASCII. -/
def foldWidth (c : Char) : Char :=
  let n := c.toNat
  if n = 0x3002 || n = 0xFF61 then '.'
  else if 0xFF01 ≤ n && n ≤ 0xFF5E then Char.ofNat (n - 0xFEE0)
  else c

/-- The name that a text stands for under a special scheme. -/
def name? (s : List Char) : Option (List Char) := do
  let text ← Text.Utf8.decode? (Url.unescape s)
  let name := Text.lower ((text.filter (!isIgnored ·)).map foldWidth)
  if name.isEmpty || name.any isForbidden then none else some name

/-- The host that a text stands for under a special scheme. -/
def ofSpecial? (s : List Char) : Option Host :=
  if s.head? = some '[' then bracketed? s
  else do
    let name ← name? s
    if endsInNumber name then (address4? name).map .address4 else some (.name name)

/-- The host that a text stands for under any other scheme. -/
def ofOther? (s : List Char) : Option Host :=
  if s.head? = some '[' then bracketed? s
  else if s.any fun c => forbidden.contains c || c = ' ' || c = '\x00' then none
  else some (.name (Url.escape Url.isControl s))

end CurrencyDesk.Host
