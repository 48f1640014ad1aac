import CurrencyDesk.Binary64.Nearest
/-!
# Numerals

A numeral is an optional sign, digits with at most one point among them, and an
optional power of ten: `5`, `-.5`, `+1.50E-3`. `Numeral.ofChars?` reads one that
takes up the whole text, and `Numeral.toBinary64` is the number nearest to what
it denotes, however many digits it has: the digits are one natural number, and
the power of ten that stands behind them is computed only when it can matter. A
magnitude below `10 ^ (-324)` rounds to zero and one of `10 ^ 309` or more
to infinity, which the count of digits and the exponent tell in advance.

`ofChars?` also knows the names of what is not finite, in letters of either case.

Key definitions: `Numeral`, `Numeral.ofChars?`, `Numeral.toBinary64`,
`Binary64.ofChars?`.
-/

namespace CurrencyDesk

attribute [local instance] corePow

/-- The parts of a numeral: the digits around the point, and the power of ten. -/
structure Numeral where
  negative : Bool
  whole : List Char
  fraction : List Char
  exponent : Int
deriving DecidableEq

namespace Numeral

/-- Takes a sign off the front of a text: whether it is a minus, and the rest. -/
def splitSign : List Char → Bool × List Char
  | '-' :: s => (true, s)
  | '+' :: s => (false, s)
  | s => (false, s)

/-- Reads a text of digits, at least one, behind an optional sign. -/
def integer? (s : List Char) : Option Int :=
  let (negative, digits) := splitSign s
  if digits.isEmpty || !digits.all Char.isDigit then none
  else
    let n : Int := Nat.ofDigitChars 10 digits 0
    some (if negative then -n else n)

/-- Reads what stands behind the digits: nothing, or a power of ten. -/
def exponent? : List Char → Option Int
  | [] => some 0
  | c :: s => if c = 'e' ∨ c = 'E' then integer? s else none

/-- Takes the digits behind a point off the front of a text. -/
def splitFraction : List Char → List Char × List Char
  | '.' :: s => s.span Char.isDigit
  | s => ([], s)

/-- Reads a text that is one numeral. -/
def ofChars? (s : List Char) : Option Numeral :=
  let (negative, unsigned) := splitSign s
  let (whole, rest) := unsigned.span Char.isDigit
  let (fraction, rest) := splitFraction rest
  if whole.isEmpty && fraction.isEmpty then none
  else (exponent? rest).map fun exponent => ⟨negative, whole, fraction, exponent⟩

/-- All digits of a numeral as one natural number. -/
def significand (n : Numeral) : Nat :=
  Nat.ofDigitChars 10 (n.whole ++ n.fraction) 0

/-- The power of ten that the significand is multiplied by. -/
def scale (n : Numeral) : Int :=
  n.exponent - n.fraction.length

/-- The number nearest to `significand * 10 ^ scale`. -/
def toBinary64 (n : Numeral) : Binary64 :=
  let digits : Int := (Nat.toDigits 10 n.significand).length
  if n.significand = 0 ∨ digits + n.scale ≤ -324 then .zero n.negative
  else if 310 ≤ digits + n.scale then .infinity n.negative
  else .nearest n.negative (n.significand * 10 ^ n.scale.toNat) (10 ^ (-n.scale).toNat)

end Numeral

namespace Binary64

/-- The number that a name stands for, in letters of either case: infinity or no
number at all. -/
def ofName? (negative : Bool) (name : List Char) : Option Binary64 :=
  let lower := name.map Char.toLower
  if lower = "inf".toList ∨ lower = "infinity".toList then some (.infinity negative)
  else if lower = "nan".toList then some .nan
  else none

/-- Reads a text that is one numeral, or a name of what is not finite behind an
optional sign. -/
def ofChars? (s : List Char) : Option Binary64 :=
  match Numeral.ofChars? s with
  | some n => some n.toBinary64
  | none => let (negative, name) := Numeral.splitSign s; ofName? negative name

end Binary64

end CurrencyDesk
