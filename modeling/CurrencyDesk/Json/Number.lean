import CurrencyDesk.Json.Basic
/-!
# Numbers of JSON

A numeral of JSON without a point and an exponent is read as a whole number if that fits
into 64 bits, with or without a sign; a negative zero does not. Any other one is read in two
steps, each of which rounds: its digits make up a number of at most 64 bits, of which the
digits that do not fit only shift the point, and that number is multiplied or divided by a
power of ten, in one step if the format has the power. A numeral whose value becomes
infinite is refused.

Key definitions: `Numeral.ofWord?`, `Numeral.value?`, `Number.ofWord?`.
-/

namespace CurrencyDesk.Json

/-- The parts of a numeral of JSON; `fractional` tells whether there is more than whole
digits. -/
structure Numeral where
  negative : Bool
  whole : List Char
  fraction : List Char
  exponent : Int
  fractional : Bool

namespace Numeral

attribute [local instance] corePow

/-- Whether whole digits are written as they have to be: at least one, and no zero in front
of others. -/
def isWhole : List Char → Bool
  | [] => false
  | ['0'] => true
  | '0' :: _ => false
  | _ => true

/-- Takes the digits behind a point off the front of a text; there has to be one. -/
def splitFraction? : List Char → Option (List Char × List Char)
  | '.' :: s =>
    let (digits, rest) := s.span Char.isDigit
    if digits.isEmpty then none else some (digits, rest)
  | s => some ([], s)

/-- Reads a word that is one numeral. -/
def ofWord? (word : List Char) : Option Numeral := do
  let (negative, unsigned) := match word with
    | '-' :: s => (true, s)
    | s => (false, s)
  let (whole, rest) := unsigned.span Char.isDigit
  if !isWhole whole then none
  let (fraction, power) ← splitFraction? rest
  let exponent ← CurrencyDesk.Numeral.exponent? power
  return ⟨negative, whole, fraction, exponent, !rest.isEmpty⟩

/-- Appends digits to a number as long as it stays below `2 ^ 64`; the digits that are left
over come with it. -/
def absorb (n : Nat) : List Char → Nat × List Char
  | [] => (n, [])
  | c :: s =>
    let more := 10 * n + (c.toNat - '0'.toNat)
    if more < 2 ^ (64 : Nat) then absorb more s else (n, c :: s)

/-- The power of ten with an exponent of at most 308. -/
def tenTo (n : Nat) : Binary64 :=
  .nearest false (10 ^ n) 1

/-- The quotient of two numbers that are not negative and of which the second is finite and
not zero. -/
def quotient : Binary64 → Binary64 → Binary64
  | .finite x, .finite y => x.div y
  | x, _ => x

/-- Divides by `10 ^ 308` some times, and no more once zero is reached. -/
def sink : (times : Nat) → Binary64 → Binary64
  | 0, x => x
  | n + 1, x => if x = .zero false then x else sink n (quotient x (tenTo 308))

/-- Multiplies a number by a power of ten; `none` if it becomes infinite. -/
def shift? (n : Nat) (exponent : Int) : Option Binary64 :=
  let x := Binary64.ofInt n
  if n = 0 then some x
  else if 308 < exponent then none
  else if 0 ≤ exponent then (x.mul (tenTo exponent.toNat) |> some).filter (·.isFinite)
  else
    let times := (exponent.natAbs - 1) / 308
    some (quotient (sink times x) (tenTo (exponent.natAbs - 308 * times)))

/-- The value of a numeral as a binary64 number, if it is finite. -/
def float? (n : Numeral) : Option Binary64.Finite :=
  let (significand, left) := absorb 0 n.whole
  let (significand, unread) := absorb significand n.fraction
  let exponent : Int := (left.length : Int) - (n.fraction.length - unread.length : Nat) + n.exponent
  match shift? significand exponent with
  | some (.finite x) => some { x with negative := n.negative }
  | _ => none

/-- The value of a numeral, if it has one. -/
def value? (n : Numeral) : Option Number :=
  let whole := Nat.ofDigitChars 10 n.whole 0
  if !n.fractional && !n.negative && decide (whole < 2 ^ (64 : Nat)) then some (.whole whole)
  else if !n.fractional && n.negative && decide (0 < whole ∧ whole ≤ 2 ^ (63 : Nat)) then
    some (.whole (-(whole : Int)))
  else n.float?.map .float

end Numeral

/-- The number that a word of a document stands for. -/
def Number.ofWord? (word : List Char) : Option Number :=
  (Numeral.ofWord? word).bind Numeral.value?

end CurrencyDesk.Json
