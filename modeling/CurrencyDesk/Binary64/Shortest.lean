import CurrencyDesk.Binary64.Numeral
import CurrencyDesk.Text.Positional
/-!
# The shortest decimal of a number

A finite number is written with the fewest digits that read back as the same
number. The decimals of `n` digits form a grid; the two grid points next to the
magnitude are tried for `n = 1, 2, …, 17`, and the first grid with a point that
reads back wins. When both points read back the nearer one is taken, and `Tie`
says which when they are equally near. Seventeen digits always suffice, but
nothing rests on it here: the last resort is the exact value, which every
binary64 number has in decimals.

The digits are then laid out in one of two ways: `Finite.plain` never uses an
exponent, and `Finite.scientific` does outside a band of magnitudes.

Key definitions: `Decimals`, `shortest`, `Finite.plain`, `Finite.scientific`.
-/

namespace CurrencyDesk.Binary64

open Text (placePoint signed)

attribute [local instance] corePow

/-- A magnitude in decimals: `significand * 10 ^ exponent`. -/
structure Decimals where
  significand : Nat
  exponent : Int
deriving DecidableEq

namespace Decimals

/-- The number that the decimals read as. -/
def read (d : Decimals) (negative : Bool) : Binary64 :=
  .nearest negative (d.significand * 10 ^ d.exponent.toNat) (10 ^ (-d.exponent).toNat)

/-- Moves up to `fuel` zeros at the end of the significand into the exponent. -/
def dropZeros : Nat → Decimals → Decimals
  | 0, d => d
  | fuel + 1, d =>
    if d.significand % 10 = 0 then dropZeros fuel ⟨d.significand / 10, d.exponent + 1⟩ else d

/-- The digits of the significand. -/
def digits (d : Decimals) : List Char :=
  Nat.toDigits 10 d.significand

end Decimals

/-- Which of two equally near decimals is taken. -/
inductive Tie where
  | away
  | even
deriving DecidableEq

namespace Finite

/-- The exponent of ten of the leading digit of a magnitude that is not zero. -/
def leadingTen (x : Finite) : Int :=
  ((Nat.toDigits 10 (x.numerator * 10 ^ (324 : Nat) / x.denominator)).length : Int) - 325

/-- The number of units of `10 ^ exponent` in a magnitude, as a fraction. -/
def inUnits (x : Finite) (exponent : Int) : Nat × Nat :=
  (x.numerator * 10 ^ (-exponent).toNat, x.denominator * 10 ^ exponent.toNat)

/-- Whether decimals read back as the number they are to write. -/
def readsBack (x : Finite) (d : Decimals) : Bool :=
  decide (d.read x.negative = .finite x)

/-- The nearest of the two multiples of `10 ^ exponent` next to a magnitude that read
back, if one does. -/
def onGrid? (x : Finite) (tie : Tie) (exponent : Int) : Option Decimals :=
  let (numerator, denominator) := x.inUnits exponent
  let low : Decimals := ⟨numerator / denominator, exponent⟩
  let high : Decimals := ⟨numerator / denominator + 1, exponent⟩
  let rest := 2 * (numerator % denominator)
  let lowFirst := rest < denominator ∨
    (rest = denominator ∧ tie = .even ∧ low.significand % 2 = 0)
  let (first, second) := if lowFirst then (low, high) else (high, low)
  if x.readsBack first then some first
  else if x.readsBack second then some second
  else none

/-- The exact value of a number in decimals. -/
def exactDecimals (x : Finite) : Decimals :=
  ⟨x.mantissa * 2 ^ x.exponent.toNat * 5 ^ (-x.exponent).toNat, min x.exponent 0⟩

/-- The decimals with the fewest digits that read back as a number. -/
def shortest (x : Finite) (tie : Tie) : Decimals :=
  if x.mantissa = 0 then ⟨0, 0⟩
  else
    let onGrids := (List.range 17).findSome? fun (n : Nat) => x.onGrid? tie (x.leadingTen - n)
    let found := onGrids.getD x.exactDecimals
    found.dropZeros (found.digits.length - 1)

/-- The shortest decimals of a number, written out without an exponent. -/
def plain (x : Finite) : List Char :=
  let d := x.shortest .away
  signed x.negative <|
    if 0 ≤ d.exponent then d.digits ++ List.replicate d.exponent.toNat '0'
    else placePoint d.digits (-d.exponent).toNat

/-- A power of ten as it stands behind a significand. -/
def powerOfTen (exponent : Int) : List Char :=
  'e' :: (if exponent < 0 then '-' else '+') :: Nat.toDigits 10 exponent.natAbs

/-- The shortest decimals of a number with a point among them, and with a power of
ten when the magnitude is below `10 ^ (-5)` or at least `10 ^ 16`. -/
def scientific (x : Finite) : List Char :=
  let d := x.shortest .even
  let point : Int := d.digits.length + d.exponent
  signed x.negative <|
    if x.mantissa = 0 then "0.0".toList
    else if 0 ≤ d.exponent ∧ point ≤ 16 then
      d.digits ++ List.replicate d.exponent.toNat '0' ++ ['.', '0']
    else if -5 < point ∧ point ≤ 16 then placePoint d.digits (-d.exponent).toNat
    else
      match d.digits with
      | [] => []
      | [c] => c :: powerOfTen (point - 1)
      | c :: cs => c :: '.' :: cs ++ powerOfTen (point - 1)

end Finite

/-- A number written out without an exponent. -/
def toChars : Binary64 → List Char
  | .nan => "NaN".toList
  | .infinity negative => signed negative "inf".toList
  | .finite x => x.plain

end CurrencyDesk.Binary64
