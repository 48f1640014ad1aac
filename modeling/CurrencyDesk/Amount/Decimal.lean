import CurrencyDesk.Binary64.Basic
import CurrencyDesk.Text.Positional
/-!
# Decimals of a 96-bit coefficient

A decimal is a whole coefficient and the number of its digits that stand behind
the point. `Decimal.ofFinite?` turns a binary64 number into one, in whole-number
steps on a coefficient of at most 96 bits:

* a number with a fraction trades each factor 1/2 for a factor 5/10, or drops the
  last bit when the coefficient has no room left for a factor 5;
* a whole number beyond the mantissa trades each factor 2 for itself while there
  is room, then for 10/5. It is refused where there is no room and fewer factors 2
  are left than twice the factors 10 still to come, or in the end where ten times
  its coefficient no longer fits. As a number starts with as many factors of the one
  kind as of the other, it meets the first refusal as soon as there is no room, which
  is so exactly for the numbers of `2 ^ 96` or more;
* then digits are rounded away, half up, until at most 28 stand behind the point
  and the coefficient is below `2 ^ 52`, and zeros at the end are dropped.

So a decimal shows about 15 digits of a number that has a fraction, and only whole
numbers of `2 ^ 96` or more have none.

Key definitions: `Decimal`, `Decimal.ofFinite?`, `Decimal.round`,
`Decimal.normalize`, `Decimal.toChars`.
-/

namespace CurrencyDesk

/-- A decimal number: `coefficient / 10 ^ places`, with a sign. -/
structure Decimal where
  negative : Bool
  coefficient : Nat
  places : Nat
deriving DecidableEq

namespace Decimal

attribute [local instance] corePow

/-- Coefficients stay below this bound. -/
def limit : Nat := 2 ^ (96 : Nat)

/-- Divides by ten, a half going up. -/
def tenth (n : Nat) : Nat :=
  if 5 ≤ n % 10 then n / 10 + 1 else n / 10

/-! ### Numbers with a fraction

A state is a coefficient and a count of decimal places. Each of the remaining
halvings moves one factor 1/2 out of the value: an even coefficient absorbs it and
so gives back one place, an odd one is multiplied by 5. -/

/-- Absorbs `halvings` factors 1/2, each of which stands in the places as 1/10. -/
def absorbHalves : (halvings : Nat) → (coefficient places : Nat) → Nat × Nat
  | 0, c, p => (c, p)
  | k + 1, c, p =>
    if c % 2 = 0 then absorbHalves k (c / 2) (p - 1)
    else if 5 * c < limit then absorbHalves k (5 * c) p
    else absorbHalves k (c / 2) (p - 1)

/-- Rounds `excess` places away, half up each time; a coefficient that runs out of
digits before is zero. -/
def dropExcess : (excess : Nat) → (coefficient places : Nat) → Nat × Nat
  | 0, c, p => (c, p)
  | k + 1, c, p => if c / 10 = 0 then (0, 0) else dropExcess k (tenth c) (p - 1)

/-- Rounds places away, half up each time, while the coefficient has more digits
than a binary64 number is precise to. -/
def dropImprecise : (places : Nat) → (coefficient : Nat) → Nat × Nat
  | 0, c => (c, 0)
  | p + 1, c => if 2 ^ (52 : Nat) ≤ c then dropImprecise p (tenth c) else (c, p + 1)

/-- Drops zeros behind the point. -/
def dropZeros : (places : Nat) → (coefficient : Nat) → Nat × Nat
  | 0, c => (c, 0)
  | p + 1, c => if c % 10 = 0 then dropZeros p (c / 10) else (c, p + 1)

/-- The coefficient and the places of `mantissa / 2 ^ halvings`. -/
def ofFraction (mantissa halvings : Nat) : Nat × Nat :=
  let (c, p) := absorbHalves halvings mantissa halvings
  let (c, p) := dropExcess (p - 28) c p
  let (c, p) := dropImprecise p c
  dropZeros p c

/-! ### Whole numbers

A state is a coefficient and a count of factors ten that are still to come. Each
of the remaining doublings moves one factor 2 into the coefficient, either as it
is, or as 10/5 when the coefficient has no room for it. -/

/-- Multiplies by ten `tens` times, if the coefficient has room. -/
def absorbTens? : (tens coefficient : Nat) → Option Nat
  | 0, c => some c
  | k + 1, c => if 10 * c < limit then absorbTens? k (10 * c) else none

/-- Absorbs `doublings` factors 2, each of which stands in the tens as 10. -/
def absorbDoubles? : (doublings coefficient tens : Nat) → Option Nat
  | 0, c, t => absorbTens? t c
  | k + 1, c, t =>
    if c < limit / 2 then absorbDoubles? k (2 * c) (t - 1)
    else if k + 1 < 2 * t then none
    else absorbDoubles? k (c / 5) t

/-- The whole number `mantissa * 2 ^ doublings`, if it fits. -/
def ofWhole? (mantissa doublings : Nat) : Option Nat :=
  absorbDoubles? doublings mantissa doublings

/-- The decimal that shows a binary64 number, if its magnitude fits. -/
def ofFinite? (x : Binary64.Finite) : Option Decimal :=
  match x.exponent with
  | .ofNat doublings => (ofWhole? x.mantissa doublings).map fun c => ⟨x.negative, c, 0⟩
  | .negSucc n =>
    let (c, p) := ofFraction x.mantissa (n + 1)
    some ⟨x.negative, c, p⟩

/-! ### Rounding and layout -/

/-- Rounds to at most `places` digits behind the point, a half going away from
zero. -/
def round (places : Nat) (d : Decimal) : Decimal :=
  if d.places ≤ places then d
  else
    let unit := 10 ^ (d.places - places)
    { d with
      coefficient := (2 * d.coefficient + unit) / (2 * unit)
      places := places }

/-- The same value without zeros at the end; zero has no sign. -/
def normalize (d : Decimal) : Decimal :=
  if d.coefficient = 0 then ⟨false, 0, 0⟩
  else
    let (c, p) := dropZeros d.places d.coefficient
    ⟨d.negative, c, p⟩

/-- The text of a decimal. -/
def toChars (d : Decimal) : List Char :=
  let digits := Nat.toDigits 10 d.coefficient
  Text.signed d.negative (if d.places = 0 then digits else Text.placePoint digits d.places)

end Decimal

end CurrencyDesk
