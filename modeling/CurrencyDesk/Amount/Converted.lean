import CurrencyDesk.Amount.Decimal
import CurrencyDesk.Binary64.Shortest
/-!
# Converted amounts

The product of an amount and a rate is shown in hundredths, a half going away
from zero, without zeros at the end. A product whose magnitude no decimal holds is
a whole number already and is kept as it is; one that is not finite has no
converted amount.

Key definitions: `ConvertedAmount`, `ConvertedAmount.ofFinite`,
`ConvertedAmount.ofProduct?`, `ConvertedAmount.toChars`.
-/

namespace CurrencyDesk

/-- An amount rounded to hundredths. -/
inductive ConvertedAmount where
  | exact (value : Decimal)
  | float (value : Binary64)
deriving DecidableEq

namespace ConvertedAmount

/-- A finite number rounded to hundredths. -/
def ofFinite (x : Binary64.Finite) : ConvertedAmount :=
  match Decimal.ofFinite? x with
  | some d => .exact (d.round 2).normalize
  | none => .float x.roundWhole

/-- A product rounded to hundredths, if it is finite. -/
def ofProduct? : Binary64 → Option ConvertedAmount
  | .finite x => some (ofFinite x)
  | _ => none

/-- The text of a converted amount, written out without an exponent. -/
def toChars : ConvertedAmount → List Char
  | .exact d => d.toChars
  | .float x => x.toChars

/-- The text of a converted amount as a string. -/
def text (c : ConvertedAmount) : String :=
  String.ofList c.toChars

end ConvertedAmount

end CurrencyDesk
