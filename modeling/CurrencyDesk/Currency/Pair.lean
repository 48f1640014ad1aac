import CurrencyDesk.Text.Case
/-!
# Currency pairs

Rates belong to ordered pairs of currency codes, and codes that differ in letter case
alone are the same: a pair is made of the lower case of both.

Key definitions: `CurrencyPair`, `CurrencyPair.ofCodes`, `CurrencyPair.label`.
-/

namespace CurrencyDesk

/-- An ordered pair of currency codes: the rate of a pair is what one unit of the
source is worth in the target. -/
structure CurrencyPair where
  source : String
  target : String
deriving DecidableEq

namespace CurrencyPair

/-- The pair of two codes in any letter case. -/
def ofCodes (source target : String) : CurrencyPair :=
  ⟨Text.lowerString source, Text.lowerString target⟩

/-- The text that names a pair in messages. Different pairs may share it. -/
def label (p : CurrencyPair) : String :=
  p.source ++ "-" ++ p.target

end CurrencyPair

end CurrencyDesk
