import CurrencyDesk.Binary64.Numeral
import CurrencyDesk.Settings
/-!
# Conversion queries

A query is an amount, or an amount, a currency, a connective and a currency, as four
words. The amount is a numeral of a finite number; the connective may be any word.
Any other text is no conversion, which is not an error: the reader of a search
line shows nothing for it.

Key definitions: `Request`, `Request.ofWords?`, `Request.parse?`.
-/

namespace CurrencyDesk

/-- What is to be converted: an amount from one currency to another. -/
structure Request where
  amount : Binary64
  source : String
  target : String
deriving DecidableEq

namespace Request

/-- The finite number that a word denotes. -/
def amount? (word : List Char) : Option Binary64 :=
  (Binary64.ofChars? word).filter (·.isFinite)

/-- The request of an amount and two codes in any letter case. -/
def make (amount : Binary64) (source target : String) : Request :=
  ⟨amount, Text.lowerString source, Text.lowerString target⟩

/-- The request that words make up: one, or four of which the third does not matter. -/
def ofWords? (settings : Settings) : List (List Char) → Option Request
  | [word] => (amount? word).map (make · settings.defaultPair.1 settings.defaultPair.2)
  | [word, source, _, target] =>
    (amount? word).map (make · (String.ofList source) (String.ofList target))
  | _ => none

/-- The request that a text stands for, if it is a conversion. -/
def parse? (settings : Settings) (text : String) : Option Request :=
  ofWords? settings (Text.words text.toList)

end Request

end CurrencyDesk
