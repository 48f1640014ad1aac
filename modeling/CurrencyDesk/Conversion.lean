import CurrencyDesk.Amount.Converted
import CurrencyDesk.Query
import CurrencyDesk.Rate.Fault
/-!
# Conversions and what is shown of them

A request and a rate make a conversion, unless their product is not finite. A
conversion is shown as one item: its title is the converted amount and the target
currency, its subtitle names both currencies, and activating it copies the converted
amount. A conversion that fails, for whatever reason, is shown as one and the same
item that copies nothing.

Key definitions: `Conversion`, `Conversion.make`, `ConvertError`, `Item`,
`Item.activate`.
-/

namespace CurrencyDesk

/-- An amount that has been converted at a rate. -/
structure Conversion where
  request : Request
  rate : Binary64
  converted : ConvertedAmount
deriving DecidableEq

/-- Why a request was not converted. -/
inductive ConvertError where
  | lookup (error : LookupError)
  | outOfRange (amount rate : Binary64)
deriving DecidableEq

namespace ConvertError

/-- The text of an error. -/
def message : ConvertError → String
  | .lookup error => error.message
  | .outOfRange amount rate =>
    "Converted amount overflowed: " ++ String.ofList amount.toChars ++ " * " ++
      String.ofList rate.toChars

end ConvertError

namespace Conversion

/-- Converts a request at the rate that was looked up for it. -/
def make (request : Request) : Except LookupError Binary64 → Except ConvertError Conversion
  | .error error => .error (.lookup error)
  | .ok rate =>
    match ConvertedAmount.ofProduct? (request.amount.mul rate) with
    | some converted => .ok ⟨request, rate, converted⟩
    | none => .error (.outOfRange request.amount rate)

end Conversion

/-- An item on display: two lines of text, and the text that activating it copies. -/
structure Item where
  title : String
  subtitle : String
  copies : Option String
deriving DecidableEq

namespace Item

/-- The item of a conversion that failed. -/
def failure : Item :=
  ⟨"Something went wrong.", "Please try again.", none⟩

/-- The item of a conversion. -/
def ofConversion (c : Conversion) : Item :=
  let source := Text.upperString c.request.source
  let target := Text.upperString c.request.target
  { title := c.converted.text ++ " " ++ target
    subtitle := "Currency conversion from " ++ source ++ " to " ++ target
    copies := some c.converted.text }

/-- The item of a conversion that may have failed. -/
def ofResult : Except ConvertError Conversion → Item
  | .ok c => ofConversion c
  | .error _ => failure

/-- What came of activating an item: whether something was done, and the texts that
were copied. -/
structure Activation where
  done : Bool
  copied : List String
deriving DecidableEq

/-- Activates an item where copying succeeds on the texts that `accepts` allows. -/
def activate (item : Item) (accepts : String → Bool) : Activation :=
  match item.copies with
  | some text => if accepts text then ⟨true, [text]⟩ else ⟨false, []⟩
  | none => ⟨false, []⟩

end Item

end CurrencyDesk
