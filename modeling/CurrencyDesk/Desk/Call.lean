import CurrencyDesk.Conversion
/-!
# What a desk is asked

A call asks for the rate of a pair, for the conversion of a request, or for the items
of a query. Under the settings of the moment it either is answered at once, when it is
a query that is no conversion, or becomes an errand: something that needs the rate of
one pair, and nothing else, to be answered.

Key definitions: `Call`, `Errand`, `Reply`, `Call.errand?`, `Errand.pair`,
`Errand.reply`.
-/

namespace CurrencyDesk

/-- What a desk is asked. -/
inductive Call where
  | rate (source target : String)
  | convert (request : Request)
  | query (text : String)
deriving DecidableEq

/-- What a desk answers. -/
inductive Reply where
  | rate (result : Except LookupError Binary64)
  | conversion (result : Except ConvertError Conversion)
  | items (items : List Item)

/-- What is left to do for a call that needs a rate. -/
inductive Errand where
  | rate (pair : CurrencyPair)
  | conversion (request : Request)
  | items (request : Request)
deriving DecidableEq

/-- What a call comes to under the settings; `none` for a query that is no
conversion. -/
def Call.errand? (settings : Settings) : Call → Option Errand
  | .rate source target => some (.rate (.ofCodes source target))
  | .convert request => some (.conversion request)
  | .query text => (Request.parse? settings text).map .items

namespace Errand

/-- The pair whose rate is needed. -/
def pair : Errand → CurrencyPair
  | .rate pair => pair
  | .conversion request => .ofCodes request.source request.target
  | .items request => .ofCodes request.source request.target

/-- The answer that a rate, or the failure to find one, leads to. -/
def reply (result : Except LookupError Binary64) : Errand → Reply
  | .rate _ => .rate result
  | .conversion request => .conversion (Conversion.make request result)
  | .items request => .items [Item.ofResult (Conversion.make request result)]

end Errand

/-- The answer to a call that is no errand: there is nothing to show. -/
def Reply.nothing : Reply :=
  .items []

end CurrencyDesk
