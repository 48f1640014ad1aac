import CurrencyDesk.Json.Parse
import CurrencyDesk.Rate.Fault
import CurrencyDesk.Remote.Exchange
/-!
# Rates in answers

An answer with a good status has a document for its body: an object in which the rate of a
pair is the member that is named by the code of the target. The body is read as a text
whatever its bytes are, without a byte order mark in front. What is wrong with an answer is
one fault: of the exchange, the status, the document, the member or its value, in this order.

Key definitions: `rateInText`, `rateInResponse`, `Interruption.fault`.
-/

namespace CurrencyDesk

/-- The fault of a source whose request is not answered. -/
def Interruption.fault : Interruption → RateFault
  | .timeout => .timeout
  | .unreached | .broken => .request

/-- The text of a body. -/
def bodyText (bytes : List UInt8) : List Char :=
  match Text.Utf8.decodeLossy bytes with
  | '\uFEFF' :: text => text
  | text => text

/-- The rate that a member of a document gives. -/
def rateInMember : Option Json → Except RateFault Binary64
  | none => .error .missing
  | some (.number n) => .ok n.toBinary64
  | some value => .error (.invalid (String.ofList value.compact))

/-- The rate for a target in the text of an answer. -/
def rateInText (target : String) (text : List Char) : Except RateFault Binary64 :=
  match Json.parse? text with
  | none => .error .malformed
  | some document => rateInMember (document.member? target.toList)

/-- The rate for a target in an answer. -/
def rateInResponse (target : String) (response : Response) : Except RateFault Binary64 :=
  if response.isSuccess then
    match response.body with
    | .error interruption => .error interruption.fault
    | .ok bytes => rateInText target (bodyText bytes)
  else .error (.status response.status)

/-- The rate for a target that an exchange leads to. -/
def rateInExchange (target : String) (exchange : Exchange) : Except RateFault Binary64 :=
  match exchange.result with
  | .error interruption => .error interruption.fault
  | .ok response => rateInResponse target response

end CurrencyDesk
