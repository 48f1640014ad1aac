import CurrencyDesk.Url.Parse
/-!
# Requests over the web

A request for a URL is answered with a status, sometimes with the place where the resource
is now, and with a body, which may break off. Or it is not answered: no host takes it up, or
the exchange breaks, or it takes too long. A transport is a way to have requests answered.

An answer that the resource is elsewhere leads to a request for that place, `redirectLimit`
times at most; a place that is no URL is as good as none, and one that is not on the web ends
the exchange.

Key definitions: `Interruption`, `Response`, `Transport`, `Transport.request`.
-/

namespace CurrencyDesk

/-- Why a request is not answered. -/
inductive Interruption where
  | unreached
  | broken
  | timeout
deriving DecidableEq

/-- The answer to a request. -/
structure Response where
  status : Nat
  location : Option (List Char) := none
  body : Except Interruption (List UInt8)

/-- A way to have requests answered. -/
abbrev Transport := Url → Except Interruption Response

/-- The transport without hosts: no request is taken up. -/
def Transport.unreachable : Transport :=
  fun _ => .error .unreached

namespace Response

/-- Whether a status says that the request was successful. -/
def isSuccess (r : Response) : Bool :=
  200 ≤ r.status && r.status < 300

/-- Whether a status says that the resource is elsewhere. -/
def isRedirect (r : Response) : Bool :=
  [301, 302, 303, 307, 308].contains r.status

/-- Where the resource of a URL is instead. -/
def next? (url : Url) (r : Response) : Option Url :=
  if r.isRedirect then r.location.bind url.resolve? else none

end Response

/-- What came of a request: the URLs that hosts were asked for, and the last answer. -/
structure Exchange where
  asked : List Url := []
  result : Except Interruption Response

namespace Transport

/-- An answer is followed to other places this often. -/
def redirectLimit : Nat := 10

/-- Requests a URL, and what it leads to `left` times at most. -/
def follow (send : Transport) (left : Nat) (url : Url) : Exchange :=
  if url.isWeb then
    match send url with
    | .error .unreached => { result := .error .unreached }
    | .error interruption => { asked := [url], result := .error interruption }
    | .ok response =>
      match response.next? url, left with
      | none, _ => { asked := [url], result := .ok response }
      | some _, 0 => { asked := [url], result := .error .broken }
      | some place, left + 1 =>
        let rest := follow send left place
        { rest with asked := url :: rest.asked }
  else { result := .error .unreached }

/-- Requests a URL. -/
def request (send : Transport) (url : Url) : Exchange :=
  follow send redirectLimit url

end Transport

end CurrencyDesk
