import CurrencyDesk.Rate.Source
import CurrencyDesk.Remote.Answer
import CurrencyDesk.Url.Segment
/-!
# A site with rates

A site keeps the rates of each currency in a directory of its own, with one document for each
target, somewhere below its base. The base is any URL that segments can be put on; the two
codes are put on its path, and the rest of it stays. A site with a transport is a source of
rates, which remembers the URLs that hosts were asked for.

Key definitions: `RateSite`, `RateSite.ofText`, `RateSite.url`, `RateSite.source`,
`SiteError.message`.
-/

namespace CurrencyDesk

/-- A site with rates, by the URL of its base. -/
structure RateSite where
  base : Url
  isRooted : base.path = .rooted base.path.segments

/-- Why a text is not the base of a site. -/
inductive SiteError where
  | invalid (text : String)
  | rootless (url : Url)
deriving DecidableEq

/-- The text of an error about the base of a site. -/
def SiteError.message : SiteError → String
  | .invalid text => "Invalid base URL: " ++ text
  | .rootless url => "Base URL cannot have path segments: " ++ String.ofList url.rootlessText

namespace RateSite

/-- The site whose base a text gives. -/
def ofText (text : String) : Except SiteError RateSite :=
  match Url.ofText? text.toList with
  | none => .error (.invalid text)
  | some base =>
    if h : base.path = .rooted base.path.segments then .ok ⟨base, h⟩ else .error (.rootless base)

/-- Puts a segment on the path of a URL. -/
def pushSegment (segment : String) (u : Url) : Url :=
  { u with path := u.path.push (Url.isSpecial u.scheme) segment.toList }

/-- The URL of the document for a pair. -/
def url (site : RateSite) (pair : CurrencyPair) : Url :=
  pushSegment (pair.target ++ ".json")
    (pushSegment pair.source { site.base with path := site.base.path.withoutEmptyEnd })

/-- What comes of a request for the rate of a pair. -/
def exchange (site : RateSite) (send : Transport) (pair : CurrencyPair) : Exchange :=
  send.request (site.url pair)

/-- The rate of a pair. -/
def rate (site : RateSite) (send : Transport) (pair : CurrencyPair) : Except RateFault Binary64 :=
  rateInExchange pair.target (site.exchange send pair)

/-- A site as a source of rates; its state are the URLs that hosts were asked for. -/
def source (site : RateSite) (send : Transport) : RateSource (List Url) where
  ask asked pair := (⟨0, site.rate send pair⟩, asked ++ (site.exchange send pair).asked)

end RateSite

end CurrencyDesk
