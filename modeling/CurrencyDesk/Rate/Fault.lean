import CurrencyDesk.Currency.Pair
/-!
# Why a lookup fails

A source of rates answers a pair with a rate or with a fault: nothing came back, it
came too late, the answer had a bad status, was no document, had no rate for the
pair, or held something else in its place. The text of a failed lookup names the
pair. It never becomes part of the cache.

Key definitions: `RateFault`, `LookupError`, `LookupError.message`.
-/

namespace CurrencyDesk

/-- Why a source has no rate for a pair. -/
inductive RateFault where
  | request
  | timeout
  | status (code : Nat)
  | malformed
  | missing
  | invalid (value : String)
deriving DecidableEq

/-- The reasons that are registered for status codes. -/
def statusReasons : List (Nat × String) :=
  [(100, "Continue"), (101, "Switching Protocols"), (102, "Processing"), (103, "Early Hints"),
   (200, "OK"), (201, "Created"), (202, "Accepted"), (203, "Non Authoritative Information"),
   (204, "No Content"), (205, "Reset Content"), (206, "Partial Content"), (207, "Multi-Status"),
   (208, "Already Reported"), (226, "IM Used"),
   (300, "Multiple Choices"), (301, "Moved Permanently"), (302, "Found"), (303, "See Other"),
   (304, "Not Modified"), (305, "Use Proxy"), (307, "Temporary Redirect"),
   (308, "Permanent Redirect"),
   (400, "Bad Request"), (401, "Unauthorized"), (402, "Payment Required"), (403, "Forbidden"),
   (404, "Not Found"), (405, "Method Not Allowed"), (406, "Not Acceptable"),
   (407, "Proxy Authentication Required"), (408, "Request Timeout"), (409, "Conflict"),
   (410, "Gone"), (411, "Length Required"), (412, "Precondition Failed"),
   (413, "Payload Too Large"), (414, "URI Too Long"), (415, "Unsupported Media Type"),
   (416, "Range Not Satisfiable"), (417, "Expectation Failed"), (418, "I'm a teapot"),
   (421, "Misdirected Request"), (422, "Unprocessable Entity"), (423, "Locked"),
   (424, "Failed Dependency"), (425, "Too Early"), (426, "Upgrade Required"),
   (428, "Precondition Required"), (429, "Too Many Requests"),
   (431, "Request Header Fields Too Large"), (451, "Unavailable For Legal Reasons"),
   (500, "Internal Server Error"), (501, "Not Implemented"), (502, "Bad Gateway"),
   (503, "Service Unavailable"), (504, "Gateway Timeout"), (505, "HTTP Version Not Supported"),
   (506, "Variant Also Negotiates"), (507, "Insufficient Storage"), (508, "Loop Detected"),
   (510, "Not Extended"), (511, "Network Authentication Required")]

/-- A status code with the reason that is registered for it. -/
def statusText (code : Nat) : String :=
  code.repr ++ " " ++ (statusReasons.lookup code).getD "<unknown status code>"

/-- A lookup that failed: the pair, and the fault of the source. -/
structure LookupError where
  pair : CurrencyPair
  fault : RateFault
deriving DecidableEq

namespace LookupError

/-- The text of a failed lookup. -/
def message (e : LookupError) : String :=
  let pair := e.pair.label
  match e.fault with
  | .request => "Request error for currency pair " ++ pair
  | .timeout => "Request timed out for currency pair: " ++ pair
  | .status code => "HTTP error: " ++ statusText code ++ " for currency pair: " ++ pair
  | .malformed => "Failed to parse JSON response for " ++ pair
  | .missing => "No rate data found for currency pair: " ++ pair
  | .invalid value => "Invalid rate " ++ value ++ " for currency pair: " ++ pair

end LookupError

end CurrencyDesk
