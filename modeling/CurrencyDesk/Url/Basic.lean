/-!
# URLs

A URL has a scheme, most often a host, a path, and perhaps a query and a fragment. The path
of a URL is rooted, and then it is a list of segments, or it is one text that nothing can be
put on. The special schemes, those of the web and of files among them, always have a rooted
path, with one segment at least. All texts are kept with their escapes.

Key definitions: `Url`, `Host`, `Url.Path`, `Url.target`.
-/

namespace CurrencyDesk

/-- Where a URL leads: a name, or an address of one of the two kinds. -/
inductive Host where
  | name (labels : List Char)
  | address4 (value : Nat)
  | address6 (pieces : List Nat)
deriving DecidableEq

namespace Url

/-- The path of a URL. -/
inductive Path where
  | rooted (segments : List (List Char))
  | rootless (text : List Char)
deriving DecidableEq

/-- The segments of a path. -/
def Path.segments : Path → List (List Char)
  | .rooted segments => segments
  | .rootless _ => []

/-- A path as it is written. -/
def Path.text : Path → List Char
  | .rooted segments => segments.flatMap ('/' :: ·)
  | .rootless text => text

/-- The special schemes, with the ports that they have unless another one is given. -/
def specialSchemes : List (List Char × Option Nat) :=
  [("http".toList, some 80), ("https".toList, some 443), ("ws".toList, some 80),
   ("wss".toList, some 443), ("ftp".toList, some 21), ("file".toList, none)]

/-- Whether a scheme is special. -/
def isSpecial (scheme : List Char) : Bool :=
  (specialSchemes.lookup scheme).isSome

/-- The port that a scheme has unless another one is given. -/
def defaultPort? (scheme : List Char) : Option Nat :=
  (specialSchemes.lookup scheme).join

end Url

/-- A URL. The port is given only where it is not that of the scheme. -/
structure Url where
  scheme : List Char
  username : List Char := []
  password : List Char := []
  host : Option Host := none
  port : Option Nat := none
  path : Url.Path
  query : Option (List Char) := none
  fragment : Option (List Char) := none
deriving DecidableEq

namespace Url

/-- A part that is there or not, behind the character that begins it. -/
def behind (mark : Char) : Option (List Char) → List Char
  | some text => mark :: text
  | none => []

/-- What a request asks the host for: the path and the query. -/
def target (u : Url) : List Char :=
  u.path.text ++ behind '?' u.query

/-- Whether the resources of a scheme are asked for over the web. -/
def isWeb (u : Url) : Bool :=
  u.scheme = "http".toList || u.scheme = "https".toList

/-- A URL whose path has no root as it is written. -/
def rootlessText (u : Url) : List Char :=
  u.scheme ++ ':' :: u.target ++ behind '#' u.fragment

end Url

end CurrencyDesk
