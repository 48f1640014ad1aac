import CurrencyDesk.Url.Host
/-!
# Reading URLs

Control characters and spaces around a URL do not count, and tabs and line breaks nowhere in
it. Under a special scheme any number of slashes leads to the host, a backslash is as good as
a slash, and there has to be a host, but for files. Under any other scheme two slashes lead
to the host, which may be empty, and without a slash the path has no root. In a rooted path
a segment of one point stands for nothing and one of two points takes back the segment in
front of it.

A text without a scheme is no URL by itself; `Url.resolve?` reads it as it is meant where it
was found under a URL of the web.

Key definitions: `Url.walk`, `Url.ofText?`, `Url.resolve?`.
-/

namespace CurrencyDesk.Url

/-! ### Parts of the text -/

/-- Whether a character parts the segments of a path. -/
def isSlash (special : Bool) (c : Char) : Bool :=
  c = '/' || (special && c = '\\')

/-- Whether a character counts nowhere in a URL. -/
def isSkipped (c : Char) : Bool :=
  ['\t', '\n', '\r'].contains c

/-- Drops what does not count: control characters and spaces at both ends, and tabs and line
breaks. -/
def clean (s : List Char) : List Char :=
  let outer (c : Char) : Bool := c.toNat ≤ 0x20
  let inner := ((s.dropWhile outer).reverse.dropWhile outer).reverse
  inner.filter (!isSkipped ·)

/-- Cuts a text at the first of some character, and drops that. -/
def cutAt (mark : Char) (s : List Char) : List Char × Option (List Char) :=
  match s.span (· ≠ mark) with
  | (before, _ :: after) => (before, some after)
  | (before, []) => (before, none)

/-- Cuts a text at the last of some character, and drops that. -/
def cutAtLast (mark : Char) (s : List Char) : Option (List Char × List Char) :=
  match cutAt mark s.reverse with
  | (after, some before) => some (before.reverse, after.reverse)
  | (_, none) => none

/-- Takes a scheme off the front of a text, in lower case. -/
def splitScheme? (s : List Char) : Option (List Char × List Char) :=
  match s.span fun c => c.isAlphanum || ['+', '-', '.'].contains c with
  | (first :: more, ':' :: rest) =>
    if first.isAlpha then some ((first :: more).map Char.toLower, rest) else none
  | _ => none

/-- The parts of a text behind the scheme, the last two without their marks. -/
structure Body where
  text : List Char
  query : Option (List Char)
  fragment : Option (List Char)

/-- Cuts a text behind the scheme into its parts. -/
def Body.ofText (s : List Char) : Body :=
  let (s, fragment) := cutAt '#' s
  let (s, query) := cutAt '?' s
  ⟨s, query, fragment⟩

/-! ### Paths -/

/-- Whether a segment stands for nothing. -/
def isSingleDot (segment : List Char) : Bool :=
  [".", "%2e"].contains (String.ofList (segment.map Char.toLower))

/-- Whether a segment takes back the one in front of it. -/
def isDoubleDot (segment : List Char) : Bool :=
  ["..", ".%2e", "%2e.", "%2e%2e"].contains (String.ofList (segment.map Char.toLower))

/-- Follows segments from a list of those that were passed. What is passed ends with an empty
segment if the last one is dots. -/
def walk (passed : List (List Char)) : List (List Char) → List (List Char)
  | [] => passed
  | segment :: rest =>
    let place := if rest.isEmpty then [[]] else []
    if isDoubleDot segment then walk (passed.dropLast ++ place) rest
    else if isSingleDot segment then walk (passed ++ place) rest
    else walk (passed ++ [segment]) rest

/-- The segments of a text behind a slash, from those that were passed. -/
def walkText (special : Bool) (passed : List (List Char)) (s : List Char) : List (List Char) :=
  walk passed ((Text.splitWhen (isSlash special) s).map (escape isPathEscaped))

/-- The segments of a path that is empty or begins with a slash. -/
def segmentsOf (special : Bool) : List Char → List (List Char)
  | [] => if special then [[]] else []
  | _ :: s => walkText special [] s

/-! ### Hosts -/

/-- Cuts a text at the first colon that is not in brackets, and drops that. -/
def cutPort (bracketed : Bool) : List Char → List Char × Option (List Char)
  | [] => ([], none)
  | c :: s =>
    if c = ':' && !bracketed then ([], some s)
    else
      let (host, port) := cutPort (c = '[' || (bracketed && c ≠ ']')) s
      (c :: host, port)

/-- The port that a text writes, and what stands behind it: nothing, or something that a
backslash begins. -/
def port? (s : List Char) : Option (Option Nat × List Char) :=
  let (digits, rest) := s.span Char.isDigit
  let port := Nat.ofDigitChars 10 digits 0
  if 65535 < port || !(rest.isEmpty || rest.head? = some '\\') then none
  else some (if digits.isEmpty then none else some port, rest)

/-- Reads credentials into a URL. -/
def withCredentials (u : Url) (s : List Char) : Url :=
  let (username, password) := cutAt ':' s
  { u with
    username := escape isUserEscaped username
    password := escape isUserEscaped (password.getD []) }

/-- Reads a host into a URL, under a scheme that needs one if it is special. What stands in
front of the host must not be there without one. -/
def withHost? (u : Url) (host : List Char) (needed : Bool) : Option Url :=
  if host.isEmpty then
    if needed || !u.username.isEmpty || !u.password.isEmpty then none
    else some { u with host := none }
  else
    (if isSpecial u.scheme then Host.ofSpecial? host else Host.ofOther? host).map fun host =>
      { u with host := some host }

/-- The URL of a scheme with a query and a fragment, and no path yet. -/
def ofBody (scheme : List Char) (body : Body) : Url where
  scheme := scheme
  path := .rooted []
  query := body.query.map (escape (isQueryEscaped (isSpecial scheme)))
  fragment := body.fragment.map (escape isFragmentEscaped)

/-- Reads what stands behind the slashes in front of a host. -/
def withAuthority? (scheme : List Char) (body : Body) : Option Url := do
  let special := isSpecial scheme
  let (authority, path) := body.text.span (!isSlash special ·)
  let u := ofBody scheme body
  let ends := path.isEmpty && body.query.isNone && body.fragment.isNone
  let (u, place, bare) :=
    match cutAtLast '@' authority with
    | some (credentials, place) => (u.withCredentials credentials, place, credentials.isEmpty)
    | none => (u, authority, false)
  let (host, port) := cutPort false place
  let needed := special || port.isSome || (bare && place.isEmpty && !ends)
  let u ← u.withHost? host needed
  let (port, rest) ← port? (port.getD [])
  let path := if rest.isEmpty then path else '/' :: rest ++ path
  return { u with
    port := port.filter fun port => defaultPort? scheme ≠ some port
    path := .rooted (segmentsOf special path) }

/-- Whether a text is a letter that names a drive. -/
def isDrive : List Char → Bool
  | [c, mark] => c.isAlpha && (mark = ':' || mark = '|')
  | _ => false

/-- Reads a host and a path into the URL of a file. -/
def fileWithHost? (u : Url) (s : List Char) : Option Url := do
  let (host, path) := s.span (!isSlash true ·)
  if isDrive host then some { u with path := .rooted (segmentsOf true ('/' :: s)) }
  else
    let u ← u.withHost? host false
    return { u with
      host := u.host.filter (· ≠ .name "localhost".toList)
      path := .rooted (segmentsOf true path) }

/-- Reads what stands behind the scheme of a file. -/
def ofFile? (scheme : List Char) (body : Body) : Option Url :=
  let u := ofBody scheme body
  match body.text.span (isSlash true) with
  | (_ :: _ :: _, _) => u.fileWithHost? (body.text.drop 2)
  | ([_], _) => some { u with path := .rooted (segmentsOf true body.text) }
  | ([], _) => some { u with path := .rooted (segmentsOf true ('/' :: body.text)) }

/-! ### Whole URLs -/

/-- Reads what stands behind a scheme. -/
def ofScheme? (scheme : List Char) (body : Body) : Option Url :=
  if scheme = "file".toList then ofFile? scheme body
  else if isSpecial scheme then
    withAuthority? scheme { body with text := body.text.dropWhile (isSlash true) }
  else
    let u := ofBody scheme body
    match body.text with
    | '/' :: '/' :: s => withAuthority? scheme { body with text := s }
    | '/' :: s => some { u with path := .rooted (segmentsOf false ('/' :: s)) }
    | s => some { u with path := .rootless (escape isControl s) }

/-- Reads a URL. -/
def ofText? (s : List Char) : Option Url :=
  (splitScheme? (clean s)).bind fun (scheme, rest) => ofScheme? scheme (.ofText rest)

/-- Reads a text that was found under a URL of the web and begins behind its scheme. -/
def resolveBody? (base : Url) (body : Body) : Option Url :=
  let u := { ofBody base.scheme body with
    username := base.username, password := base.password, host := base.host, port := base.port }
  match body.text.span (isSlash true) with
  | (_ :: _ :: _, rest) => withAuthority? base.scheme { body with text := rest }
  | ([_], rest) => some { u with path := .rooted (walkText true [] rest) }
  | ([], []) =>
    some { u with path := base.path, query := if body.query.isSome then u.query else base.query }
  | ([], rest) =>
    some { u with path := .rooted (walkText true base.path.segments.dropLast rest) }

/-- Reads a text that was found under a URL of the web. -/
def resolve? (base : Url) (s : List Char) : Option Url :=
  match splitScheme? (clean s) with
  | none => resolveBody? base (.ofText (clean s))
  | some (scheme, rest) =>
    let body := Body.ofText rest
    let slashes := (body.text.takeWhile (isSlash true)).length
    if scheme = base.scheme ∧ slashes < 2 then resolveBody? base body else ofScheme? scheme body

end CurrencyDesk.Url
