import CurrencyDesk.Yaml.Node
import CurrencyDesk.Yaml.Scan
/-!
# Documents from tokens

The tokens of a text are read as one document: directives, a node, and nothing behind it
but marks of its end. What may follow a token depends on the collection around it; a value,
a key or an entry that is not written is an empty plain scalar.

Key definitions: `Reader`, `Reader.node`, `Document.ofTokens`, `Document.ofText`.
-/

namespace CurrencyDesk.Yaml

/-- A reader of nodes: the tokens that are left, the declared tag handles, the numbers of
the anchors, and the anchored nodes. -/
structure Reader where
  tokens : List Token
  handles : List (List Char × List Char) := []
  names : List (List Char × Nat) := []
  places : List (Nat × Nat) := []
  anchored : List (Nat × Node) := []

/-- Reading that may fail. -/
abbrev Read := StateT Reader (Except Fault)

namespace Reader

/-- The next token; none at the end. -/
def peek : Read (Option Token) := do
  return (← get).tokens.head?

/-- Drops the next token. -/
def skip : Read Unit :=
  modify fun r => { r with tokens := r.tokens.tail }

/-- Drops the next token if it is the one given, and tells whether it was. -/
def accept (token : Token) : Read Bool := do
  if (← peek) = some token then
    skip
    return true
  else return false

/-- Whether the next token is one of those given. -/
def isNext (tokens : List Token) : Read Bool := do
  match ← peek with
  | some token => return tokens.contains token
  | none => return false

/-- The tag that a handle and a suffix write. -/
def fullTag (handle suffix : List Char) : Read (List Char) := do
  if handle.isEmpty then return suffix
  match (← get).handles.lookup handle with
  | some start => return start ++ suffix
  | none => throw .tag

/-- Numbers an anchor, and returns the place of its node. -/
def openAnchor (name : List Char) : Read Nat := do
  let r ← get
  let number := (r.names.map (·.1)).eraseDups.length
  let place := r.places.length
  set { r with names := (name, number) :: r.names, places := (number, place) :: r.places }
  return place

/-- Takes the next token, which has to be the one given. -/
def expect (token : Token) : Read Unit := do
  unless (← accept token) do throw .unexpected

/-- The number of the anchor that an alias names. -/
def anchorNumber (name : List Char) : Read Nat := do
  match (← get).names.lookup name with
  | some number => return number
  | none => throw .unknownAnchor

/-- What may stand in front of a node: an anchor, by its name, and a tag. -/
structure Properties where
  anchor : Option (List Char) := none
  tag : Option (List Char) := none

/-- Reads an anchor and a tag, in either order, if they are there. -/
def properties : Read Properties := do
  match ← peek with
  | some (.anchor name) =>
    skip
    match ← peek with
    | some (.tag handle suffix) =>
      skip
      return { anchor := some name, tag := some (← fullTag handle suffix) }
    | _ => return { anchor := some name }
  | some (.tag handle suffix) =>
    skip
    match ← peek with
    | some (.anchor name) =>
      skip
      return { anchor := some name, tag := some (← fullTag handle suffix) }
    | _ => return { tag := some (← fullTag handle suffix) }
  | _ => return {}

/-- The tag of a scalar that is written; an exclamation mark alone is none. -/
def scalarTag (tag : Option (List Char)) : Option (List Char) :=
  tag.filter (· ≠ ['!'])

/-- Keeps the node of an anchor. -/
def closeAnchor (place : Option Nat) (node : Node) : Read Node := do
  match place with
  | some place => modify fun r => { r with anchored := (place, node) :: r.anchored }
  | none => pure ()
  return node

/-- A node of which only properties are written. -/
def absent (p : Properties) : Read Node :=
  if p.anchor.isSome || p.tag.isSome then return .scalar .plain p.tag []
  else throw .unexpected

mutual

/-- Reads a node; block collections only where `inBlock`, and a block sequence without
indentation of its own where `bare`. -/
def node (inBlock bare : Bool) : (fuel : Nat) → Read Node
  | 0 => throw .unexpected
  | fuel + 1 => do
    match ← peek with
    | some (.alias name) =>
      skip
      return .alias (← anchorNumber name)
    | _ =>
      let p ← properties
      let place ← p.anchor.mapM openAnchor
      closeAnchor place (← content inBlock bare p fuel)

/-- Reads what stands behind the properties of a node. -/
def content (inBlock bare : Bool) (p : Properties) : (fuel : Nat) → Read Node
  | 0 => throw .unexpected
  | fuel + 1 => do
    match ← peek with
    | some (.scalar style text) =>
      skip
      return .scalar style (scalarTag p.tag) text
    | some .flowSequenceStart =>
      skip
      return .sequence p.tag (← flowItems true fuel)
    | some .flowMappingStart =>
      skip
      return .mapping p.tag (← flowEntries true fuel)
    | some .blockEntry =>
      if bare then return .sequence p.tag (← bareItems fuel) else absent p
    | some .blockSequenceStart =>
      if inBlock then
        skip
        return .sequence p.tag (← blockItems fuel)
      else absent p
    | some .blockMappingStart =>
      if inBlock then
        skip
        return .mapping p.tag (← blockEntries fuel)
      else absent p
    | _ => absent p

/-- Reads a node unless one of the tokens given comes next. -/
def nodeUnless (ends : List Token) (inBlock bare : Bool) : (fuel : Nat) → Read Node
  | 0 => throw .unexpected
  | fuel + 1 => do
    if (← isNext ends) then return .empty else node inBlock bare fuel

/-- Reads the items of a block sequence. -/
def blockItems : (fuel : Nat) → Read (List Node)
  | 0 => throw .unexpected
  | fuel + 1 => do
    if (← accept .blockEntry) then
      let item ← nodeUnless [.blockEntry, .blockEnd] true false fuel
      return item :: (← blockItems fuel)
    else if (← accept .blockEnd) then return []
    else throw .unexpected

/-- Reads the items of a block sequence without indentation of its own. -/
def bareItems : (fuel : Nat) → Read (List Node)
  | 0 => throw .unexpected
  | fuel + 1 => do
    if (← accept .blockEntry) then
      let item ← nodeUnless [.blockEntry, .key, .value, .blockEnd] true false fuel
      return item :: (← bareItems fuel)
    else return []

/-- Reads the entries of a block mapping. -/
def blockEntries : (fuel : Nat) → Read (List (Node × Node))
  | 0 => throw .unexpected
  | fuel + 1 => do
    if (← accept .key) then
      let ends := [Token.key, .value, .blockEnd]
      let key ← nodeUnless ends true true fuel
      let value ← if (← accept .value) then nodeUnless ends true true fuel else pure .empty
      return (key, value) :: (← blockEntries fuel)
    else if (← accept .blockEnd) then return []
    else throw .unexpected

/-- Reads the items of a flow sequence, of which a key alone is a mapping. -/
def flowItems (first : Bool) : (fuel : Nat) → Read (List Node)
  | 0 => throw .unexpected
  | fuel + 1 => do
    if (← accept .flowSequenceEnd) then return []
    unless first do expect .flowEntry
    if (← accept .key) then
      let entry ← flowPair fuel
      return .mapping none [entry] :: (← flowItems false fuel)
    else if (← accept .flowSequenceEnd) then return []
    else
      let item ← node false false fuel
      return item :: (← flowItems false fuel)

/-- Reads a key and its value among the items of a flow sequence. A key that is not written
takes the token in its place with it. -/
def flowPair : (fuel : Nat) → Read (Node × Node)
  | 0 => throw .unexpected
  | fuel + 1 => do
    let ends := [Token.flowEntry, .flowSequenceEnd]
    let key ←
      if (← isNext (.value :: ends)) then
        skip
        pure .empty
      else node false false fuel
    let value ← if (← accept .value) then nodeUnless ends false false fuel else pure .empty
    return (key, value)

/-- Reads the entries of a flow mapping. -/
def flowEntries (first : Bool) : (fuel : Nat) → Read (List (Node × Node))
  | 0 => throw .unexpected
  | fuel + 1 => do
    if (← accept .flowMappingEnd) then return []
    unless first do expect .flowEntry
    if (← accept .key) then
      let ends := [Token.flowEntry, .flowMappingEnd]
      let key ← nodeUnless (.value :: ends) false false fuel
      let value ← if (← accept .value) then nodeUnless ends false false fuel else pure .empty
      return (key, value) :: (← flowEntries false fuel)
    else if (← accept .flowMappingEnd) then return []
    else
      let key ← node false false fuel
      return (key, .empty) :: (← flowEntries false fuel)

end

/-- The tag handles that every document knows. -/
def knownHandles : List (List Char × List Char) :=
  [("!".toList, "!".toList), ("!!".toList, "tag:yaml.org,2002:".toList)]

/-- Reads the directives in front of a document; `version` tells whether one gave the
version, and `declared` are the handles of the others. -/
def directives (version : Bool) (declared : List (List Char × List Char)) :
    List Token → Except Fault (List (List Char × List Char) × List Token)
  | .versionDirective major minor :: rest =>
    if version || major ≠ 1 || (minor ≠ 1 && minor ≠ 2) then .error .directive
    else directives true declared rest
  | .tagDirective handle start :: rest =>
    if (declared.lookup handle).isSome then .error .directive
    else directives version ((handle, start) :: declared) rest
  | rest => .ok (declared ++ knownHandles, rest)

/-- Whether a token ends a document or goes in front of one. -/
def isBoundary : Token → Bool
  | .versionDirective .. => true
  | .tagDirective .. => true
  | .documentStart => true
  | .documentEnd => true
  | _ => false

end Reader

namespace Document

/-- Reads a node as the root of a document, and nothing behind it but its end. -/
def ofNode (tokens : List Token) (handles : List (List Char × List Char)) :
    Except Fault Document := do
  let (root, r) ← (Reader.node true false (4 * tokens.length + 8)).run
    { tokens := tokens, handles := handles }
  let rest := r.tokens.dropWhile (· = .documentEnd)
  if rest.isEmpty then return ⟨some root, r.places, r.anchored⟩ else throw .severalDocuments

/-- The document that tokens make up. -/
def ofTokens (tokens : List Token) : Except Fault Document := do
  match tokens with
  | [] => return ⟨none, [], []⟩
  | token :: _ =>
    if Reader.isBoundary token && token ≠ .documentEnd then
      let (handles, rest) ← Reader.directives false [] tokens
      match rest with
      | .documentStart :: rest =>
        if (rest.head?.map Reader.isBoundary).getD true then
          let rest := rest.dropWhile (· = .documentEnd)
          if rest.isEmpty then return ⟨some .empty, [], []⟩ else throw .severalDocuments
        else ofNode rest handles
      | _ => throw .directive
    else ofNode tokens Reader.knownHandles

/-- The document of a text. -/
def ofText (text : List Char) : Except Fault Document := do
  ofTokens (← tokens text)

end Document

end CurrencyDesk.Yaml
