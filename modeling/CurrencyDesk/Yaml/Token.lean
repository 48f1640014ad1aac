/-!
# Tokens of a YAML text

A YAML text is read in two passes: into tokens, and from tokens into a tree of nodes. The
indentation of block collections is gone from the tokens: what opens one and what ends one
are tokens of their own, and so is the begin of a key, which stands in front of it even
when the text shows only the colon behind it.

Key definitions: `Token`, `ScalarStyle`, `Fault`.
-/

namespace CurrencyDesk.Yaml

/-- Why a text is no single YAML document. -/
inductive Fault where
  /-- A character stands where it may not. -/
  | character
  /-- A directive is unknown, repeated or of another version. -/
  | directive
  /-- An indicator stands where nothing of its kind can begin. -/
  | misplaced
  /-- A key has no colon. -/
  | keyWithoutValue
  /-- A tab stands among the spaces of an indentation. -/
  | tabIndentation
  /-- An anchor or an alias has no name. -/
  | anchor
  /-- A tag is malformed, or its handle is not declared. -/
  | tag
  /-- An escape sequence is unknown or stands for no character. -/
  | escape
  /-- A quoted scalar does not end. -/
  | unclosed
  /-- A collection or a document goes on with what does not belong there. -/
  | unexpected
  /-- An alias names no anchor before it. -/
  | unknownAnchor
  /-- A second document follows. -/
  | severalDocuments
deriving DecidableEq

/-- The ways to write a scalar. -/
inductive ScalarStyle where
  | plain
  | singleQuoted
  | doubleQuoted
  | literal
  | folded
deriving DecidableEq

/-- The tokens of a text. -/
inductive Token where
  | versionDirective (major minor : Nat)
  | tagDirective (handle start : List Char)
  | documentStart
  | documentEnd
  | blockSequenceStart
  | blockMappingStart
  | blockEnd
  | flowSequenceStart
  | flowSequenceEnd
  | flowMappingStart
  | flowMappingEnd
  | blockEntry
  | flowEntry
  | key
  | value
  | alias (name : List Char)
  | anchor (name : List Char)
  | tag (handle suffix : List Char)
  | scalar (style : ScalarStyle) (text : List Char)
deriving DecidableEq

end CurrencyDesk.Yaml
