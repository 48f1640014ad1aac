import CurrencyDesk.Yaml.Token
/-!
# The tree of a YAML document

A document is a tree of scalars, sequences and mappings. A node may carry a tag, and an
anchor under which aliases refer to it. Anchors are numbered: an anchor has as its number
the count of names known before it, so a name that is given anew shares its number with the
next new name, and a number belongs to the node that took it last. `Document.resolve`
follows an alias to its node, which is never an alias itself.

Key definitions: `Node`, `Document`, `Document.resolve`.
-/

namespace CurrencyDesk.Yaml

/-- A node of a document. -/
inductive Node where
  | scalar (style : ScalarStyle) (tag : Option (List Char)) (text : List Char)
  | sequence (tag : Option (List Char)) (items : List Node)
  | mapping (tag : Option (List Char)) (entries : List (Node × Node))
  | alias (number : Nat)

/-- The node of a value that is not written. -/
def Node.empty : Node :=
  .scalar .plain none []

/-- A document: its node, none if the text is empty; and what the numbers of anchors
belong to. Each anchored node has a place, and each number lists its places, the last one
first. -/
structure Document where
  root : Option Node
  places : List (Nat × Nat) := []
  anchored : List (Nat × Node) := []

/-- The node that a number of an anchor belongs to. -/
def Document.target? (d : Document) (number : Nat) : Option Node :=
  (d.places.lookup number).bind fun place => d.anchored.lookup place

/-- The node that a node stands for: the target of an alias, and itself otherwise. -/
def Document.resolve (d : Document) : Node → Node
  | .alias number => (d.target? number).getD .empty
  | node => node

end CurrencyDesk.Yaml
