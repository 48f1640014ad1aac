import CurrencyDesk.Config.Basic
import CurrencyDesk.Power
import CurrencyDesk.Yaml.Document
/-!
# The configuration in a YAML document

A document gives sections, and a section gives fields. What is not given has its default:
a field, a section, or all of them. A section that is given twice is refused, and so is a
field; names that are not known do not matter, whatever they are given and how often. An
alias stands for the node that it names, wherever it is.

A duration is a plain natural number below `2 ^ 64`, also in base 16, 8 or 2; a text is any
scalar as it is written; a currency may be absent, which an empty plain scalar and the
spellings of null say too; a direction is one of two names, as a text or as a tag.

Key definitions: `ConfigReading.fields?`, `ConfigReading.natural?`,
`ConfigReading.optionalText?`, `ConfigReading.direction?`, `Config.ofDocument?`,
`Config.ofText?`.
-/

namespace CurrencyDesk

namespace ConfigReading

attribute [local instance] corePow

open Yaml (Node Document ScalarStyle)

/-- The text of a scalar. -/
def scalarText? (d : Document) (node : Node) : Option (List Char) :=
  match d.resolve node with
  | .scalar _ _ text => some text
  | _ => none

/-- The names and the values of a mapping with scalars for keys; an empty plain scalar
counts as an empty mapping. -/
def fields? (d : Document) (node : Node) : Option (List (List Char × Node)) :=
  match d.resolve node with
  | .mapping _ entries =>
    entries.mapM fun (key, value) => (scalarText? d key).map (·, value)
  | .scalar .plain _ [] => some []
  | _ => none

/-- The values that fields give for a name. -/
def valuesOf (fields : List (List Char × Node)) (name : String) : List Node :=
  (fields.filter (·.1 = name.toList)).map (·.2)

/-- What fields give for a name: the default if nothing is given, what `read` makes of a
single value, and nothing at all if there are several. -/
def field? (fields : List (List Char × Node)) (name : String) (byDefault : α)
    (read : Node → Option α) : Option α :=
  match valuesOf fields name with
  | [] => some byDefault
  | [value] => read value
  | _ => none

/-! ### Natural numbers -/

/-- The value of a digit in a base up to 16. -/
def digit? (base : Nat) (c : Char) : Option Nat :=
  (Text.hexValue? c).filter (decide <| · < base)

/-- The natural number that digits in a base write, at least one. -/
def digits? (base : Nat) (s : List Char) : Option Nat :=
  if s.isEmpty then none
  else (s.mapM (digit? base)).map fun digits => digits.foldl (fun n digit => base * n + digit) 0

/-- Drops one plus sign. -/
def dropPlus : List Char → List Char
  | '+' :: s => s
  | s => s

/-- The natural number behind the mark of a base. -/
def marked? : List Char → Option Nat
  | '0' :: 'x' :: s => digits? 16 s
  | '0' :: 'o' :: s => digits? 8 s
  | '0' :: 'b' :: s => digits? 2 s
  | _ => none

/-- The decimal number that digits write, without a zero in front. -/
def decimal? : List Char → Option Nat
  | '0' :: _ :: _ => none
  | s => digits? 10 s

/-- The natural number that a plain scalar writes: one plus sign may stand in front, and
nothing else but digits of a base. Its value fits into 64 bits. -/
def number? (s : List Char) : Option Nat :=
  let s := dropPlus s
  let fits (n : Option Nat) := n.filter (decide <| · < 2 ^ (64 : Nat))
  (fits (marked? s)).or (fits (decimal? s))

/-- The tag of whole numbers. -/
def wholeNumberTag : List Char :=
  "tag:yaml.org,2002:int".toList

/-- The natural number of a plain scalar, or of a literal one with the tag of whole
numbers. -/
def natural? (d : Document) (node : Node) : Option Nat :=
  match d.resolve node with
  | .scalar .plain _ text => number? text
  | .scalar .literal (some tag) text => if tag = wholeNumberTag then number? text else none
  | _ => none

/-! ### Texts -/

/-- The string of a scalar, as it is written. -/
def text? (d : Document) (node : Node) : Option String :=
  (scalarText? d node).map String.ofList

/-- Whether a plain scalar is a spelling of null. -/
def isNull (text : List Char) : Bool :=
  ["null", "Null", "NULL", "~"].any fun name => text = name.toList

/-- The tag of null. -/
def nullTag : List Char :=
  "tag:yaml.org,2002:null".toList

/-- The text of a scalar, if there is one. A scalar that is not plain, or has a tag, is a
text; but what is tagged as null has to be a spelling of it. -/
def optionalText? (d : Document) (node : Node) : Option (Option String) :=
  match d.resolve node with
  | .scalar .plain none text =>
    if text.isEmpty || isNull text then some none else some (some (String.ofList text))
  | .scalar .plain (some tag) text =>
    if tag = nullTag then (if isNull text then some none else none)
    else some (some (String.ofList text))
  | .scalar _ _ text => some (some (String.ofList text))
  | _ => none

/-- The direction of a name. -/
def directionOfName? (name : List Char) : Option Direction :=
  if name = "local_to_global".toList then some .localToGlobal
  else if name = "global_to_local".toList then some .globalToLocal
  else none

/-- The direction that a scalar names, or that its own tag names if nothing else is
written. -/
def direction? (d : Document) (node : Node) : Option Direction :=
  match d.resolve node with
  | .scalar style (some ('!' :: name)) text =>
    if style = .plain && (text.isEmpty || isNull text) then directionOfName? name else none
  | .scalar _ _ text => directionOfName? text
  | _ => none

/-! ### Sections -/

/-- The section on bare amounts. -/
def quickConversion? (d : Document) (node : Node) : Option QuickConversion := do
  let fields ← fields? d node
  let direction ← field? fields "direction" .localToGlobal (direction? d)
  let localCurrency ← field? fields "local_currency" none (optionalText? d)
  let globalCurrency ← field? fields "global_currency" none (optionalText? d)
  return ⟨direction, localCurrency, globalCurrency⟩

/-- The section on the source of rates. -/
def provider? (d : Document) (node : Node) : Option ProviderConfig := do
  let fields ← fields? d node
  let byDefault : ProviderConfig := {}
  let baseUrl ← field? fields "base_url" byDefault.baseUrl (text? d)
  let timeoutSeconds ← field? fields "timeout_secs" byDefault.timeoutSeconds (natural? d)
  return ⟨baseUrl, timeoutSeconds⟩

/-- The section on the cache. -/
def cache? (d : Document) (node : Node) : Option CacheConfig := do
  let fields ← fields? d node
  let byDefault : CacheConfig := {}
  let validitySeconds ← field? fields "validity_secs" byDefault.validitySeconds (natural? d)
  return ⟨validitySeconds⟩

/-- All sections. -/
def config? (d : Document) (node : Node) : Option Config := do
  let fields ← fields? d node
  let quick ← field? fields "quick_conversion" {} (quickConversion? d)
  let provider ← field? fields "provider" {} (provider? d)
  let cache ← field? fields "cache" {} (cache? d)
  return ⟨quick, provider, cache⟩

end ConfigReading

namespace Config

/-- The configuration that a document gives, if it gives one. -/
def ofDocument? (d : Yaml.Document) : Option Config :=
  match d.root with
  | none => some {}
  | some node => ConfigReading.config? d node

/-- The configuration in a YAML text, if it gives one. -/
def ofText? (text : List Char) : Option Config :=
  match Yaml.Document.ofText text with
  | .ok d => ofDocument? d
  | .error _ => none

end Config

end CurrencyDesk
