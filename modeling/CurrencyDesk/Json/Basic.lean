import CurrencyDesk.Binary64.Shortest
import CurrencyDesk.Text.Hexadecimal
/-!
# JSON values

A JSON document as a value. Whole numbers that fit into 64 bits are kept as such, all others
as binary64 numbers. The members of an object are kept as they are written; of several with
one name the last one counts, and an object is printed with the others left out and its
names in order. The printed form has no blanks.

Key definitions: `Json`, `Json.member?`, `Json.Number.toBinary64`, `Json.compact`.
-/

namespace CurrencyDesk

/-- A number of a document. -/
inductive Json.Number where
  | whole (n : Int)
  | float (x : Binary64.Finite)
deriving DecidableEq

/-- A JSON value. -/
inductive Json where
  | null
  | bool (b : Bool)
  | number (n : Json.Number)
  | string (s : List Char)
  | array (items : List Json)
  | object (members : List (List Char × Json))

namespace Json

/-- The binary64 number nearest to a number of a document. -/
def Number.toBinary64 : Number → Binary64
  | .whole n => .ofInt n
  | .float x => .finite x

/-- The last member of a name, if the value is an object and has one. -/
def member? (name : List Char) : Json → Option Json
  | .object members => members.reverse.lookup name
  | _ => none

/-- A character in a printed string. -/
def escape (c : Char) : List Char :=
  match c with
  | '"' => ['\\', '"']
  | '\\' => ['\\', '\\']
  | '\x08' => ['\\', 'b']
  | '\x0C' => ['\\', 'f']
  | '\n' => ['\\', 'n']
  | '\r' => ['\\', 'r']
  | '\t' => ['\\', 't']
  | c =>
    if c.toNat < 0x20 then
      ['\\', 'u', '0', '0', Text.hexDigit (c.toNat / 16), Text.hexDigit (c.toNat % 16)]
    else [c]

/-- A string as it is printed. -/
def quote (s : List Char) : List Char :=
  '"' :: s.flatMap escape ++ ['"']

/-- A number as it is printed. -/
def Number.compact : Number → List Char
  | .whole n => Text.signed (decide (n < 0)) (Nat.toDigits 10 n.natAbs)
  | .float x => x.scientific

/-- Puts commas between printed items. -/
def commas : List (List Char) → List Char
  | [] => []
  | [item] => item
  | item :: items => item ++ ',' :: commas items

/-- Puts a printed member in its place by name, instead of one with its name. -/
def placeMember (name printed : List Char) :
    List (List Char × List Char) → List (List Char × List Char)
  | [] => [(name, printed)]
  | (n, p) :: rest =>
    if name = n then (name, printed) :: rest
    else if name < n then (name, printed) :: (n, p) :: rest
    else (n, p) :: placeMember name printed rest

/-- Members in order of their names, the last one of each name. -/
def sortMembers (members : List (List Char × List Char)) : List (List Char × List Char) :=
  members.foldl (fun sorted m => placeMember m.1 m.2 sorted) []

mutual

/-- A value as it is printed. -/
def compact : Json → List Char
  | .null => "null".toList
  | .bool true => "true".toList
  | .bool false => "false".toList
  | .number n => n.compact
  | .string s => quote s
  | .array items => '[' :: commas (compactItems items) ++ [']']
  | .object members =>
    '{' :: commas ((sortMembers (compactMembers members)).map fun m => quote m.1 ++ ':' :: m.2) ++
      ['}']

/-- Items as they are printed. -/
def compactItems : List Json → List (List Char)
  | [] => []
  | item :: items => compact item :: compactItems items

/-- Members as they are printed, with their names. -/
def compactMembers : List (List Char × Json) → List (List Char × List Char)
  | [] => []
  | (name, value) :: members => (name, compact value) :: compactMembers members

end

end Json

end CurrencyDesk
