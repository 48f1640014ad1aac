import CurrencyDesk.Text.LowerTable
import CurrencyDesk.Text.UpperTable
import CurrencyDesk.Text.CaseProperties
/-!
# Lower and upper case of a text

Currency codes are compared in lower case and shown in upper case, by the full case
mappings of Unicode. A character has one form in either case, whatever stands around
it, with one exception: a capital sigma that ends a word becomes the final small
sigma. It ends a word when the nearest character before it that is not looked
through is a letter with case, and the nearest one behind it is not. `lowerAfter`
carries the first of these along from left to right.

Key definitions: `lower`, `upper`, `lowerAfter`, `lowerForm`, `upperForm`.
-/

namespace CurrencyDesk.Text

/-- The lower case form of a character by itself. -/
def lowerForm (c : Char) : List Char :=
  if c = '\u0130' then ['i', '\u0307'] else [formIn lowerRuns c]

/-- The upper case form of a character. -/
def upperForm (c : Char) : List Char :=
  match upperExpansions.lookup c.toNat with
  | some form => form.map Char.ofNat
  | none => [formIn upperRuns c]

/-- Whether the first character that is not looked through is a letter with case. -/
def startsCased (s : List Char) : Bool :=
  match s.dropWhile isCaseIgnorable with
  | [] => false
  | c :: _ => isCased c

/-- The lower case of a text behind another one; `afterCased` tells whether the last
character there that is not looked through is a letter with case. -/
def lowerAfter (afterCased : Bool) : List Char → List Char
  | [] => []
  | c :: s =>
    let form :=
      if c = 'Σ' then [if afterCased && !startsCased s then 'ς' else 'σ'] else lowerForm c
    form ++ lowerAfter (if isCaseIgnorable c then afterCased else isCased c) s

/-- The lower case of a text. -/
def lower (s : List Char) : List Char :=
  lowerAfter false s

/-- The upper case of a text. -/
def upper (s : List Char) : List Char :=
  s.flatMap upperForm

/-- The lower case of a string. -/
def lowerString (s : String) : String :=
  String.ofList (lower s.toList)

/-- The upper case of a string. -/
def upperString (s : String) : String :=
  String.ofList (upper s.toList)

end CurrencyDesk.Text
