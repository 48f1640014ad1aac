import CurrencyDesk.Currency.Region
import CurrencyDesk.Text.Blank
/-!
# Settings of a bare amount

A query of one amount is converted between two currencies of the settings: the local
one and the global one, in the direction that is set. A currency that is missing or
blank falls back to the regional currency and to US dollars; so both currencies of
settings that are made here hold something, and no white space at their ends.

A host gives settings as named options. Of several values for one name the last one
counts, even when it is blank, and names that are not known do not matter.

Key definitions: `Direction`, `Settings`, `Settings.make`, `Settings.Choices.take`,
`Settings.ofOptions`, `Settings.defaultPair`.
-/

namespace CurrencyDesk

/-- Which way a bare amount is converted. -/
inductive Direction where
  | localToGlobal
  | globalToLocal
deriving DecidableEq

/-- The direction that a host's choice stands for: `1` is from the global currency
to the local one, and all else the other way. -/
def Direction.ofChoice (choice : String) : Direction :=
  if Text.trim choice.toList = ['1'] then .globalToLocal else .localToGlobal

/-- The currencies of a bare amount, and the direction between them. -/
structure Settings where
  direction : Direction
  localCurrency : String
  globalCurrency : String
deriving DecidableEq

namespace Settings

/-- A currency without the white space at its ends, if anything is left of it. -/
def nonBlank? (currency : Option String) : Option String :=
  ((currency.map fun s => Text.trim s.toList).filter (!·.isEmpty)).map String.ofList

/-- Settings with the currencies that are given and not blank. -/
def make (regional : String) (direction : Direction)
    (localCurrency globalCurrency : Option String) : Settings where
  direction := direction
  localCurrency := (nonBlank? localCurrency).getD regional
  globalCurrency := (nonBlank? globalCurrency).getD globalCurrencyDefault

/-- The settings where nothing is given. -/
def byDefault (regional : String) : Settings :=
  make regional .localToGlobal none none

/-- The name of the option for the direction. -/
def directionOption : String := "QuickConversionDirection"

/-- The name of the option for the local currency. -/
def localCurrencyOption : String := "QuickConversionLocalCurrency"

/-- The name of the option for the global currency. -/
def globalCurrencyOption : String := "QuickConversionGlobalCurrency"

/-- What options have said so far about the direction and the two currencies. -/
structure Choices where
  direction : Direction := .localToGlobal
  localCurrency : Option String := none
  globalCurrency : Option String := none
deriving DecidableEq

/-- Takes one more option: its value counts instead of an earlier one of its name, and a name
that is not known changes nothing. -/
def Choices.take (c : Choices) (option : String × String) : Choices :=
  let (name, value) := option
  if name = directionOption then { c with direction := .ofChoice value }
  else if name = localCurrencyOption then { c with localCurrency := some value }
  else if name = globalCurrencyOption then { c with globalCurrency := some value }
  else c

/-- The settings that a host's named options stand for. -/
def ofOptions (regional : String) (options : List (String × String)) : Settings :=
  let c := options.foldl Choices.take {}
  make regional c.direction c.localCurrency c.globalCurrency

/-- The source and the target currency of a bare amount. -/
def defaultPair (s : Settings) : String × String :=
  match s.direction with
  | .localToGlobal => (s.localCurrency, s.globalCurrency)
  | .globalToLocal => (s.globalCurrency, s.localCurrency)

end Settings

end CurrencyDesk
