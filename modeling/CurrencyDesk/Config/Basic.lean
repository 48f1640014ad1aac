import CurrencyDesk.Settings
/-!
# The configuration

A configuration says how a bare amount is converted, where rates come from, and for how
long they are kept. Each part has a default.

Key definitions: `Config`, `Config.settings`.
-/

namespace CurrencyDesk

/-- How a bare amount is converted; a currency that is not given is found otherwise. -/
structure QuickConversion where
  direction : Direction := .localToGlobal
  localCurrency : Option String := none
  globalCurrency : Option String := none
deriving DecidableEq

/-- Where rates come from, and for how many seconds an answer is waited for. -/
structure ProviderConfig where
  baseUrl : String := "https://cdn.jsdelivr.net/gh/fawazahmed0/currency-api@1/latest/currencies"
  timeoutSeconds : Nat := 10
deriving DecidableEq

/-- For how many seconds a rate is kept. -/
structure CacheConfig where
  validitySeconds : Nat := 3600
deriving DecidableEq

/-- A configuration. -/
structure Config where
  quick : QuickConversion := {}
  provider : ProviderConfig := {}
  cache : CacheConfig := {}
deriving DecidableEq

namespace Config

/-- The settings of a configuration, in a region with the currency given. -/
def settings (regional : String) (c : Config) : Settings :=
  .make regional c.quick.direction c.quick.localCurrency c.quick.globalCurrency

/-- The validity of cached rates in milliseconds. -/
def validity (c : Config) : Nat :=
  c.cache.validitySeconds * 1000

end Config

end CurrencyDesk
