import CurrencyDesk.Text.Case
import CurrencyDesk.Text.Split
import CurrencyDesk.Text.Utf8
/-!
# The currency of a region

A locale name such as `de_AT.UTF-8@euro` names a region between its first two
separators. The encoding and the variant behind a point or an at-sign do not matter,
nor does the letter case of the region. The regional currency is that of the first
locale variable that is set to a non-empty text, and US dollars where that names no
known region.

Key definitions: `regionCurrencies`, `localeCurrency?`, `LocaleVariables`,
`LocaleVariables.currency`.
-/

namespace CurrencyDesk

/-- The regions with a known currency. -/
def regionCurrencies : List (String × String) :=
  [("AT", "EUR"), ("BE", "EUR"), ("CY", "EUR"), ("DE", "EUR"), ("EE", "EUR"), ("ES", "EUR"),
   ("FI", "EUR"), ("FR", "EUR"), ("GR", "EUR"), ("HR", "EUR"), ("IE", "EUR"), ("IT", "EUR"),
   ("LT", "EUR"), ("LU", "EUR"), ("LV", "EUR"), ("MT", "EUR"), ("NL", "EUR"), ("PT", "EUR"),
   ("SI", "EUR"), ("SK", "EUR"), ("US", "USD"), ("GB", "GBP"), ("CH", "CHF"), ("LI", "CHF"),
   ("JP", "JPY"), ("CN", "CNY"), ("IN", "INR"), ("CA", "CAD"), ("AU", "AUD"), ("NZ", "NZD"),
   ("BR", "BRL"), ("MX", "MXN"), ("AR", "ARS"), ("CL", "CLP"), ("CO", "COP"), ("KR", "KRW"),
   ("TW", "TWD"), ("HK", "HKD"), ("SG", "SGD"), ("TH", "THB"), ("ID", "IDR"), ("MY", "MYR"),
   ("PH", "PHP"), ("VN", "VND"), ("RU", "RUB"), ("UA", "UAH"), ("PL", "PLN"), ("CZ", "CZK"),
   ("HU", "HUF"), ("RO", "RON"), ("BG", "BGN"), ("SE", "SEK"), ("NO", "NOK"), ("DK", "DKK"),
   ("IS", "ISK"), ("TR", "TRY"), ("IL", "ILS"), ("SA", "SAR"), ("AE", "AED"), ("EG", "EGP"),
   ("ZA", "ZAR"), ("NG", "NGN"), ("KE", "KES")]

/-- The currency where nothing else is known, US dollars. -/
def globalCurrencyDefault : String := "USD"

/-- The characters that end the name proper of a locale. -/
def endsLocaleName (c : Char) : Bool :=
  c = '.' || c = '@'

/-- The characters between the parts of a locale name. -/
def separatesSubtags (c : Char) : Bool :=
  c = '_' || c = '-'

/-- The region that a locale names, in upper case: the second part of its name. -/
def localeRegion? (locale : List Char) : Option (List Char) :=
  let name := (Text.splitWhen endsLocaleName locale).headD []
  (Text.splitWhen separatesSubtags name)[1]?.map Text.upper

/-- The currency of the region that a locale names. -/
def localeCurrency? (locale : List Char) : Option String :=
  (localeRegion? locale).bind fun region => regionCurrencies.lookup (String.ofList region)

/-- The variables that may hold the locale, as bytes, in their order of precedence. -/
structure LocaleVariables where
  all : Option (List UInt8) := none
  monetary : Option (List UInt8) := none
  language : Option (List UInt8) := none

namespace LocaleVariables

/-- The text of a variable that is set to well-formed bytes, at least one. -/
def text? (value : Option (List UInt8)) : Option (List Char) :=
  (value.bind Text.Utf8.decode?).filter (!·.isEmpty)

/-- The text of the first variable that has one. -/
def locale? (v : LocaleVariables) : Option (List Char) :=
  [v.all, v.monetary, v.language].findSome? text?

/-- The currency of the region that the deciding variable names, and US dollars
when it names none. -/
def currency (v : LocaleVariables) : String :=
  (v.locale?.bind localeCurrency?).getD globalCurrencyDefault

end LocaleVariables

end CurrencyDesk
