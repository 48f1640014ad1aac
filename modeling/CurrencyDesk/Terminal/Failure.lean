/-!
# Why a run fails

What can go wrong in a run of the program, apart from a lookup that fails: a text that
is no conversion, an item that copies nothing where its text was asked for, input that
is no text, and files that cannot be read, understood or made. A run ends with the
text of its failure.

Key definitions: `Failure`, `Failure.message`.
-/

namespace CurrencyDesk

/-- Why a run fails. -/
inductive Failure where
  | notAConversion (text : String)
  | conversionFailed (text : String)
  | unreadableInput
  | unreadableConfig (path : String)
  | malformedConfig (path : String)
  | unusableSource
  | noConfigDirectory
  | configExists (path : String)
  | directoryNotMade (path : String)
  | configNotWritten (path : String)
deriving DecidableEq

namespace Failure

/-- The text of a failure. -/
def message : Failure → String
  | .notAConversion text => "Not a currency conversion: '" ++ text ++ "'"
  | .conversionFailed text => "Conversion failed for '" ++ text ++ "'"
  | .unreadableInput => "Failed to read from stdin"
  | .unreadableConfig path => "Failed to read config file: " ++ path
  | .malformedConfig path => "Failed to parse config file: " ++ path
  | .unusableSource => "Failed to create HTTP client"
  | .noConfigDirectory => "Could not determine project directories"
  | .configExists path => "Configuration file already exists at " ++ path
  | .directoryNotMade path => "Failed to create directory: " ++ path
  | .configNotWritten path => "Failed to write config file to " ++ path

end Failure

end CurrencyDesk
