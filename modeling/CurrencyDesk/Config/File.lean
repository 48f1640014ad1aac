import CurrencyDesk.Config.Document
import CurrencyDesk.FileTree
import CurrencyDesk.Terminal.Failure
import CurrencyDesk.Text.Utf8
/-!
# The configuration file

The configuration is read from a file that is named, or from the one at its default path
if there is one; without it all defaults hold. The default path lies in the directory for
configurations: where there is a home directory, that of the environment if its path begins
at the root, and one in the home directory otherwise. Setting up writes a file with the
defaults to the default path, with the directories down to it, and never over one that is
there.

Key definitions: `HomeVariables`, `HomeVariables.configPath?`, `Config.load`,
`Config.loadDefault`, `setUp`.
-/

namespace CurrencyDesk

/-- Where a user's files are: the home directory that the environment names, the one that
the account has, and the directory for configurations. -/
structure HomeVariables where
  home : Option String := none
  accountHome : Option String := none
  configHome : Option String := none

namespace HomeVariables

/-- The home directory. -/
def directory? (v : HomeVariables) : Option String :=
  (v.home.filter (!·.isEmpty)).or v.accountHome

/-- The directory for configurations. Without a home directory there is none, even where the
environment names one. -/
def configDirectory? (v : HomeVariables) : Option String :=
  v.directory?.map fun home =>
    (v.configHome.filter isAbsolutePath).getD (joinPath home ".config")

/-- The directory for the configuration of this program. -/
def programDirectory? (v : HomeVariables) : Option String :=
  v.configDirectory?.map (joinPath · "quickfx")

/-- The default path of the configuration file. -/
def configPath? (v : HomeVariables) : Option String :=
  v.programDirectory?.map (joinPath · "config.yaml")

end HomeVariables

namespace Config

/-- Reads the configuration file at a path. -/
def load (files : FileTree) (path : String) : Except Failure Config :=
  match (files.read? path).bind Text.Utf8.decode? with
  | none => .error (.unreadableConfig path)
  | some text =>
    match ofText? text with
    | some config => .ok config
    | none => .error (.malformedConfig path)

/-- Reads the configuration file at the default path, if there is one. -/
def loadDefault (files : FileTree) (v : HomeVariables) : Except Failure Config :=
  match v.configPath? with
  | none => .error .noConfigDirectory
  | some path => if files.stands path then load files path else .ok {}

/-- The text of a configuration file with the defaults. -/
def defaultText : String :=
"---
quick_conversion:
  # local_to_global or global_to_local
  direction: local_to_global
  # Empty means the currency of your locale
  local_currency: \"\"
  global_currency: \"USD\"

provider:
  base_url: \"https://cdn.jsdelivr.net/gh/fawazahmed0/currency-api@1/latest/currencies\"
  timeout_secs: 10

cache:
  validity_secs: 3600
"

end Config

/-- Writes a configuration file with the defaults to the default path, and returns the
path. -/
def setUp (files : FileTree) (v : HomeVariables) : Except Failure (String × FileTree) :=
  match v.programDirectory?, v.configPath? with
  | some directory, some path =>
    if files.stands path then .error (.configExists path)
    else
      match files.makeDirectories? directory with
      | none => .error (.directoryNotMade directory)
      | some files =>
        match files.write? path (Text.Utf8.encode Config.defaultText.toList) with
        | none => .error (.configNotWritten path)
        | some files => .ok (path, files)
  | _, _ => .error .noConfigDirectory

end CurrencyDesk
