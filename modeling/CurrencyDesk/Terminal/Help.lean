/-!
# What the program says about itself

The program can be asked for its version, and for help about itself and about each of its
commands.

Key definitions: `HelpTopic`, `HelpTopic.text`, `versionLine`, `usageLine`.
-/

namespace CurrencyDesk

/-- What help can be had for. -/
inductive HelpTopic where
  | program
  | setUp
  | query
  | help
deriving DecidableEq

/-- The name of the program and its version. -/
def versionLine : String :=
  "quickfx 0.1.0\n"

/-- How the program is called. -/
def usageLine : String :=
  "Usage: quickfx [OPTIONS] [COMMAND]\n"

/-- The help for the program. -/
def programHelp : String :=
"Quick currency conversion lookups with a cached rate resolver

Usage: quickfx [OPTIONS] [COMMAND]

Commands:
  setup  Create default configuration
  query  Convert once, e.g. `quickfx query 10 usd to jpy`
  help   Print this message or the help of the given subcommand(s)

Options:
  -v, --verbose                    Enable verbose logging
  -c, --config-path <CONFIG_PATH>  Path to optional configuration file
  -h, --help                       Print help
  -V, --version                    Print version
"

/-- The help for the command that sets up. -/
def setUpHelp : String :=
"Create default configuration

Usage: quickfx setup [OPTIONS]

Options:
  -v, --verbose                    Enable verbose logging
  -c, --config-path <CONFIG_PATH>  Path to optional configuration file
  -h, --help                       Print help
"

/-- The help for queries. -/
def queryHelp : String :=
"Convert once, e.g. `quickfx query 10 usd to jpy`

Usage: quickfx query [OPTIONS] <TEXT>...

Arguments:
  <TEXT>...  \"<amount>\" or \"<amount> <from> to <to>\"

Options:
  -r, --raw                        Print only the converted amount
  -v, --verbose                    Enable verbose logging
  -c, --config-path <CONFIG_PATH>  Path to optional configuration file
  -h, --help                       Print help
"

/-- The help for the command that asks for help. -/
def helpHelp : String :=
"Print this message or the help of the given subcommand(s)

Usage: quickfx help [COMMAND]...

Arguments:
  [COMMAND]...  Print help for the subcommand(s)
"

/-- The text of the help for a topic. -/
def HelpTopic.text : HelpTopic → String
  | .program => programHelp
  | .setUp => setUpHelp
  | .query => queryHelp
  | .help => helpHelp

end CurrencyDesk
