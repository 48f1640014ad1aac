import CurrencyDesk.Config.File
import CurrencyDesk.Remote.Site
import CurrencyDesk.Terminal.Arguments
import CurrencyDesk.Terminal.Session
/-!
# A run of the program

A run sees its surroundings: the environment, files, its input, and a transport that waits
for an answer for some milliseconds at most. It does what its arguments say and ends with a
code: 0 if that was done, 1 with the text of a failure, or 2 for misuse. Only setting up
changes files.

Key definitions: `Surroundings`, `Outcome`, `Surroundings.convert`, `Surroundings.setUp`,
`Surroundings.run`.
-/

namespace CurrencyDesk

/-- What a run sees of the world around it. -/
structure Surroundings where
  locale : LocaleVariables := {}
  home : HomeVariables := {}
  files : FileTree := {}
  input : List UInt8 := []
  colors : Bool := false
  network : (milliseconds : Nat) → Transport := fun _ => .unreachable

/-- What a command does: its result, what it prints, the URLs that hosts are asked for, and
the files afterwards. -/
structure Outcome where
  result : Except Failure Unit
  console : Console := {}
  asked : List Url := []
  files : FileTree

/-- How the program ends. -/
structure Finish where
  code : Nat
  console : Console
  asked : List Url
  files : FileTree

/-- What is to be converted: one text, or the lines of the input. -/
inductive Task where
  | query (text : String) (raw : Bool)
  | lines
deriving DecidableEq

namespace Surroundings

/-- Reads the configuration file that is named, or else the one at the default path. -/
def config (w : Surroundings) : Option String → Except Failure Config
  | some path => Config.load w.files path
  | none => Config.loadDefault w.files w.home

/-- The source of rates of a configuration. -/
def source (w : Surroundings) (config : Config) : Except Failure (RateSource (List Url)) :=
  match RateSite.ofText config.provider.baseUrl with
  | .error _ => .error .unusableSource
  | .ok site => .ok (site.source (w.network (config.provider.timeoutSeconds * 1000)))

/-- A session with the settings of a configuration. -/
def session (w : Surroundings) (config : Config) : Session (List Url) where
  desk := .fresh (config.settings w.locale.currency) config.validity
  state := []

/-- Does a task in a session. -/
def perform (w : Surroundings) (source : RateSource (List Url)) (s : Session (List Url)) :
    Task → Except Failure Unit × Session (List Url)
  | .query text raw => s.runQuery source w.colors text raw
  | .lines => s.runInteractive source w.colors w.input

/-- Does a task with a configuration. -/
def convertWith (w : Surroundings) (task : Task) (config : Config) : Outcome :=
  match w.source config with
  | .error failure => { result := .error failure, files := w.files }
  | .ok source =>
    let (result, s) := w.perform source (w.session config) task
    { result := result, console := s.console, asked := s.state, files := w.files }

/-- Does a task with the configuration at a path, or at the default path. -/
def convert (w : Surroundings) (task : Task) (path : Option String) : Outcome :=
  match w.config path with
  | .error failure => { result := .error failure, files := w.files }
  | .ok config => w.convertWith task config

/-- Sets up the configuration file. -/
def setUp (w : Surroundings) : Outcome :=
  match CurrencyDesk.setUp w.files w.home with
  | .error failure => { result := .error failure, files := w.files }
  | .ok (path, files) =>
    { result := .ok (), console := { err := "Created default configuration at " ++ path ++ "\n" },
      files := files }

/-- Does what arguments say. -/
def obey (w : Surroundings) (arguments : Arguments) : Outcome :=
  match arguments.command with
  | .interactive => w.convert .lines arguments.configPath
  | .query text raw => w.convert (.query text raw) arguments.configPath
  | .setUp => w.setUp

/-- Ends the program with an outcome. -/
def finish (outcome : Outcome) : Finish :=
  match outcome.result with
  | .ok () => ⟨0, outcome.console, outcome.asked, outcome.files⟩
  | .error failure =>
    let console := outcome.console
    ⟨1, { console with err := console.err ++ "Error: " ++ failure.message ++ "\n" }, outcome.asked,
      outcome.files⟩

/-- Ends the program before there is anything to do. -/
def finishEarly (w : Surroundings) : Ending → Finish
  | .misuse => ⟨2, { err := usageLine }, [], w.files⟩
  | .help topic => ⟨0, { out := topic.text }, [], w.files⟩
  | .version => ⟨0, { out := versionLine }, [], w.files⟩

/-- Runs the program. -/
def run (w : Surroundings) (arguments : List String) : Finish :=
  match Arguments.read arguments with
  | .error ending => w.finishEarly ending
  | .ok arguments => finish (w.obey arguments)

end Surroundings

end CurrencyDesk
