import CurrencyDesk.Terminal.Help
/-!
# Arguments of the command line

The arguments begin with switches of the program; then a command may follow, with switches
of its own, and for a query with its text. A switch has a long form behind two hyphens and a
short one behind one, where short ones may stand side by side. The one that takes a value
takes what stands behind it in the same argument, with or without an equals sign, or else the
next argument, unless that is a switch. A switch that is given twice at one place is misuse,
and so is all that is not known; those that only ask for information answer at once.

A query may begin with anything that is no known switch, also with a hyphen. From its first
word on, or behind two hyphens alone, all arguments belong to the text.

Key definitions: `Arguments`, `Command`, `Ending`, `Arguments.read`.
-/

namespace CurrencyDesk

/-- What the program is to do. -/
inductive Command where
  | interactive
  | query (text : String) (raw : Bool)
  | setUp
deriving DecidableEq

/-- What arguments say: a command, and perhaps the path of a configuration file. -/
structure Arguments where
  command : Command
  configPath : Option String
deriving DecidableEq

/-- Why nothing is to be done: for misuse, or because information was asked for. -/
inductive Ending where
  | misuse
  | help (topic : HelpTopic)
  | version
deriving DecidableEq

/-- What a switch is for. -/
inductive Switch where
  | verbose
  | configPath
  | raw
  | help
  | version
deriving DecidableEq

/-- The switches that were given at one place. -/
structure Given where
  verbose : Bool := false
  raw : Bool := false
  configPath : Option String := none
deriving DecidableEq

namespace Given

/-- Takes a switch without a value, at a place with help of its own. -/
def give (g : Given) (topic : HelpTopic) : Switch → Except Ending Given
  | .verbose => if g.verbose then .error .misuse else .ok { g with verbose := true }
  | .raw => if g.raw then .error .misuse else .ok { g with raw := true }
  | .configPath => .error .misuse
  | .help => .error (.help topic)
  | .version => .error .version

/-- Takes the path of a configuration file. -/
def givePath (g : Given) (path : String) : Except Ending Given :=
  if g.configPath.isSome then .error .misuse else .ok { g with configPath := some path }

end Given

/-- A place where switches stand: which ones it has, its help, and whether text may follow. -/
structure SwitchPlace where
  switches : List (Char × String × Switch)
  topic : HelpTopic
  takesText : Bool

namespace SwitchPlace

/-- The switches of every place. -/
def common : List (Char × String × Switch) :=
  [('v', "verbose", .verbose), ('c', "config-path", .configPath), ('h', "help", .help)]

/-- The place in front of the command. -/
def front : SwitchPlace :=
  ⟨('V', "version", .version) :: common, .program, false⟩

/-- The place behind the command that sets up. -/
def setUp : SwitchPlace :=
  ⟨common, .setUp, false⟩

/-- The place in front of the text of a query. -/
def query : SwitchPlace :=
  ⟨('r', "raw", .raw) :: common, .query, true⟩

/-- The switch with a short form. -/
def short? (p : SwitchPlace) (c : Char) : Option Switch :=
  (p.switches.find? (·.1 = c)).map (·.2.2)

/-- The switch with a long form. -/
def long? (p : SwitchPlace) (name : List Char) : Option Switch :=
  (p.switches.find? (·.2.1.toList = name)).map (·.2.2)

/-- Cuts a text at the first equals sign. -/
def cutValue (s : List Char) : List Char × Option (List Char) :=
  match s.span (· ≠ '=') with
  | (name, _ :: value) => (name, some value)
  | (name, []) => (name, none)

/-- The switches behind an argument, and whether the next one is the value of the last. -/
abbrev Taken := Except Ending (Given × Bool)

/-- Takes a switch in its long form. -/
def takeLong (p : SwitchPlace) (g : Given) (switch : Switch) (value : Option (List Char)) : Taken :=
  match switch, value with
  | .configPath, some path => (g.givePath (String.ofList path)).map (·, false)
  | .configPath, none => if g.configPath.isSome then .error .misuse else .ok (g, true)
  | _, some _ => .error .misuse
  | switch, none => (g.give p.topic switch).map (·, false)

/-- Takes short forms that stand side by side. -/
def takeShorts (p : SwitchPlace) (g : Given) : List Char → Taken
  | [] => .ok (g, false)
  | c :: letters =>
    match p.short? c, letters with
    | none, _ => .error .misuse
    | some .configPath, [] => p.takeLong g .configPath none
    | some .configPath, '=' :: path => p.takeLong g .configPath (some path)
    | some .configPath, path => p.takeLong g .configPath (some path)
    | some switch, letters =>
      match g.give p.topic switch with
      | .error ending => .error ending
      | .ok g => p.takeShorts g letters

/-- What an argument is at a place: text, two hyphens alone, or switches. -/
inductive Reading where
  | text
  | escape
  | switches (taken : Taken)

/-- Reads an argument. Where text may follow, what is no known switch is text. -/
def readArgument (p : SwitchPlace) (g : Given) (argument : String) : Reading :=
  match argument.toList with
  | ['-', '-'] => .escape
  | ['-'] => .text
  | '-' :: '-' :: s =>
    let (name, value) := cutValue s
    match p.long? name with
    | some switch => .switches (p.takeLong g switch value)
    | none => if p.takesText then .text else .switches (.error .misuse)
  | '-' :: letters =>
    if p.takesText && letters.any fun c => (p.short? c).isNone then .text
    else .switches (p.takeShorts g letters)
  | _ => .text

/-- The end of the switches at a place: what was given, the arguments that are left, and
whether two hyphens alone stand in front of them. -/
structure Rest where
  given : Given
  left : List String
  escaped : Bool

/-- Takes the switches off the front of arguments, the first of which is a value if one is
`due`. -/
def take (p : SwitchPlace) (g : Given) (due : Bool) : List String → Except Ending Rest
  | [] => if due then .error .misuse else .ok ⟨g, [], false⟩
  | argument :: arguments =>
    match p.readArgument g argument, due with
    | .text, true =>
      match g.givePath argument with
      | .error ending => .error ending
      | .ok g => p.take g false arguments
    | .text, false => .ok ⟨g, argument :: arguments, false⟩
    | .escape, false => .ok ⟨g, arguments, true⟩
    | .switches (.error ending), false => .error ending
    | .switches (.ok (g, due)), false => p.take g due arguments
    | _, true => .error .misuse

end SwitchPlace

namespace Arguments

/-- What help is asked for with the names of commands. -/
def helpTopic? : List String → Option HelpTopic
  | [] => some .program
  | ["setup"] => some .setUp
  | ["query"] => some .query
  | ["help"] => some .help
  | _ => none

/-- Ends with the help that is asked for. -/
def readHelp (names : List String) : Ending :=
  match helpTopic? names with
  | some topic => .help topic
  | none => .misuse

/-- Reads the arguments of a query. -/
def readQuery (arguments : List String) : Except Ending (Given × Command) :=
  match SwitchPlace.query.take {} false arguments with
  | .error ending => .error ending
  | .ok rest =>
    if rest.left.isEmpty then .error .misuse
    else .ok (rest.given, .query (" ".intercalate rest.left) rest.given.raw)

/-- Reads the arguments of the command that sets up. -/
def readSetUp (arguments : List String) : Except Ending (Given × Command) :=
  match SwitchPlace.setUp.take {} false arguments with
  | .error ending => .error ending
  | .ok rest => if rest.left.isEmpty then .ok (rest.given, .setUp) else .error .misuse

/-- Reads a command and its arguments. -/
def readCommand : List String → Except Ending (Given × Command)
  | [] => .ok ({}, .interactive)
  | "setup" :: arguments => readSetUp arguments
  | "query" :: arguments => readQuery arguments
  | "help" :: names => .error (readHelp names)
  | _ => .error .misuse

/-- Reads arguments. A path behind the command counts before one in front of it. -/
def read (arguments : List String) : Except Ending Arguments :=
  match SwitchPlace.front.take {} false arguments with
  | .error ending => .error ending
  | .ok rest =>
    if rest.escaped && !rest.left.isEmpty then .error .misuse
    else
      match readCommand rest.left with
      | .error ending => .error ending
      | .ok (given, command) => .ok ⟨command, given.configPath.or rest.given.configPath⟩

end Arguments

end CurrencyDesk
