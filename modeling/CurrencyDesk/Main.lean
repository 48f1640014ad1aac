import CurrencyDesk.Terminal.Program
/-!
# The command line program

Collects the surroundings of a run, lets `Surroundings.run` decide what comes of it, and does
that: it makes directories, writes files and prints. The files that are looked at are the
configuration files that the arguments and the environment name, with the directories above
them. The input is read only where there is a use for it. This program has no connection to a
network, so that every lookup ends in a failure.
-/

namespace CurrencyDesk.Program

/-- Reads a stream to its end. -/
partial def readAll (stream : IO.FS.Stream) (sofar : ByteArray) : IO ByteArray := do
  let more ← stream.read 4096
  if more.isEmpty then return sofar else readAll stream (sofar ++ more)

/-- What is open for reading: a file, or a directory, which cannot be read. -/
def entryOf (handle : IO.FS.Handle) : IO FileEntry := do
  try
    return .file (← handle.readBinToEnd).toList
  catch _ =>
    return .directory

/-- What stands at a path. -/
def entryAt (path : String) : IO (Option FileEntry) := do
  try
    return some (← entryOf (← IO.FS.Handle.mk path .read))
  catch _ =>
    return none

/-- What stands at a path and above it. -/
def entriesTo (path : String) : IO (List (List String × FileEntry)) := do
  let parts := pathParts path
  let mut entries := []
  for n in List.range parts.length do
    let above := parts.take (n + 1)
    match ← entryAt (pathOfParts above) with
    | some entry => entries := (above, entry) :: entries
    | none => pure ()
  return entries

/-- The bytes of an environment variable. -/
def bytesOf? (name : String) : IO (Option (List UInt8)) := do
  return (← IO.getEnv name).map fun value => Text.Utf8.encode value.toList

/-- The surroundings of a run with these arguments. -/
def surroundings (arguments : List String) : IO Surroundings := do
  let locale : LocaleVariables :=
    { all := ← bytesOf? "LC_ALL", monetary := ← bytesOf? "LC_MONETARY",
      language := ← bytesOf? "LANG" }
  let home : HomeVariables :=
    { home := ← IO.getEnv "HOME", configHome := ← IO.getEnv "XDG_CONFIG_HOME" }
  let plan := (Arguments.read arguments).toOption
  let paths := (home.configPath?.toList ++ (plan.bind (·.configPath)).toList)
  let entries ← paths.mapM entriesTo
  let stdin ← IO.getStdin
  let interactive := plan.any fun plan => plan.command = .interactive
  let input ← if interactive then readAll stdin .empty else pure .empty
  let stdout ← IO.getStdout
  let plain := (← IO.getEnv "NO_COLOR").isSome
  let colors := (← stdout.isTty) && !plain
  return { locale := locale, home := home, files := ⟨entries.flatten⟩,
           input := input.toList, colors }

/-- Makes what was put into a tree. -/
def make (entry : List String × FileEntry) : IO Unit :=
  match entry with
  | (parts, .directory) => IO.FS.createDirAll (pathOfParts parts)
  | (parts, .file content) => IO.FS.writeBinFile (pathOfParts parts) content.toByteArray

end CurrencyDesk.Program

/-- Runs the program with its arguments. -/
def main (arguments : List String) : IO UInt32 := do
  let w ← CurrencyDesk.Program.surroundings arguments
  let finish := w.run arguments
  (finish.files.putSince w.files).forM CurrencyDesk.Program.make
  (← IO.getStdout).putStr finish.console.out
  (← IO.getStderr).putStr finish.console.err
  return UInt32.ofNat finish.code
