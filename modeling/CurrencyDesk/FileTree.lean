import CurrencyDesk.Text.Split
/-!
# Files by their paths

The part of a file system that the program looks at: what is known to stand at a path. A
path is read as its parts between slashes, of which the empty ones and single points do not
count. A file is written only where a directory is, and directories are made down to a path
unless a file is in the way. Nothing is ever removed.

Key definitions: `FileTree`, `FileTree.stands`, `FileTree.read?`, `FileTree.write?`,
`FileTree.makeDirectories?`, `FileTree.putSince`, `joinPath`.
-/

namespace CurrencyDesk

/-- What stands at a path. -/
inductive FileEntry where
  | file (content : List UInt8)
  | directory
deriving DecidableEq

/-- Puts a name behind a path. -/
def joinPath (path name : String) : String :=
  if path.isEmpty then name
  else if path.toList.getLast? = some '/' then path ++ name
  else path ++ "/" ++ name

/-- Whether a path begins at the root. -/
def isAbsolutePath (path : String) : Bool :=
  path.toList.head? = some '/'

/-- The parts of a path, with the root as one of them. -/
def pathParts (path : String) : List String :=
  let names := (Text.splitWhen (· = '/') path.toList).filter fun s => s ≠ [] && s ≠ ['.']
  (if isAbsolutePath path then ["/"] else []) ++ names.map String.ofList

/-- The path with these parts. -/
def pathOfParts (parts : List String) : String :=
  parts.foldl joinPath ""

/-- What is known to stand at paths. -/
structure FileTree where
  entries : List (List String × FileEntry) := []
deriving DecidableEq

namespace FileTree

/-- What stands at the path with these parts. -/
def at? (t : FileTree) (parts : List String) : Option FileEntry :=
  t.entries.lookup parts

/-- Whether anything stands at a path. -/
def stands (t : FileTree) (path : String) : Bool :=
  (t.at? (pathParts path)).isSome

/-- The content of the file at a path. -/
def read? (t : FileTree) (path : String) : Option (List UInt8) :=
  match t.at? (pathParts path) with
  | some (.file content) => some content
  | _ => none

/-- Puts something at the path with these parts. -/
def put (t : FileTree) (parts : List String) (entry : FileEntry) : FileTree :=
  ⟨(parts, entry) :: t.entries⟩

/-- Makes a directory unless there is one; a file in its place is in the way. -/
def makeDirectory? (t : FileTree) (parts : List String) : Option FileTree :=
  match t.at? parts with
  | some .directory => some t
  | some (.file _) => none
  | none => some (t.put parts .directory)

/-- Makes the directories of a path from the top down, below those of `above`. -/
def makeBelow? (above : List String) (t : FileTree) : List String → Option FileTree
  | [] => some t
  | name :: names =>
    (t.makeDirectory? (above ++ [name])).bind fun t => makeBelow? (above ++ [name]) t names

/-- Makes the directories down to a path. -/
def makeDirectories? (t : FileTree) (path : String) : Option FileTree :=
  makeBelow? [] t (pathParts path)

/-- Writes a file in a directory. -/
def write? (t : FileTree) (path : String) (content : List UInt8) : Option FileTree :=
  let parts := pathParts path
  match t.at? parts, t.at? parts.dropLast with
  | some .directory, _ => none
  | _, some .directory => some (t.put parts (.file content))
  | _, _ => none

/-- What was put into a tree since it was like `earlier`, in the order of time. -/
def putSince (t earlier : FileTree) : List (List String × FileEntry) :=
  (t.entries.take (t.entries.length - earlier.entries.length)).reverse

end FileTree

end CurrencyDesk
