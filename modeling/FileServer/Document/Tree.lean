import FileServer.Document.Path
import FileServer.IoError

/-!
# File trees

A file tree is a directory with everything below it.  Each entry is found at a
location, the list of names that leads to it from that directory.  Paths are
followed one component at a time; what they pass through has to be a directory,
also when the component does nothing, so that a slash behind the name of a file
is an error.

A path can leave the directory.  What lies outside is kept in the same way, but
it is no part of the tree.
-/

namespace FileServer

/-- The names that lead to an entry.  Outside of the tree the first of them is `..`, or
empty for the root of the file system, where absolute paths start. -/
abbrev Location := List Text

namespace Location

/-- The root of the file system. -/
def fileSystem : Location := [[]]

/-- Whether a location is the directory of the tree or one that this lies in. -/
def isAbove (location : Location) : Bool :=
  location.all (· == Path.parent)

/-- The directory that a location lies in.  The root of the file system lies in
itself. -/
def parent (location : Location) : Location :=
  if location.isAbove then location ++ [Path.parent]
  else if location = fileSystem then fileSystem
  else location.dropLast

/-- Whether a location lies outside of the tree. -/
def isOutside : Location → Bool
  | first :: _ => first == Path.parent || first.isEmpty
  | [] => false

/-- Where a path starts. -/
def ofStart (path : Text) : Location :=
  if Path.isAbsolute path then fileSystem else []

end Location

/-- A regular file.  A file with a gate makes whoever opens it wait until the gate is
open. -/
structure File where
  content : Bytes
  mode : Nat
  gate : Option Text := none
  deriving DecidableEq, Repr

/-- What a location holds. -/
inductive Entry where
  | directory (mode : Nat)
  | file (file : File)
  deriving DecidableEq, Repr

/-- The permission bits of an entry. -/
def Entry.mode : Entry → Nat
  | .directory mode => mode
  | .file stored => stored.mode

/-- A directory and all entries below it.  A path that ends in the steps of a barred one
can be looked up, but what it leads to cannot be opened. -/
structure FileTree where
  rootMode : Nat
  entries : List (Location × Entry)
  barred : List (List Text) := []
  deriving DecidableEq, Repr

namespace FileTree

/-- The longest name of an entry, in bytes. -/
def maxNameSize : Nat := 255

/-- The longest path, in bytes. -/
def maxPathSize : Nat := 4095

/-- Mode of directories that are made on the way. -/
def defaultDirectoryMode : Nat := 0o755

/-- Mode of files that the server makes. -/
def defaultFileMode : Nat := 0o644

/-- A tree with nothing below its root. -/
def empty (rootMode : Nat) : FileTree :=
  { rootMode, entries := [] }

/-- The entry at a location. -/
def entry? (tree : FileTree) (location : Location) : Option Entry :=
  if location.isEmpty then
    some (.directory tree.rootMode)
  else if location.isAbove || location == Location.fileSystem then
    some (.directory defaultDirectoryMode)
  else
    tree.entries.lookup location

/-- Puts an entry at a location, in the place of what was there. -/
def put (tree : FileTree) (location : Location) (entry : Entry) : FileTree :=
  { tree with
    entries := tree.entries.filter (fun (other, _) => other != location) ++ [(location, entry)] }

/-- Bars a path. -/
def bar (tree : FileTree) (path : Text) : FileTree :=
  { tree with barred := Path.moves path :: tree.barred }

/-- Whether the system refuses to open what a path leads to. -/
def isBarred (tree : FileTree) (path : Text) : Bool :=
  tree.barred.any fun steps => steps.isSuffixOf (Path.moves path)

/-- Refuses what can be no path for the system. -/
def check (path : Text) : Except IoErrorKind Unit :=
  if path.contains '\x00' then .error .invalidInput
  else if maxPathSize < path.byteSize then .error .invalidFilename
  else .ok ()

/-- Follows the components of a path from a location. -/
def walk (tree : FileTree) : Location → List Text → Except IoErrorKind Location
  | here, [] => .ok here
  | here, component :: rest =>
      match tree.entry? here with
      | none => .error .notFound
      | some (.file _) => .error .notADirectory
      | some (.directory _) =>
          if Path.isIdle component then
            tree.walk here rest
          else if component = Path.parent then
            tree.walk here.parent rest
          else if maxNameSize < component.byteSize then
            .error .invalidFilename
          else
            match tree.entry? (here ++ [component]) with
            | none => .error .notFound
            | some _ => tree.walk (here ++ [component]) rest

/-- The location that a path leads to. -/
def locate (tree : FileTree) (path : Text) : Except IoErrorKind Location :=
  if path.isEmpty then
    .error .notFound
  else
    match check path with
    | .error kind => .error kind
    | .ok () => tree.walk (.ofStart path) (Path.components path)

/-- The entry that a path leads to. -/
def find (tree : FileTree) (path : Text) : Except IoErrorKind Entry := do
  let location ← tree.locate path
  match tree.entry? location with
  | some entry => .ok entry
  | none => .error .notFound

/-- Makes every directory on the way from a location that is not there yet, and
returns the place reached.  What was made before a failure stays.

A file on the way is noticed when a directory is looked for in it, or, if it comes
last or behind a directory that had to be made, when it is found in the place of a
directory. -/
def makeDirectories (tree : FileTree) (hasMade : Bool) :
    Location → List Text → Except IoErrorKind Location × FileTree
  | here, [] => (.ok here, tree)
  | here, component :: rest =>
      if component = Path.parent then
        tree.makeDirectories hasMade here.parent rest
      else if maxNameSize < component.byteSize then
        (.error .invalidFilename, tree)
      else
        let there := here ++ [component]
        match tree.entry? there with
        | some (.directory _) => tree.makeDirectories hasMade there rest
        | some (.file _) =>
            (.error (if rest.isEmpty || hasMade then .alreadyExists else .notADirectory), tree)
        | none => (tree.put there (.directory defaultDirectoryMode)).makeDirectories true there rest

/-- Makes the directory of a path and those on the way that are not there yet. -/
def makePath (tree : FileTree) (path : Text) : Except IoErrorKind Location × FileTree :=
  match check path with
  | .error kind => (.error kind, tree)
  | .ok () => tree.makeDirectories false (.ofStart path) (Path.moves path)

/-- Puts an entry where a path leads to, and makes the directories on the way.  The
root only gets the mode of the entry. -/
def place (tree : FileTree) (path : Text) (entry : Entry) : FileTree :=
  let location := Location.ofStart path ++ Path.moves path
  if location.isEmpty then
    { tree with rootMode := entry.mode }
  else
    (tree.makeDirectories false (.ofStart path) (Path.moves path).dropLast).2.put location entry

/-- Makes sure that there is a regular file where a path leads to, which keeps its
content if it is there already, and returns its location. -/
def touch (tree : FileTree) (path : Text) : Except IoErrorKind (Location × FileTree) := do
  check path
  if tree.isBarred path then
    throw .permissionDenied
  let steps := Path.components path
  let directory ← tree.walk (.ofStart path) steps.dropLast
  let name := steps.getLast?.getD []
  if Path.isIdle name || name = Path.parent then
    throw .isADirectory
  if maxNameSize < name.byteSize then
    throw .invalidFilename
  let location := directory ++ [name]
  match tree.entry? location with
  | some (.directory _) => throw .isADirectory
  | some (.file _) => return (location, tree)
  | none => return (location, tree.put location (.file { content := [], mode := defaultFileMode }))

/-- Appends bytes to the file at a location; without a file there, nothing
changes. -/
def appendTo (tree : FileTree) (location : Location) (bytes : Bytes) : FileTree :=
  match tree.entry? location with
  | some (.file file) => tree.put location (.file { file with content := file.content ++ bytes })
  | _ => tree

/-- All regular files of the tree with their locations, in the order of names. -/
def files (tree : FileTree) : List (Location × File) :=
  let found := tree.entries.filterMap fun (location, entry) =>
    match entry with
    | .file file => if location.isOutside then none else some (location, file)
    | .directory _ => none
  found.mergeSort fun (left, _) (right, _) => Text.listNotAfter left right

end FileTree

end FileServer
