import FileServer.Startup
import Std.Time.DateTime.Timestamp

/-!
# The command line

The program reads its arguments, its environment, the clock, and what lies on the
way to its log file, and starts.  What the start writes goes to the standard output,
the standard error and the log files, and its status ends the program.  The working
directory is the tree that the log file is looked for from.  The event loop itself is
driven, turn by turn, by whoever has the sockets.
-/

namespace FileServer.CommandLine

/-- The variables of the environment that the program reads. -/
def watched : List String :=
  Logger.filterVariable :: Choice.all.map Choice.variableName

/-- The log file that arguments and environment choose. -/
def logPath (arguments : List Text) (environment : List (String × Text)) : Text :=
  match Settings.choose arguments environment with
  | .ok settings => settings.logFile.getD []
  | .error _ => []

/-- The path of a location. -/
def pathOf (location : Location) : String :=
  String.ofList (Path.ofNames location)

/-- The environment as far as the program reads it. -/
def readEnvironment : IO (List (String × Text)) :=
  watched.filterMapM fun name => do
    return (← IO.getEnv name).map fun value => (name, value.toList)

/-- The directories and files that are met on a way, up to the first that is not
there.  The content of files is not read. -/
def survey : Location → List Text → FileTree → IO FileTree
  | _, [], tree => return tree
  | here, name :: rest, tree => do
      if name = Path.parent then
        survey here.parent rest tree
      else
        let there := here ++ [name]
        let path := (← IO.currentDir) / pathOf there
        if ← path.isDir then
          survey there rest (tree.put there (.directory FileTree.defaultDirectoryMode))
        else if ← path.pathExists then
          return tree.put there (.file { content := [], mode := FileTree.defaultFileMode })
        else
          return tree

/-- Makes the directories of a tree, and appends the content of its files to theirs. -/
def store (tree : FileTree) : IO Unit :=
  tree.entries.forM fun (location, entry) =>
    match entry with
    | .directory _ => IO.FS.createDirAll (pathOf location)
    | .file file => do
        let handle ← IO.FS.Handle.mk (pathOf location) .append
        handle.write ⟨file.content.toArray⟩

/-- Starts the program with arguments, and returns its status. -/
def run (words : List String) : IO UInt32 := do
  let arguments := words.map String.toList
  let environment ← readEnvironment
  let moment := (← Std.Time.Timestamp.now).toSecondsSinceUnixEpoch.val
  let path := logPath arguments environment
  let tree ← survey (.ofStart path) (Path.moves path) (FileTree.empty FileTree.defaultDirectoryMode)
  match Surroundings.start { arguments, environment, moment, tree } with
  | .exit exit =>
      IO.print exit.output
      IO.eprint exit.errors
      return UInt32.ofNat exit.code
  | .ready _ logger =>
      let closed := logger.close moment
      IO.eprint (String.ofList closed.errorText)
      store (closed.files tree)
      return 0

end FileServer.CommandLine

/-- The program. -/
def main (words : List String) : IO UInt32 :=
  FileServer.CommandLine.run words
