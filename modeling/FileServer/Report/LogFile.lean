import FileServer.Document.Tree
import FileServer.Report.Calendar

/-!
# Log files

The lines of a log are spread over files.  A file's name starts with the date of
its lines.  A new file is begun when the date changes, and when a file has as
many lines as it may have; the second and later files of a day have a number at
the end of their names.

What is written is held back for a while and written out when the file is left,
when it is asked for, or when too much has come together.
-/

namespace FileServer

/-- A log and the file it writes to.

`day` is the date of the file and `count` the number of lines of that day so far;
`held` are the bytes that are not written out yet. -/
structure LogFile where
  directory : Text
  name : Text
  splitLines : Nat
  day : Nat
  count : Nat
  place : Location
  held : Bytes
  deriving DecidableEq, Repr

namespace LogFile

/-- How many bytes may be held back. -/
def heldCapacity : Nat := 8192

/-- A year with four digits at least. -/
def yearText (year : Int) : Text :=
  if year < 0 then '-' :: Decimal.padded 3 year.natAbs else Decimal.padded 4 year.natAbs

/-- The name of a file: its date, the name of the log, and a number for the second
and later files of a day. -/
def datedName (name : Text) (day : Nat) (part : Option Nat) : Text :=
  let date := Date.ofDays day
  let base := yearText date.year ++ '_' :: Decimal.padded 2 date.month ++
    '_' :: Decimal.padded 2 date.day ++ '_' :: name
  match part with
  | some number => base ++ '.' :: Decimal.digits number
  | none => base

/-- Writes out what is held back. -/
def writeOut (file : LogFile) (tree : FileTree) : LogFile × FileTree :=
  ({ file with held := [] }, tree.appendTo file.place file.held)

/-- Writes bytes.  They are held back as long as there is room for them. -/
def put (file : LogFile) (tree : FileTree) (bytes : Bytes) : LogFile × FileTree :=
  let room := heldCapacity - file.held.length
  if bytes.length < room then
    ({ file with held := file.held ++ bytes }, tree)
  else
    let (file, tree) := if room < bytes.length then file.writeOut tree else (file, tree)
    if heldCapacity ≤ bytes.length then
      (file, tree.appendTo file.place bytes)
    else
      ({ file with held := file.held ++ bytes }, tree)

/-- The directory of a log: that of its path, or the one at hand. -/
def directoryOf (path : Text) : Text :=
  if (Path.directory path).isEmpty then Path.current else Path.directory path

/-- Opens a log.  The directories on the way are made if they are missing. -/
def start (tree : FileTree) (path : Text) (splitLines today : Nat) :
    Except IoError LogFile × FileTree :=
  match Path.fileName? path with
  | none => (.error ⟨.invalidInput, "log path has no file name"⟩, tree)
  | some name =>
      let directory := directoryOf path
      match tree.makePath directory with
      | (.error kind, made) => (.error kind.system, made)
      | (.ok _, made) =>
          match made.touch (Path.join directory (datedName name today none)) with
          | .error kind => (.error kind.system, made)
          | .ok (place, touched) =>
              (.ok {
                directory
                name
                splitLines := max splitLines 1
                day := today
                count := 0
                place
                held := [] }, touched)

/-- Begins a file.  When that fails the log goes on with the file it has. -/
def beginFile (file : LogFile) (tree : FileTree) (dated : Text) :
    Except IoErrorKind Unit × LogFile × FileTree :=
  match tree.touch (Path.join file.directory dated) with
  | .error kind => (.error kind, file, tree)
  | .ok (place, touched) => (.ok (), { file with place }, touched)

/-- Begins a new file if the date has changed or the file is full. -/
def rotate (file : LogFile) (tree : FileTree) (today : Nat) :
    Except IoErrorKind Unit × LogFile × FileTree :=
  if today ≠ file.day then
    let (written, tree) := file.writeOut tree
    { written with day := today, count := 0 }.beginFile tree (datedName file.name today none)
  else if 0 < file.count ∧ file.count % file.splitLines = 0 then
    let (written, tree) := file.writeOut tree
    written.beginFile tree (datedName file.name today (some (file.count / file.splitLines)))
  else
    (.ok (), file, tree)

/-- The byte that ends a line. -/
def lineFeed : UInt8 := 10

/-- The bytes of a line, which ends with a line feed. -/
def lineBytes (line : Text) : Bytes :=
  if line.getLast? = some '\n' then line.bytes else line.bytes ++ [lineFeed]

/-- Writes the bytes of a line, and then the line feed that it lacks. -/
def putLine (file : LogFile) (tree : FileTree) (line : Text) : LogFile × FileTree :=
  let (written, later) := file.put tree line.bytes
  if line.getLast? = some '\n' then (written, later) else written.put later [lineFeed]

/-- Writes a line.  When a new file is due and cannot be begun, the line is
dropped. -/
def writeLine (file : LogFile) (tree : FileTree) (today : Nat) (line : Text) :
    Except IoErrorKind Unit × LogFile × FileTree :=
  match file.rotate tree today with
  | (.error kind, kept, rotated) => (.error kind, kept, rotated)
  | (.ok (), next, rotated) =>
      (.ok (), { next with count := next.count + 1 }.putLine rotated line)

end LogFile

end FileServer
