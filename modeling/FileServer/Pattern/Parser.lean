import FileServer.Pattern.Bracket
import FileServer.Pattern.Opening

/-!
# Reading patterns

A pattern is read from left to right.  What stands before an open group waits until the
group is closed.

Numbers of repetitions and other things in braces are not read, since the field that a
pattern belongs to ends with its first closing brace.
-/

namespace FileServer.Pattern

/-- How deep a pattern can be nested. -/
def maxHeight : Nat := 250

/-- A group that is being read: its flags, its branches before the current one and the parts
of that, the last ones first. -/
structure Level where
  signs : List FlagSign := []
  spaced : Bool := false
  branches : List Pattern := []
  parts : List Pattern := []
  deriving Repr

namespace Level

/-- Adds a part to the current branch. -/
def add (level : Level) (part : Pattern) : Level :=
  { level with parts := part :: level.parts }

/-- Begins another branch. -/
def branch (level : Level) : Level :=
  { level with branches := ofConcatenation level.parts.reverse :: level.branches, parts := [] }

/-- Repeats the last part of the current branch, if it has one that is more than flags. -/
def repeat? (level : Level) : Option Level :=
  match level.parts with
  | [] | .flags _ :: _ => none
  | part :: others => some { level with parts := .repetition part :: others }

/-- What the level has read. -/
def body (level : Level) : Pattern :=
  ofAlternation (level.branch.branches.reverse)

end Level

/-- What is read so far: the innermost level, those around it, and the names of groups. -/
structure Reader where
  level : Level := {}
  outer : List Level := []
  names : List Text := []
  deriving Repr

namespace Reader

/-- Adds a part. -/
def add (reader : Reader) (part : Pattern) : Reader :=
  { reader with level := reader.level.add part }

/-- Goes on behind an opening parenthesis.  Each name is given once. -/
def open? (reader : Reader) : Opening → Option Reader
  | .flags signs =>
      let spaced := (setting? .spaced signs).getD reader.level.spaced
      some { reader with level := { reader.level.add (.flags signs) with spaced } }
  | .group name signs =>
      if name.any reader.names.contains then
        none
      else
        some {
          level := { signs, spaced := (setting? .spaced signs).getD reader.level.spaced }
          outer := reader.level :: reader.outer
          names := name.toList ++ reader.names }

/-- Closes the innermost group. -/
def close? (reader : Reader) : Option Reader :=
  match reader.outer with
  | [] => none
  | surrounding :: others =>
      let group := Pattern.group reader.level.signs reader.level.body
      some { reader with level := surrounding.add group, outer := others }

/-- Reads what a text starts with. -/
def step? (reader : Reader) : Text → Option (Reader × Text)
  | [] => none
  | char :: rest =>
      match char with
      | '(' => do
          let (opening, rest) ← opening? reader.level.spaced rest
          return (← reader.open? opening, rest)
      | ')' => reader.close?.map fun reader => (reader, rest)
      | '|' => some ({ reader with level := reader.level.branch }, rest)
      | '[' =>
          (CharClass.parse? reader.level.spaced rest).map fun (chars, rest) =>
            (reader.add (.set chars), rest)
      | '?' | '*' | '+' =>
          reader.level.repeat?.map fun level =>
            ({ reader with level }, if rest.head? = some '?' then rest.tail else rest)
      | '{' => none
      | '\\' => (escape? reader.level.spaced rest).map fun (part, rest) => (reader.add part, rest)
      | '.' => some (reader.add .dot, rest)
      | '^' | '$' => some (reader.add .edge, rest)
      | _ => some (reader.add (.one { char }), rest)

/-- Reads a text to its end.  As many steps are made as there is fuel, and each of them reads
a character at least. -/
def run? : Nat → Reader → Text → Option Reader
  | 0, _, _ => none
  | fuel + 1, reader, text =>
      match skip reader.level.spaced text with
      | [] => some reader
      | text =>
          match reader.step? text with
          | some (next, rest) => next.run? fuel rest
          | none => none

/-- The pattern that is read when all groups are closed. -/
def finish? (reader : Reader) : Option Pattern :=
  if reader.outer.isEmpty then some reader.level.body else none

end Reader

/-- Reads a pattern that is not nested too deep. -/
def parse? (text : Text) : Option Pattern := do
  let pattern ← (← Reader.run? (text.length + 1) {} text).finish?
  if pattern.height ≤ maxHeight then some pattern else none

end FileServer.Pattern
