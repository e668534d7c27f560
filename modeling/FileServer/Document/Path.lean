import FileServer.Text.Basic

/-!
# Paths

A path is a text of components between slashes.  Empty components and `.` do
nothing, `..` leads to the parent directory, and every other component is a
name.  This module holds the operations that look only at the text of a path.
-/

namespace FileServer.Path

/-- The components between slashes, empty ones included. -/
def components (path : Text) : List Text :=
  path.splitAt (· == '/')

/-- The component that stays in a directory. -/
def current : Text := ['.']

/-- The component that leads to the parent directory. -/
def parent : Text := ['.', '.']

/-- Whether a path starts at the root of the file system. -/
def isAbsolute : Text → Bool
  | '/' :: _ => true
  | _ => false

/-- Whether a component does nothing. -/
def isIdle (component : Text) : Bool :=
  component.isEmpty || component == current

/-- The components that lead somewhere: names and `..`. -/
def moves (path : Text) : List Text :=
  (components path).filter fun component => !isIdle component

/-- The path of something below a directory.  An absolute path stands for
itself. -/
def join (directory relative : Text) : Text :=
  if isAbsolute relative || directory.isEmpty then relative
  else if directory.getLast? = some '/' then directory ++ relative
  else directory ++ '/' :: relative

/-- The name that a path ends in, `none` when the last step is no name. -/
def fileName? (path : Text) : Option Text :=
  match (moves path).getLast? with
  | some name => if name = parent then none else some name
  | none => none

/-- Steps without those at the end that do nothing. -/
def withoutIdleEnd (steps : List Text) : List Text :=
  (steps.reverse.dropWhile isIdle).reverse

/-- The path of the directory that a path's last step starts from.  It is a front part
of the path; it is empty when the last step is the only one. -/
def directory (path : Text) : Text :=
  let before := withoutIdleEnd (withoutIdleEnd (components path)).dropLast
  if !before.isEmpty then List.intercalate ['/'] before
  else if isAbsolute path then ['/']
  else if (components path).head? = some current then current
  else []

/-- A path without its leading slashes. -/
def relative (path : Text) : Text :=
  path.dropWhile (· == '/')

/-- The path that names lead along. -/
def ofNames (names : List Text) : Text :=
  List.intercalate ['/'] names

/-- A relative path starts with no slash. -/
theorem isAbsolute_relative (path : Text) : isAbsolute (relative path) = false := by
  induction path with
  | nil => rfl
  | cons char rest ih =>
      simp only [relative, List.dropWhile_cons]
      split
      · exact ih
      · next other =>
          simp only [isAbsolute]
          split
          · next equal =>
              simp only [List.cons.injEq] at equal
              simp [equal.1] at other
          · rfl

end FileServer.Path
