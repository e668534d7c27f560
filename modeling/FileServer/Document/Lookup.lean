import FileServer.Document.Tree
import FileServer.Response.Status

/-!
# Looking up a requested file

A request is answered with a file that exists, that everyone may read, that is
no directory, and that can be opened.  The tests are made in this order, and the
first that fails decides the status of the error answer.  An empty file is never
opened.
-/

namespace FileServer

/-- The permission bit that lets everyone read. -/
def readableByAll : Nat := 0o004

/-- The path of what a request asks for: the requested path below the document
root, without the slashes it starts with. -/
def documentPath (root url : Text) : Text :=
  Path.join root (Path.relative url)

namespace FileTree

/-- The file at a path, or the status that says why it is not served. -/
def lookup (tree : FileTree) (path : Text) : Except Status File :=
  match tree.find path with
  | .error _ => .error .notFound
  | .ok entry =>
      if entry.mode &&& readableByAll = 0 then
        .error .forbidden
      else
        match entry with
        | .directory _ => .error .badRequest
        | .file stored =>
            if !stored.content.isEmpty && tree.isBarred path then
              .error .internalServerError
            else
              .ok stored

/-- The gate that whoever serves a path has to pass.  Only a file that is opened
has one. -/
def gate? (tree : FileTree) (path : Text) : Option Text :=
  match tree.lookup path with
  | .ok stored => if stored.content.isEmpty then none else stored.gate
  | .error _ => none

end FileTree

end FileServer
