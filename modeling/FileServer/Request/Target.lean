import FileServer.Text.Ascii

/-!
# Request targets

A target is a path, or an absolute address whose path is used.  The path starts
with a slash, a question mark ends it, and it may not climb: no segment between
slashes is `..`.
-/

namespace FileServer.Target

/-- The scheme that may stand in front of an address. -/
def scheme : Text := "http://".toList

/-- Drops the scheme and everything up to the next slash.  A target without the
scheme is left alone; an address without a later slash has no path. -/
def withoutAuthority? (target : Text) : Option Text :=
  if Ascii.sameText (target.take scheme.length) scheme then
    match (target.drop scheme.length).dropWhile (· != '/') with
    | [] => none
    | path => some path
  else
    some target

/-- The part in front of the first question mark. -/
def withoutQuery (target : Text) : Text :=
  target.takeWhile (· != '?')

/-- The segments between slashes. -/
def segments (path : Text) : List Text :=
  path.splitAt (· == '/')

/-- The segment that names the parent directory. -/
def parent : Text := "..".toList

/-- The path that a target asks for, if the target is acceptable. -/
def path? (target : Text) : Option Text := do
  let address ← withoutAuthority? target
  match address with
  | '/' :: _ =>
      let path := withoutQuery address
      if (segments path).contains parent then none else some path
  | _ => none

end FileServer.Target
