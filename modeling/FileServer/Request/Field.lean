import FileServer.Text.Ascii
import FileServer.Text.Blank
import FileServer.Text.Decimal

/-!
# Header fields

Three fields matter: `Connection`, `Content-Length` and `Host`.  A line without
a colon, or with any other name, is ignored.  Names and values lose white space
at both ends; names are compared without regard to case.
-/

namespace FileServer

/-- What a header line says to the server. -/
inductive Field where
  /-- Whether the client asks to keep the connection open. -/
  | connection (keepAlive : Bool)
  /-- The length of the body. -/
  | contentLength (length : Nat)
  /-- A length that is not a number of machine size. -/
  | badLength
  /-- The name of the host addressed. -/
  | host (name : Text)
  /-- Nothing that matters here. -/
  | ignored
  deriving DecidableEq, Repr

/-- Reads one header line. -/
def Field.ofLine (line : Text) : Field :=
  match line.cut? ':' with
  | none => .ignored
  | some (name, value) =>
      let name := name.trimmed
      let value := value.trimmed
      if Ascii.sameText name "Connection".toList then
        .connection (Ascii.sameText value "keep-alive".toList)
      else if Ascii.sameText name "Content-Length".toList then
        match Decimal.parse? Decimal.wordBound value with
        | some length => .contentLength length
        | none => .badLength
      else if Ascii.sameText name "Host".toList then
        .host value
      else
        .ignored

end FileServer
