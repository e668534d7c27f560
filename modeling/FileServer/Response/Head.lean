import FileServer.Response.Status
import FileServer.Storage.Buffer

/-!
# Writing an answer

The status line and the header section are formatted into a buffer of fixed
size.  The header section states the length of the body, its type and whether
the connection stays open, in this order, and ends with an empty line.  Error
answers carry their body in the same buffer; the body of a served file is sent
from the file itself.

Each text is appended as a whole or not at all.
-/

namespace FileServer.Response

/-- Number of bytes that a head, or an error answer, may have. -/
def defaultCapacity : Nat := 1024

/-- What `Connection` says to the client. -/
def connectionToken (keepAlive : Bool) : String :=
  if keepAlive then "keep-alive" else "close"

/-- The pieces of the status line. -/
def statusLine (status : Status) : List Bytes :=
  [utf8 "HTTP/1.1 ", Text.bytes (Decimal.digits status.code), utf8 " ", utf8 status.reason,
    utf8 "\r\n"]

/-- The pieces of the header section, with the empty line that ends it. -/
def headers (bodyLength : Nat) (keepAlive : Bool) : List Bytes :=
  [utf8 "Content-Length: ", Text.bytes (Decimal.digits bodyLength),
    utf8 "\r\nContent-Type: text/html\r\nConnection: ", utf8 (connectionToken keepAlive),
    utf8 "\r\n\r\n"]

/-- Status line and header section as one text. -/
def head (status : Status) (bodyLength : Nat) (keepAlive : Bool) : Bytes :=
  (statusLine status).flatten ++ (headers bodyLength keepAlive).flatten

/-- The body of an error answer as bytes. -/
def errorBody (status : Status) : Bytes :=
  utf8 status.body

/-- A complete error answer. -/
def errorAnswer (status : Status) (keepAlive : Bool) : Bytes :=
  head status (errorBody status).length keepAlive ++ errorBody status

end FileServer.Response

namespace FileServer.Buffer

/-- Appends the status line. -/
def appendStatusLine (buffer : Buffer) (status : Status) : Bool × Buffer :=
  buffer.append (Response.statusLine status)

/-- Appends the header section. -/
def appendHeaders (buffer : Buffer) (bodyLength : Nat) (keepAlive : Bool) : Bool × Buffer :=
  buffer.append (Response.headers bodyLength keepAlive)

/-- Appends a body. -/
def appendContent (buffer : Buffer) (content : Bytes) : Bool × Buffer :=
  buffer.append [content]

/-- Goes on with a second part when the first part was accepted. -/
def andThen (first : Bool × Buffer) (second : Buffer → Bool × Buffer) : Bool × Buffer :=
  match first with
  | (true, buffer) => second buffer
  | (false, buffer) => (false, buffer)

/-- Appends status line and header section of an answer whose body is sent
separately. -/
def appendHead (buffer : Buffer) (status : Status) (bodyLength : Nat) (keepAlive : Bool) :
    Bool × Buffer :=
  andThen (buffer.appendStatusLine status) fun buffer =>
    buffer.appendHeaders bodyLength keepAlive

/-- Appends a complete error answer.  When a later part does not fit, the
earlier parts stay. -/
def appendError (buffer : Buffer) (status : Status) (keepAlive : Bool) : Bool × Buffer :=
  andThen (buffer.appendHead status (Response.errorBody status).length keepAlive) fun buffer =>
    buffer.appendContent (Response.errorBody status)

end FileServer.Buffer
