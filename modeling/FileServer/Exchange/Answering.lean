import FileServer.Document.Lookup
import FileServer.Exchange.Connection

/-!
# Working out the answer

A complete request is answered with the file it asks for, or with an error
answer.  A request that breaks a rule, or that is incomplete although the buffer
is full, is answered as a bad request.  Answers that report a missing or a
forbidden file keep the connection open if the client asked for it; after a bad
request or a failure of the server the connection is closed.
-/

namespace FileServer

/-- What is to be done with a connection whose input was worked on. -/
inductive Processed where
  /-- The request is incomplete. -/
  | needMore
  /-- An answer is ready to be sent. -/
  | respond
  /-- No answer could be made. -/
  | close
  deriving DecidableEq, Repr

/-- What answers a request: a file, or an error. -/
inductive Reply where
  | serve (content : Bytes)
  | refuse (status : Status)
  deriving DecidableEq, Repr

/-- The reply to a request for a path. -/
def Reply.ofPath (tree : FileTree) (root url : Text) : Reply :=
  match tree.lookup (documentPath root url) with
  | .ok stored => .serve stored.content
  | .error status => .refuse status

/-- The status that a reply is sent with. -/
def Reply.status : Reply → Status
  | .serve _ => .ok
  | .refuse status => status

/-- Whether the connection may stay open after an answer of this status. -/
def Status.allowsKeepAlive : Status → Bool
  | .ok | .notFound | .forbidden => true
  | .badRequest | .internalServerError | .serviceUnavailable => false

namespace Connection

/-- Readies an answer whose text is in the output buffer. -/
def ready (connection : Connection) (output : Buffer) (status : Status) (keepAlive : Bool) :
    Connection :=
  { connection with
    output
    status := some status
    keepAlive
    toSend := output.used + connection.fileSize
    haveSent := 0 }

/-- Writes the head of an answer, or a whole error answer. -/
def respond (connection : Connection) (reply : Reply) : Processed × Connection :=
  let status := reply.status
  let keepAlive := status.allowsKeepAlive && connection.parser.keepAlive
  let prepared : Connection :=
    match reply with
    | .serve content =>
        { connection with
          fileSize := content.length
          file := if content.isEmpty then connection.file else some content }
    | .refuse _ => { connection with fileSize := 0, file := none }
  let (written, output) :=
    match reply with
    | .serve content => prepared.output.clear.appendHead status content.length keepAlive
    | .refuse _ => prepared.output.clear.appendError status keepAlive
  if written then
    (.respond, prepared.ready output status keepAlive)
  else
    (.close, { prepared with output, file := none })

/-- The reply to what a call of the parser concluded, `none` while more bytes are
needed and fit. -/
def reply? (connection : Connection) (tree : FileTree) (root : Text) : Verdict → Option Reply
  | .complete => some (.ofPath tree root connection.parser.url)
  | .malformed => some (.refuse .badRequest)
  | .incomplete =>
      if connection.input.used < inputCapacity then none else some (.refuse .badRequest)

/-- Works on the received bytes.  The result is `none` when the parser looks
outside of them. -/
def process? (connection : Connection) (tree : FileTree) (root : Text) :
    Option (Processed × Connection) :=
  match connection.parser.advance? connection.input.contents with
  | none => none
  | some (verdict, parser) =>
      let parsed := { connection with parser }
      match parsed.reply? tree root verdict with
      | none => some (.needMore, parsed)
      | some reply => some (parsed.respond reply)

/-- The gate that working on the received bytes has to pass, if any. -/
def gate? (connection : Connection) (tree : FileTree) (root : Text) : Option Text :=
  match connection.parser.advance? connection.input.contents with
  | some (.complete, parser) => tree.gate? (documentPath root parser.url)
  | _ => none

end Connection

end FileServer
