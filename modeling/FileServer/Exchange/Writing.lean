import FileServer.Exchange.Connection
import FileServer.Exchange.Socket

/-!
# Sending

An answer is sent in as many calls as the socket wants.  Each call offers all
that is not sent yet, the rest of the head together with the rest of the body.
After the last byte the connection starts over, or is to be closed when the
answer said so.
-/

namespace FileServer

/-- What is to be done with a connection after sending. -/
inductive Written where
  /-- The socket takes no more for now. -/
  | again
  /-- The answer is sent, and the connection waits for the next request. -/
  | keepAlive
  /-- The answer is sent, and the connection is to be closed. -/
  | close
  | failed
  deriving DecidableEq, Repr

namespace Connection

/-- Gives up on the answer. -/
def abandon (connection : Connection) : Written × Connection :=
  (.failed, { connection with file := none })

/-- What follows from sending some bytes: `none` when the answer is not complete
and the socket can be asked again. -/
def advance (connection : Connection) (count : Nat) : Option Written × Connection :=
  let sent := { connection with haveSent := connection.haveSent + count }
  if sent.haveSent < sent.toSend then
    (none, sent)
  else if sent.keepAlive then
    (some .keepAlive, sent.reset)
  else
    (some .close, { sent with file := none })

/-- Sends until the answer is complete or the socket stops it.  The result comes
with the bytes that were taken and the answers of the socket that are left. -/
def transmit : List Transmit → Connection → Written × Connection × Bytes × List Transmit
  | [], connection =>
      let taken := connection.unsent
      if taken.isEmpty then
        let (outcome, stopped) := connection.abandon
        (outcome, stopped, [], [])
      else
        match connection.advance taken.length with
        | (some outcome, next) => (outcome, next, taken, [])
        | (none, next) =>
            let (outcome, stopped) := next.abandon
            (outcome, stopped, taken, [])
  | .failure .wouldBlock :: rest, connection => (.again, connection, [], rest)
  | .failure .interrupted :: rest, connection => transmit rest connection
  | .failure _ :: rest, connection =>
      let (outcome, stopped) := connection.abandon
      (outcome, stopped, [], rest)
  | .accept count :: rest, connection =>
      let taken := connection.unsent.take count
      if taken.isEmpty then
        let (outcome, stopped) := connection.abandon
        (outcome, stopped, [], rest)
      else
        match connection.advance taken.length with
        | (some outcome, next) => (outcome, next, taken, rest)
        | (none, next) =>
            let (outcome, last, more, left) := transmit rest next
            (outcome, last, taken ++ more, left)

/-- Sends what the socket takes.  Without an answer to send the connection starts
over. -/
def write (connection : Connection) (socket : Socket) : Written × Connection × Socket :=
  if !connection.isOpen then
    (.failed, connection, socket)
  else if connection.toSend = 0 then
    (.keepAlive, connection.reset, socket)
  else
    let (outcome, next, taken, outgoing) := transmit socket.outgoing connection
    (outcome, next, { socket with outgoing, sent := socket.sent ++ taken })

end Connection

/-- Sends an error answer on a socket that has no connection. -/
def Socket.sendError (socket : Socket) (status : Status) : Except IoErrorKind Unit × Socket :=
  socket.sendAll (Response.errorAnswer status false)

end FileServer
