import FileServer.Exchange.Address
import FileServer.Request.Parser
import FileServer.Response.Head

/-!
# Connections

A connection reads a request into a buffer of fixed size, works out the answer,
and sends it.  Its storage is set aside when it gets its first socket and is kept
from then on, so a closed connection can be used again for another socket.
-/

namespace FileServer

/-- A socket's request and answer as far as they have come.

`input` holds what was received, `output` the head of the answer or a whole error
answer, and `file` the body of an answer that is sent from a file.  Of the
`toSend` bytes of the answer `haveSent` are sent. -/
structure Connection where
  isOpen : Bool
  peer : Option Address
  input : Buffer
  parser : Parser
  output : Buffer
  status : Option Status
  keepAlive : Bool
  fileSize : Nat
  file : Option Bytes
  toSend : Nat
  haveSent : Nat
  deriving DecidableEq, Repr

namespace Connection

/-- Number of bytes that a request may have. -/
def inputCapacity : Nat := 2048

/-- A connection without a socket and without storage. -/
def fresh : Connection where
  isOpen := false
  peer := none
  input := .ofCapacity 0
  parser := .fresh inputCapacity
  output := .ofCapacity 0
  status := none
  keepAlive := false
  fileSize := 0
  file := none
  toSend := 0
  haveSent := 0

/-- Gets ready for the next request on the same socket. -/
def reset (connection : Connection) : Connection :=
  { connection with
    input := connection.input.clear
    parser := connection.parser.reset
    output := connection.output.clear
    status := none
    keepAlive := false
    fileSize := 0
    file := none
    toSend := 0
    haveSent := 0 }

/-- A buffer of a given size: the one at hand if it has this size, else a new
one. -/
def withCapacity (buffer : Buffer) (capacity : Nat) : Buffer :=
  if buffer.capacity = capacity then buffer else .ofCapacity capacity

/-- Takes a new socket. -/
def accept (connection : Connection) (peer : Address) : Connection :=
  { connection with
    isOpen := true
    peer := some peer
    input := withCapacity connection.input inputCapacity
    output :=
      if connection.output.capacity = 0 then .ofCapacity Response.defaultCapacity
      else connection.output }.reset

/-- Gives up the socket and the file. -/
def close (connection : Connection) : Connection :=
  { connection.reset with isOpen := false, peer := none }

/-- The whole answer: its head and its body. -/
def answer (connection : Connection) : Bytes :=
  connection.output.contents ++ connection.file.getD []

/-- The part of the answer that is not sent yet. -/
def unsent (connection : Connection) : Bytes :=
  connection.answer.drop connection.haveSent

/-- Whether an answer, or a part of it, waits to be sent. -/
def isAnswering (connection : Connection) : Bool :=
  connection.haveSent < connection.toSend

end Connection

end FileServer
