import FileServer.Exchange.Connection
import FileServer.Exchange.Socket

/-!
# Receiving

A connection receives until nothing more is ready or its buffer is full.
Interrupted calls are repeated.  Bytes that arrived before a call failed stay in
the buffer.
-/

namespace FileServer.Connection

/-- Receives into a buffer until it is full or nothing more is ready.  The result
is the number of bytes received; it comes with the answers that are left. -/
def receive : List Receive → Buffer → Nat → Except IoErrorKind Nat × Buffer × List Receive
  | [], buffer, total => (.ok total, buffer, [])
  | answer :: rest, buffer, total =>
      if buffer.room = 0 then
        (.ok total, buffer, answer :: rest)
      else
        match answer with
        | .endOfStream => (.error .unexpectedEof, buffer, rest)
        | .failure .wouldBlock => (.ok total, buffer, rest)
        | .failure .interrupted => receive rest buffer total
        | .failure kind => (.error kind, buffer, rest)
        | .data bytes =>
            if bytes.isEmpty then
              (.error .unexpectedEof, buffer, rest)
            else if bytes.length ≤ buffer.room then
              receive rest (buffer.store bytes) (total + bytes.length)
            else
              (.ok (total + buffer.room), buffer.store (bytes.take buffer.room),
                .data (bytes.drop buffer.room) :: rest)

/-- Receives what is ready.  A full buffer is an error at the start only. -/
def read (connection : Connection) (socket : Socket) :
    Except IoErrorKind Nat × Connection × Socket :=
  if !connection.isOpen then
    (.error .notConnected, connection, socket)
  else if connection.input.room = 0 then
    (.error .outOfMemory, connection, socket)
  else
    let (result, input, incoming) := receive socket.incoming connection.input 0
    (result, { connection with input }, { socket with incoming })

end FileServer.Connection
