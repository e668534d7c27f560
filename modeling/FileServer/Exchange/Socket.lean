import FileServer.IoError
import FileServer.Text.Basic

/-!
# Sockets

What a connection can notice of its socket are the answers to its calls.  A
socket is therefore described by the answers that it has ready: one list for the
calls that receive and one for the calls that send.  When the first list is
empty there is nothing to receive yet, and when the second is empty everything
is taken.

A socket also remembers the bytes that it has taken.
-/

namespace FileServer

/-- The answer to a call that receives. -/
inductive Receive where
  /-- Bytes that have arrived.  A call takes as many as it has room for, and the
  rest stays for the next call. -/
  | data (bytes : Bytes)
  | failure (kind : IoErrorKind)
  /-- The other side has closed its end. -/
  | endOfStream
  deriving DecidableEq, Repr

/-- The answer to a call that sends. -/
inductive Transmit where
  /-- At most so many of the offered bytes are taken. -/
  | accept (count : Nat)
  | failure (kind : IoErrorKind)
  deriving DecidableEq, Repr

/-- A socket: the answers it has ready, and the bytes it has taken so far. -/
structure Socket where
  incoming : List Receive := []
  outgoing : List Transmit := []
  sent : Bytes := []
  deriving DecidableEq, Repr

namespace Socket

/-- Adds answers behind those that are ready. -/
def script (socket : Socket) (incoming : List Receive) (outgoing : List Transmit) : Socket :=
  { socket with
    incoming := socket.incoming ++ incoming
    outgoing := socket.outgoing ++ outgoing }

/-- Sends all bytes unless a call fails or takes nothing.  The result comes with
the bytes that were taken and the answers that are left. -/
def transmitAll : List Transmit → Bytes → Except IoErrorKind Unit × Bytes × List Transmit
  | answers, [] => (.ok (), [], answers)
  | [], bytes => (.ok (), bytes, [])
  | .failure .interrupted :: rest, bytes => transmitAll rest bytes
  | .failure kind :: rest, _ => (.error kind, [], rest)
  | .accept count :: rest, bytes =>
      if count = 0 then
        (.error .writeZero, [], rest)
      else
        let (result, taken, left) := transmitAll rest (bytes.drop count)
        (result, bytes.take count ++ taken, left)

/-- Sends all bytes unless a call fails or takes nothing. -/
def sendAll (socket : Socket) (bytes : Bytes) : Except IoErrorKind Unit × Socket :=
  let (result, taken, outgoing) := transmitAll socket.outgoing bytes
  (result, { socket with outgoing, sent := socket.sent ++ taken })

end Socket

end FileServer
