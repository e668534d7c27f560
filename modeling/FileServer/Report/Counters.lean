import FileServer.Report.Tally
import FileServer.Text.Decimal

/-!
# Counters

The server counts connections, the answers its workers make and the bytes of
answers that were sent completely.  A snapshot is the counters at one moment,
together with how long they have been running.

The counters are exact.  A counter in a machine word of 64 bits agrees with its
counter here as long as fewer than 2 ^ 64 events or bytes are counted.
-/

namespace FileServer

/-- What is counted, and since when: a clock in milliseconds. -/
structure Counters where
  started : Nat
  accepted : Nat := 0
  /-- Connections turned away because the server was full. -/
  busy : Nat := 0
  /-- Connections closed because they were idle for too long. -/
  evicted : Nat := 0
  closed : Nat := 0
  /-- Requests dropped because the queue of the workers was full. -/
  rejected : Nat := 0
  /-- The answers by status code. -/
  answers : Tally := .empty
  bytesSent : Nat := 0
  deriving DecidableEq, Repr

/-- The counters at one moment. -/
structure Snapshot where
  uptimeSeconds : Nat
  accepted : Nat
  busy : Nat
  evicted : Nat
  closed : Nat
  rejected : Nat
  responses : Nat
  answers : Tally
  bytesSent : Nat
  deriving DecidableEq, Repr

namespace Counters

/-- Counts a connection that was accepted. -/
def countAccept (counters : Counters) : Counters :=
  { counters with accepted := counters.accepted + 1 }

/-- Counts a connection that was turned away. -/
def countBusy (counters : Counters) : Counters :=
  { counters with busy := counters.busy + 1 }

/-- Counts a connection that was idle for too long. -/
def countEviction (counters : Counters) : Counters :=
  { counters with evicted := counters.evicted + 1 }

/-- Counts a connection that was closed for whatever reason. -/
def countClose (counters : Counters) : Counters :=
  { counters with closed := counters.closed + 1 }

/-- Counts a request that no worker could take. -/
def countRejection (counters : Counters) : Counters :=
  { counters with rejected := counters.rejected + 1 }

/-- Counts an answer that a worker made. -/
def countAnswer (counters : Counters) (code : Nat) : Counters :=
  { counters with answers := counters.answers.add code }

/-- Counts the bytes of an answer that was sent completely. -/
def countBytes (counters : Counters) (bytes : Nat) : Counters :=
  { counters with bytesSent := counters.bytesSent + bytes }

/-- The counters at a moment. -/
def snapshot (counters : Counters) (now : Nat) : Snapshot where
  uptimeSeconds := (now - counters.started) / 1000
  accepted := counters.accepted
  busy := counters.busy
  evicted := counters.evicted
  closed := counters.closed
  rejected := counters.rejected
  responses := counters.answers.total
  answers := counters.answers
  bytesSent := counters.bytesSent

end Counters

namespace Snapshot

/-- Connections that are open as far as the counters tell. -/
def live (snapshot : Snapshot) : Nat :=
  snapshot.accepted - snapshot.closed

/-- A number as text. -/
def number (value : Nat) : String :=
  String.ofList (Decimal.digits value)

/-- A member of a JSON object. -/
def member (name value : String) : String :=
  "\"" ++ name ++ "\":" ++ value

/-- A JSON object without spaces. -/
def object (members : List String) : String :=
  "\x7b" ++ String.intercalate "," members ++ "\x7d"

/-- The snapshot as a JSON object. -/
def json (snapshot : Snapshot) : String :=
  object [
    member "uptime_secs" (number snapshot.uptimeSeconds),
    member "accepted" (number snapshot.accepted),
    member "busy_rejections" (number snapshot.busy),
    member "idle_evictions" (number snapshot.evicted),
    member "closed" (number snapshot.closed),
    member "dispatch_rejections" (number snapshot.rejected),
    member "responses" (number snapshot.responses),
    member "status_codes" (object (snapshot.answers.counts.map fun (code, count) =>
      member (number code) (number count))),
    member "bytes_sent" (number snapshot.bytesSent)]

end Snapshot

end FileServer
