import FileServer.Exchange.Connection

/-!
# Slots

A slot keeps one connection after the other for the same descriptor.  Its custody
says who may touch the connection now: the event loop, a worker, or nobody.  A
connection that has to be closed while a worker has it is closed when it comes
back.  The generation counts the connections that the slot has had, so that work
for an earlier connection can be told from work for the present one.  It is kept
in a machine word, which comes round to zero behind its last number.
-/

namespace FileServer

/-- Who may touch the connection of a slot. -/
inductive Custody where
  /-- There is no connection. -/
  | free
  | loop
  | worker
  /-- A worker, and the connection is to be closed when it comes back. -/
  | closing
  deriving DecidableEq, Repr

/-- A place for the connections of one descriptor. -/
structure Slot where
  custody : Custody
  generation : Nat
  connection : Connection
  deriving DecidableEq, Repr

namespace Slot

/-- A slot that has had no connection. -/
def fresh : Slot := ⟨.free, 0, .fresh⟩

/-- Changes custody if it is as expected. -/
def transfer (slot : Slot) (expected next : Custody) : Bool × Slot :=
  if slot.custody = expected then (true, { slot with custody := next }) else (false, slot)

/-- Hands the connection from the loop to a worker. -/
def checkOut (slot : Slot) : Bool × Slot :=
  slot.transfer .loop .worker

/-- Takes the connection back from a worker.  The result is false when it is to
be closed. -/
def checkIn (slot : Slot) : Bool × Slot :=
  slot.transfer .worker .loop

/-- Has the connection closed when it comes back from a worker.  The result is
false when no worker has it. -/
def deferClose (slot : Slot) : Bool × Slot :=
  match slot.custody with
  | .worker => (true, { slot with custody := .closing })
  | .closing => (true, slot)
  | .free | .loop => (false, slot)

/-- The generation of the next connection. -/
def nextGeneration (slot : Slot) : Nat :=
  (slot.generation + 1) % Decimal.wordBound

/-- Starts the next connection. -/
def open? (slot : Slot) (peer : Address) : Option Slot :=
  if slot.custody = .free then
    some {
      custody := .loop
      generation := slot.nextGeneration
      connection := slot.connection.accept peer }
  else
    none

/-- Closes the connection. -/
def release (slot : Slot) : Slot :=
  { slot with custody := .free, connection := slot.connection.close }

end Slot

end FileServer
