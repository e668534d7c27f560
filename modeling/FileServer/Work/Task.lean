import FileServer.Event.Channel
import FileServer.Exchange.Answering
import FileServer.Report.Counters
import FileServer.Storage.FdMap
import FileServer.Table.Slot

/-!
# Tasks and their completions

A task is to work on what a connection has received.  The worker that carries it
out leaves a completion for the event loop and wakes it.  Both happen also when
the task finds that the slot has a later connection by now, and then the
completion asks to close.
-/

namespace FileServer

/-- Work on the connection of a descriptor. -/
structure Task where
  fd : Fd
  generation : Nat
  deriving DecidableEq, Repr

/-- A task that has ended, and what is to be done now. -/
structure Completion where
  fd : Fd
  generation : Nat
  outcome : Processed
  deriving DecidableEq, Repr

/-- What the event loop and the workers share. -/
structure Shared where
  counters : Counters
  /-- The number of open connections. -/
  live : Nat
  completions : List Completion
  channel : Channel
  deriving DecidableEq, Repr

namespace Shared

/-- Nothing has happened yet. -/
def start (now : Nat) : Shared where
  counters := { started := now }
  live := 0
  completions := []
  channel := .ofCapacity Channel.defaultCapacity

/-- Counts one more open connection. -/
def connectionOpened (shared : Shared) : Shared :=
  { shared with live := shared.live + 1 }

/-- Counts one open connection less, but never less than none. -/
def connectionClosed (shared : Shared) : Shared :=
  { shared with live := shared.live - 1 }

/-- Changes the counters. -/
def record (shared : Shared) (change : Counters → Counters) : Shared :=
  { shared with counters := change shared.counters }

/-- Writes to the channel. -/
def send (shared : Shared) (signal : Signal) : Shared :=
  { shared with channel := shared.channel.send signal }

/-- Puts a completion behind the others. -/
def append (shared : Shared) (completion : Completion) : Shared :=
  { shared with completions := shared.completions ++ [completion] }

/-- Leaves a completion, then wakes the loop. -/
def complete (shared : Shared) (completion : Completion) : Shared :=
  (shared.append completion).send .wake

/-- Takes all completions. -/
def takeCompletions (shared : Shared) : List Completion × Shared :=
  (shared.completions, { shared with completions := [] })

end Shared

namespace Task

/-- Works on what the connection of a slot has received. -/
def work (task : Task) (tree : FileTree) (root : Text) (slot : Slot) : Processed × Slot :=
  if slot.generation = task.generation then
    match slot.connection.process? tree root with
    | some (outcome, connection) => (outcome, { slot with connection })
    | none => (.close, slot)
  else
    (.close, slot)

/-- The code of the answer that a piece of work has made. -/
def answerCode? (outcome : Processed) (slot : Slot) : Option Nat :=
  match outcome, slot.connection.status with
  | .respond, some status => some status.code
  | _, _ => none

/-- Carries the task out: works on the connection, counts the answer if there is
one, and reports to the loop. -/
def run (task : Task) (tree : FileTree) (root : Text) (slot : Slot) (shared : Shared) :
    Slot × Shared :=
  let (outcome, worked) := task.work tree root slot
  let counted :=
    match answerCode? outcome worked with
    | some code => shared.record fun counters => counters.countAnswer code
    | none => shared
  (worked, counted.complete ⟨task.fd, task.generation, outcome⟩)

end Task

end FileServer
