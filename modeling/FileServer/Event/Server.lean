import FileServer.Config.Settings
import FileServer.Event.Kernel
import FileServer.Idle.Deadline
import FileServer.Idle.Timers
import FileServer.ServerFailure
import FileServer.Table.Slots
import FileServer.Work.Pool
import FileServer.Work.Task

/-!
# The server

The server is an event loop, a pool of workers, and what they work with.  The
loop alone accepts, reads, writes and closes connections, keeps the timers and
talks to the operating system; the workers turn received bytes into answers.

This module has the state of the server and the operations that its handlers
share.  Each open connection has a timer, whose data are its descriptor and its
generation.
-/

namespace FileServer

/-- The state of the server together with that of the operating system. -/
structure Server where
  settings : Settings
  tree : FileTree
  table : Slots
  timers : Timers (Fd × Nat)
  timerIds : FdMap TimerId
  shared : Shared
  pool : Pool Task
  stopping : Bool
  lastSweep : Nat
  kernel : Kernel
  deriving DecidableEq, Repr

namespace Server

/-- The longest time that can be waited for an event, in milliseconds. -/
def maxWait : Nat := 0x7FFFFFFF

/-- The longest time that the alarm clock can be set to, in seconds. -/
def maxAlarm : Nat := 0xFFFFFFFF

/-- A server that has not started to wait yet. -/
def create (settings : Settings) (tree : FileTree) (kernel : Kernel) :
    Except ServerFailure Server :=
  match settings.complaint? with
  | some message => .error (.config message)
  | none =>
      match Pool.start? settings.threads settings.queueCapacity with
      | none => .error (.invalidPool settings.threads settings.queueCapacity)
      | some pool =>
          .ok {
            settings
            tree
            table := .ofLimit settings.maxFd
            timers := .empty
            timerIds := .empty
            shared := .start kernel.now
            pool
            stopping := false
            lastSweep := kernel.now
            kernel }

/-- How long the loop waits for an event, in milliseconds. -/
def waitTime (server : Server) : Nat :=
  min (server.settings.timeslot * 1000) maxWait

/-- Sets the alarm clock to a timeslot. -/
def armAlarm (server : Server) : Server :=
  { server with kernel := server.kernel.setAlarm (min (max server.settings.timeslot 1) maxAlarm) }

/-- Changes the counters. -/
def record (server : Server) (change : Counters → Counters) : Server :=
  { server with shared := server.shared.record change }

/-- Sets the slot of a descriptor. -/
def putSlot (server : Server) (fd : Fd) (slot : Slot) : Server :=
  { server with table := server.table.set fd slot }

/-- Keeps the socket of a descriptor. -/
def putSocket (server : Server) (fd : Fd) (socket : Socket) : Server :=
  { server with kernel := server.kernel.putSocket fd socket }

/-- Closes a socket that has no slot. -/
def dropSocket (server : Server) (fd : Fd) : Server :=
  { server with kernel := server.kernel.dropSocket fd }

/-- Closes the connection in a slot and with it its socket. -/
def release (server : Server) (fd : Fd) : Server :=
  match server.table.slot? fd with
  | some slot =>
      let kernel :=
        if slot.connection.isOpen then server.kernel.closeSocket fd else server.kernel
      { server with table := server.table.release fd, kernel }
  | none => server

/-- Deletes the timer of a descriptor. -/
def dropTimer (server : Server) (fd : Fd) : Server :=
  match server.timerIds.find? fd with
  | some id =>
      { server with
        timerIds := server.timerIds.erase fd
        timers := server.timers.delete id }
  | none => server

/-- Starts a timer for a connection. -/
def startTimer (server : Server) (fd : Fd) (generation deadline : Nat) : Server :=
  let (id, timers) := server.timers.add deadline (fd, generation)
  { server with timers, timerIds := server.timerIds.insert fd id }

/-- Moves the deadline of a connection that was active just now.  A timer that
belongs to an earlier connection of the descriptor is replaced. -/
def refreshTimer (server : Server) (fd : Fd) (generation : Nat) :
    Except DeadlineFault Server :=
  match Deadline.ofActivity server.kernel.now server.settings.timeslot with
  | .error fault => .error fault
  | .ok deadline =>
      match server.timerIds.find? fd with
      | none => .ok (server.startTimer fd generation deadline)
      | some id =>
          if server.timers.get? id = some (fd, generation) then
            .ok { server with timers := server.timers.adjust id deadline }
          else
            .ok ({ server with timers := server.timers.delete id }.startTimer fd generation
              deadline)

/-- Closes the connection of a descriptor, if there is one. -/
def closeNow (server : Server) (fd : Fd) : Server :=
  if server.table.custody fd = .free then
    server
  else
    let forgotten := { server with kernel := server.kernel.unregister fd }.dropTimer fd
    { forgotten with
      shared := forgotten.shared.connectionClosed.record Counters.countClose }.release fd

/-- Closes the connection of a descriptor, or has it closed when it comes back
from a worker. -/
def closeOrDefer (server : Server) (fd : Fd) : Server :=
  match server.table.slot? fd with
  | none => server
  | some slot =>
      match slot.custody with
      | .free => server
      | .loop => server.closeNow fd
      | .worker | .closing => server.putSlot fd slot.deferClose.2

/-- Arms the descriptor of a connection again, and closes the connection when that
fails. -/
def rearm (server : Server) (fd : Fd) (interest : Interest) : Server :=
  match server.kernel.rearm? fd interest with
  | some kernel => { server with kernel }
  | none => server.closeNow fd

end Server

end FileServer
