import FileServer.Event.Channel
import FileServer.Exchange.Address
import FileServer.Exchange.Socket
import FileServer.Storage.FdMap

/-!
# The operating system as the event loop sees it

The loop deals with the operating system through calls that answer, and the
answers are all that it learns.  A kernel is described by the answers it will
give, by the state that depends on the calls made to it (which descriptors are
registered and which of them are armed), and by the history of what was done to
it.

A connection's descriptor is registered for one event at a time: delivering the
event disarms it until the loop arms it again.  Registrations are kept by the
number of the descriptor.  A socket that is closed takes its registration with it,
also where the loop was refused to remove it, unless something else still stands
for the socket.
-/

namespace FileServer

/-- What the loop waits for on a connection. -/
inductive Interest where
  | readable
  | writable
  deriving DecidableEq, Repr

/-- The state of a registered descriptor. -/
inductive Registration where
  | armed (interest : Interest)
  /-- The event was delivered, and the descriptor not armed again. -/
  | silent
  deriving DecidableEq, Repr

/-- What an event says about a descriptor. -/
structure Readiness where
  readable : Bool
  writable : Bool
  /-- The other side has hung up, or the socket is broken. -/
  hangup : Bool
  deriving DecidableEq, Repr

/-- An event, as it is delivered to the loop. -/
inductive Event where
  /-- Clients ask for connections. -/
  | arrivals
  /-- There are entries in the notification channel. -/
  | notices
  | ready (fd : Fd) (readiness : Readiness)
  deriving DecidableEq, Repr

/-- A call on the descriptor of a connection that may fail. -/
inductive Call where
  | setNonblocking
  | register
  | rearm
  | unregister
  deriving DecidableEq, Repr

/-- The answer to a call that accepts a connection. -/
inductive Arrival where
  | connection (fd : Fd) (peer : Address) (outgoing : List Transmit) (failing : List Call)
  | failure (kind : IoErrorKind)
  deriving DecidableEq, Repr

/-- What is logged at the end of a look for idle connections. -/
structure SweepReport where
  live : Nat
  timers : Nat
  /-- Milliseconds until the earliest deadline. -/
  nextExpiry : Option Nat
  deriving DecidableEq, Repr

/-- What has been done so far: the bytes taken under each number, the sockets
closed, the alarms set, and the looks for idle connections. -/
structure History where
  sent : FdMap Bytes := .empty
  closed : List Fd := []
  alarms : List Nat := []
  sweeps : List SweepReport := []
  deriving DecidableEq, Repr

/-- The operating system: its clock in milliseconds, its answers, its state, and
its history.  It may be one that keeps the registrations of closed sockets. -/
structure Kernel where
  now : Nat := 0
  gates : List Text := []
  arrivals : List Arrival := []
  sockets : FdMap Socket := .empty
  failing : FdMap (List Call) := .empty
  registrations : FdMap Registration := .empty
  /-- Whether the registration of a socket goes with the socket. -/
  forgetsClosed : Bool := false
  history : History := {}
  deriving DecidableEq, Repr

namespace Kernel

/-- The socket with a number. -/
def socket (kernel : Kernel) (fd : Fd) : Socket :=
  (kernel.sockets.find? fd).getD {}

/-- Whether a call on a descriptor fails. -/
def fails (kernel : Kernel) (fd : Fd) (call : Call) : Bool :=
  ((kernel.failing.find? fd).getD []).contains call

/-- A new socket takes a number.  Nothing has arrived on it yet. -/
def openSocket (kernel : Kernel) (fd : Fd) (outgoing : List Transmit) (failing : List Call) :
    Kernel :=
  { kernel with
    sockets := kernel.sockets.insert fd { outgoing }
    failing := kernel.failing.insert fd failing }

/-- Keeps a socket as calls on it have left it. -/
def putSocket (kernel : Kernel) (fd : Fd) (socket : Socket) : Kernel :=
  let taken := socket.sent.drop (kernel.socket fd).sent.length
  let before := (kernel.history.sent.find? fd).getD []
  { kernel with
    sockets := kernel.sockets.insert fd socket
    history := { kernel.history with sent := kernel.history.sent.insert fd (before ++ taken) } }

/-- A socket is closed that was not registered. -/
def dropSocket (kernel : Kernel) (fd : Fd) : Kernel :=
  { kernel with history := { kernel.history with closed := kernel.history.closed ++ [fd] } }

/-- A socket is closed, and its registration forgotten. -/
def closeSocket (kernel : Kernel) (fd : Fd) : Kernel :=
  { kernel.dropSocket fd with
    registrations :=
      if kernel.forgetsClosed then kernel.registrations.erase fd else kernel.registrations }

/-- Sets the alarm clock; zero stops it. -/
def setAlarm (kernel : Kernel) (seconds : Nat) : Kernel :=
  { kernel with history := { kernel.history with alarms := kernel.history.alarms ++ [seconds] } }

/-- Logs the end of a look for idle connections. -/
def logSweep (kernel : Kernel) (report : SweepReport) : Kernel :=
  { kernel with history := { kernel.history with sweeps := kernel.history.sweeps ++ [report] } }

/-- Registers a descriptor; `none` means that the call fails, as it does for a
descriptor that is registered already. -/
def register? (kernel : Kernel) (fd : Fd) (interest : Interest) : Option Kernel :=
  if kernel.fails fd .register || kernel.registrations.contains fd then
    none
  else
    some { kernel with registrations := kernel.registrations.insert fd (.armed interest) }

/-- Arms a registered descriptor; `none` means that the call fails, as it does for
a descriptor that is not registered. -/
def rearm? (kernel : Kernel) (fd : Fd) (interest : Interest) : Option Kernel :=
  if kernel.fails fd .rearm || !kernel.registrations.contains fd then
    none
  else
    some { kernel with registrations := kernel.registrations.insert fd (.armed interest) }

/-- Removes a registration, unless the call fails. -/
def unregister (kernel : Kernel) (fd : Fd) : Kernel :=
  if kernel.fails fd .unregister then
    kernel
  else
    { kernel with registrations := kernel.registrations.erase fd }

/-- Disarms a descriptor whose event is delivered. -/
def disarm (kernel : Kernel) (fd : Fd) : Kernel :=
  { kernel with registrations := kernel.registrations.modify fd fun _ => .silent }

/-- More answers for a socket, and calls on its number that fail from now on.  For
a number that no socket has had this does nothing. -/
def feed (kernel : Kernel) (fd : Fd) (incoming : List Receive) (outgoing : List Transmit)
    (failing : List Call) : Kernel :=
  if kernel.sockets.contains fd then
    { kernel with
      sockets := kernel.sockets.modify fd fun socket => socket.script incoming outgoing
      failing := kernel.failing.modify fd fun calls => calls ++ failing }
  else
    kernel

end Kernel

end FileServer
