import FileServer.Event.Handlers

/-!
# Running the server

The loop waits for events, acts on them, takes the completions of the workers,
and sweeps when a sweep is due.  It ends after the turn in which a stop was
asked for, and then everything is closed in order.  When waiting fails the server
is given up: the workers end what they have in their hands, and the sockets are
closed without further accounting.
-/

namespace FileServer

/-- What the world does before the loop is woken. -/
inductive Happening where
  /-- Clients ask for connections. -/
  | arrivals (arrivals : List Arrival)
  /-- Signals arrive, or someone uses a handle of the server. -/
  | signals (signals : List Signal)
  /-- Something happens to a descriptor. -/
  | activity (fd : Fd) (readiness : Readiness) (incoming : List Receive)
      (outgoing : List Transmit) (failing : List Call)
  deriving DecidableEq, Repr

/-- One wait of the loop: the time it took in milliseconds, the gates that were
opened, and how it ended. -/
structure Turn where
  elapsed : Nat := 0
  gates : List Text := []
  /-- The failure of the call that waits. -/
  failure : Option IoErrorKind := none
  happenings : List Happening := []
  deriving DecidableEq, Repr

/-- How a turn of the loop ends. -/
inductive TurnEnd where
  | goesOn
  /-- A stop was asked for. -/
  | stopped
  /-- Waiting for events failed. -/
  | failed (kind : IoErrorKind)
  deriving DecidableEq, Repr

/-- A run of the server: its state before each further wait, how the last turn
ended, and the state that is left. -/
structure Run where
  states : List Server
  ending : TurnEnd
  final : Server

namespace Server

/-- What a happening changes outside of the loop, and the event that tells it. -/
def deliver (server : Server) : Happening → Event × Server
  | .arrivals arrivals =>
      (.arrivals,
        { server with
          kernel := { server.kernel with arrivals := server.kernel.arrivals ++ arrivals } })
  | .signals signals =>
      (.notices, { server with shared := signals.foldl Shared.send server.shared })
  | .activity fd readiness incoming outgoing failing =>
      (.ready fd readiness,
        { server with kernel := (server.kernel.feed fd incoming outgoing failing).disarm fd })

/-- Delivers happenings in order as one batch of events. -/
def deliverAll : List Happening → Server → List Event × Server
  | [], server => ([], server)
  | happening :: rest, server =>
      let (event, next) := server.deliver happening
      let (events, last) := deliverAll rest next
      (event :: events, last)

/-- The time before a wait ends: the clock moves on, gates open, and the workers do
all that they can. -/
def wait (server : Server) (turn : Turn) : Server :=
  { server with
    kernel := { server.kernel with
      now := server.kernel.now + turn.elapsed
      gates := server.kernel.gates ++ turn.gates } }.work

/-- The end of a turn: completions, and a sweep when one is due. -/
def settle (server : Server) (sweepDue : Bool) : Server :=
  let drained := server.work.drainCompletions
  if sweepDue || drained.sweepOverdue then drained.sweep else drained

/-- A turn whose wait ends with events. -/
def takeEvents (server : Server) (happenings : List Happening) :
    Except DeadlineFault (TurnEnd × Server) :=
  let (events, delivered) := deliverAll happenings server
  match handleAll events delivered with
  | .error fault => .error fault
  | .ok (sweepDue, handled) =>
      let settled := handled.settle sweepDue
      .ok (if settled.stopping then .stopped else .goesOn, settled)

/-- One turn of the loop.  A wait that a signal interrupts brings no events. -/
def turn (server : Server) (turn : Turn) : Except DeadlineFault (TurnEnd × Server) :=
  let waited := server.wait turn
  match turn.failure with
  | none => waited.takeEvents turn.happenings
  | some .interrupted => waited.takeEvents []
  | some kind => .ok (.failed kind, waited)

/-- Stops the workers: tasks that wait are dropped, those in their hands end. -/
def stopPool (server : Server) : Server :=
  let (ended, pool) := server.pool.stop.2.join
  ended.foldl carryOut { server with pool }

/-- Closes everything after a stop. -/
def shutdown (server : Server) : Server :=
  let stopped := { server with kernel := server.kernel.setAlarm 0 }.stopPool
  let taken := { stopped with shared := stopped.shared.takeCompletions.2 }
  let closed := taken.table.openFds.foldl closeNow taken
  { closed with timers := closed.timers.clear, timerIds := .empty }

/-- Gives up everything after a failure. -/
def abandon (server : Server) : Server :=
  let stopped := server.stopPool
  stopped.table.openFds.foldl release stopped

/-- What is left of the server after its last turn. -/
def finish (server : Server) : TurnEnd → Server
  | .goesOn => server
  | .stopped => server.shutdown
  | .failed _ => server.abandon

/-- Runs turns until one of them is the last of the loop, or until there are no
more. -/
def runTurns : List Turn → Server → Except DeadlineFault Run
  | [], server => .ok ⟨[], .goesOn, server⟩
  | first :: rest, server =>
      match server.turn first with
      | .error fault => .error fault
      | .ok (.goesOn, next) =>
          (runTurns rest next).map fun run => { run with states := next :: run.states }
      | .ok (ending, last) => .ok ⟨[], ending, last.finish ending⟩

/-- Starts the loop and runs turns. -/
def run (server : Server) (turns : List Turn) : Except DeadlineFault Run :=
  runTurns turns { server.armAlarm with lastSweep := server.kernel.now }

end Server

end FileServer
