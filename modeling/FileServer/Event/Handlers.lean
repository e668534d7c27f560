import FileServer.Event.Server
import FileServer.Exchange.Reading
import FileServer.Exchange.Writing

/-!
# What the loop does with events

New connections are accepted until no more wait.  A connection that is readable
is read and handed to the workers; one that is writable goes on sending its
answer.  The completions that workers leave decide what a connection waits for
next.  A sweep closes the connections whose deadline has passed.
-/

namespace FileServer.Server

/-! ## New connections -/

/-- Whether there is no place for another connection. -/
def isFull (server : Server) (fd : Fd) : Bool :=
  server.settings.maxConnections ≤ server.shared.live || !server.table.fits fd

/-- Turns a connection away. -/
def turnAway (server : Server) (fd : Fd) : Server :=
  let counted := server.record Counters.countBusy
  let (_, socket) := (counted.kernel.socket fd).sendError .serviceUnavailable
  (counted.putSocket fd socket).dropSocket fd

/-- Starts to wait for the first request of a new connection and starts its
timer. -/
def watch (server : Server) (fd : Fd) (generation : Nat) : Except DeadlineFault Server :=
  match server.kernel.register? fd .readable with
  | none => .ok (server.release fd)
  | some kernel =>
      match Deadline.ofActivity kernel.now server.settings.timeslot with
      | .error fault => .error fault
      | .ok deadline =>
          let shared := server.shared.connectionOpened.record Counters.countAccept
          .ok ({ server with kernel, shared }.startTimer fd generation deadline)

/-- Takes a new connection. -/
def takeIn (server : Server) (fd : Fd) (peer : Address) : Except DeadlineFault Server :=
  if server.isFull fd then
    .ok (server.turnAway fd)
  else if server.kernel.fails fd .setNonblocking then
    .ok (server.dropSocket fd)
  else
    match server.table.open? fd peer with
    | none => .ok (server.dropSocket fd)
    | some (generation, table) => { server with table }.watch fd generation

/-- Takes new connections until no more wait, or until accepting fails.  The
result comes with the answers that are left. -/
def takeInAll : List Arrival → Server → Except DeadlineFault (List Arrival × Server)
  | [], server => .ok ([], server)
  | .failure .interrupted :: rest, server => takeInAll rest server
  | .failure _ :: rest, server => .ok (rest, server)
  | .connection fd peer outgoing failing :: rest, server =>
      match { server with
          kernel := server.kernel.openSocket fd outgoing failing }.takeIn fd peer with
      | .ok next => takeInAll rest next
      | .error fault => .error fault

/-- Takes the new connections that wait. -/
def handleArrivals (server : Server) : Except DeadlineFault Server :=
  match takeInAll server.kernel.arrivals server with
  | .ok (arrivals, next) => .ok { next with kernel := { next.kernel with arrivals } }
  | .error fault => .error fault

/-! ## Notices -/

/-- Acts on one notice.  The flag says whether a sweep is due. -/
def handleNotice (state : Bool × Server) : Notice → Bool × Server
  | .sweep => (true, state.2.armAlarm)
  | .stop => (state.1, { state.2 with stopping := true })
  | .wake => state

/-- Reads the notification channel.  The flag says whether a sweep is due. -/
def handleNotices (server : Server) : Bool × Server :=
  let (notices, channel) := server.shared.channel.drain
  let read := { server with shared := { server.shared with channel } }
  notices.foldl handleNotice (false, read)

/-! ## Connections -/

/-- Hands the connection of a slot to the workers.  When they have no room for it,
it is closed. -/
def dispatch (server : Server) (fd : Fd) (slot : Slot) : Server :=
  match server.pool.submit? ⟨fd, slot.generation⟩ with
  | some pool => { server.putSlot fd slot.checkOut.2 with pool }
  | none => (server.record Counters.countRejection).closeNow fd

/-- Reads what has arrived on a connection and hands it to the workers. -/
def handleReadable (server : Server) (fd : Fd) : Except DeadlineFault Server :=
  match server.table.slot? fd with
  | none => .ok server
  | some slot =>
      if slot.custody ≠ .loop then
        .ok server
      else
        let (result, connection, socket) := slot.connection.read (server.kernel.socket fd)
        let updated := { slot with connection }
        let read := (server.putSlot fd updated).putSocket fd socket
        match result with
        | .error _ => .ok (read.closeNow fd)
        | .ok _ =>
            match read.refreshTimer fd slot.generation with
            | .error fault => .error fault
            | .ok refreshed => .ok (refreshed.dispatch fd updated)

/-- Goes on sending an answer. -/
def handleWritable (server : Server) (fd : Fd) : Except DeadlineFault Server :=
  match server.table.slot? fd with
  | none => .ok server
  | some slot =>
      if slot.custody ≠ .loop then
        .ok server
      else
        let total := slot.connection.toSend
        let (outcome, connection, socket) := slot.connection.write (server.kernel.socket fd)
        let written := (server.putSlot fd { slot with connection }).putSocket fd socket
        match outcome with
        | .again =>
            (written.refreshTimer fd slot.generation).map fun next => next.rearm fd .writable
        | .keepAlive =>
            let counted := written.record fun counters => counters.countBytes total
            (counted.refreshTimer fd slot.generation).map fun next => next.rearm fd .readable
        | .close =>
            .ok ((written.record fun counters => counters.countBytes total).closeNow fd)
        | .failed => .ok (written.closeNow fd)

/-- Acts on an event of a connection.  A hangup comes before all else, and reading
before writing. -/
def handleReady (server : Server) (fd : Fd) (readiness : Readiness) :
    Except DeadlineFault Server :=
  if readiness.hangup then .ok (server.closeOrDefer fd)
  else if readiness.readable then server.handleReadable fd
  else if readiness.writable then server.handleWritable fd
  else .ok server

/-- Acts on an event.  The flag says whether a sweep is due. -/
def handle (server : Server) : Event → Except DeadlineFault (Bool × Server)
  | .arrivals => server.handleArrivals.map fun next => (false, next)
  | .notices => .ok server.handleNotices
  | .ready fd readiness => (server.handleReady fd readiness).map fun next => (false, next)

/-- Acts on events in order. -/
def handleAll : List Event → Server → Except DeadlineFault (Bool × Server)
  | [], server => .ok (false, server)
  | event :: rest, server =>
      match server.handle event with
      | .error fault => .error fault
      | .ok (due, next) => (handleAll rest next).map fun (later, last) => (due || later, last)

/-! ## Workers -/

/-- Whether a task can come to its end: it does not have to wait at a gate. -/
def canFinish (server : Server) (task : Task) : Bool :=
  match server.table.slot? task.fd with
  | none => true
  | some slot =>
      if slot.generation = task.generation then
        match slot.connection.gate? server.tree server.settings.docRoot with
        | some gate => server.kernel.gates.contains gate
        | none => true
      else
        true

/-- A worker carries out a task. -/
def carryOut (server : Server) (task : Task) : Server :=
  match server.table.slot? task.fd with
  | none => server
  | some slot =>
      let (worked, shared) := task.run server.tree server.settings.docRoot slot server.shared
      { server.putSlot task.fd worked with shared }

/-- The workers do all that they can. -/
def work (server : Server) : Server :=
  let (ended, pool) := server.pool.run server.canFinish
  ended.foldl carryOut { server with pool }

/-- Acts on a completion.  A connection that was to be closed meanwhile is closed
now. -/
def handleCompletion (server : Server) (done : Completion) : Server :=
  match server.table.slot? done.fd with
  | none => server
  | some slot =>
      if slot.generation ≠ done.generation then
        server
      else
        match slot.checkIn with
        | (false, _) => if slot.custody = .closing then server.closeNow done.fd else server
        | (true, back) =>
            let returned := server.putSlot done.fd back
            match done.outcome with
            | .needMore => returned.rearm done.fd .readable
            | .respond => returned.rearm done.fd .writable
            | .close => returned.closeNow done.fd

/-- Acts on all completions. -/
def drainCompletions (server : Server) : Server :=
  let (completions, shared) := server.shared.takeCompletions
  completions.foldl handleCompletion { server with shared }

/-! ## Idle connections -/

/-- Closes a connection whose timer has fired. -/
def evict (server : Server) (expired : Fd × Nat) : Server :=
  let (fd, generation) := expired
  let forgotten := { server with timerIds := server.timerIds.erase fd }
  match forgotten.table.slot? fd with
  | none => forgotten
  | some slot =>
      if slot.generation = generation then
        (forgotten.record Counters.countEviction).closeOrDefer fd
      else
        forgotten

/-- What is logged at the end of a sweep. -/
def sweepReport (server : Server) : SweepReport where
  live := server.shared.live
  timers := server.timers.size
  nextExpiry := server.timers.nextExpiry.map fun deadline => deadline - server.kernel.now

/-- Closes the connections whose deadline has passed. -/
def sweep (server : Server) : Server :=
  let (fired, timers) := server.timers.tick server.kernel.now
  let swept := (fired.map Prod.snd).foldl evict { server with timers }
  { swept with
    kernel := swept.kernel.logSweep swept.sweepReport
    lastSweep := swept.kernel.now }

/-- Whether a timeslot has passed since the last sweep. -/
def sweepOverdue (server : Server) : Bool :=
  server.settings.timeslot * 1000 ≤ server.kernel.now - server.lastSweep

end FileServer.Server
