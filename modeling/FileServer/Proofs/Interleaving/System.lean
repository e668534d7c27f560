import FileServer.Event.Loop

/-!
# Loop and workers side by side

A turn of the loop, as it is run, lets the workers work at fixed moments.  Nothing
in the server fixes these moments: a worker may go on whenever it is not waiting,
also between two events of one batch, and the world outside changes whenever it
likes.  This module cuts the loop and the workers into the steps that nothing
interrupts and lets them follow each other in any order.

A step of the loop is one call of a handler.  A step of a worker is one section
that it runs under a lock: a section of the pool, the work on a connection, the
report of a completion, or the entry in the notification channel.
-/

namespace FileServer

/-- Where a worker is between two sections of one task. -/
inductive Stage where
  /-- Nothing is done yet for the task in its hands, if there is one. -/
  | clear
  /-- The connection was worked on, and the completion is not reported yet. -/
  | worked (outcome : Processed)
  /-- The completion is reported, and the loop is not woken yet. -/
  | reported
  deriving DecidableEq, Repr

/-- Where the loop is in its turn. -/
inductive Place where
  | waiting
  /-- Some events of the batch are still to be handled. -/
  | serving (events : List Event) (sweepDue : Bool)
  /-- New connections are accepted one after the other, before the events left. -/
  | accepting (events : List Event) (sweepDue : Bool)
  /-- Completions were taken and are still to be acted on. -/
  | settling (completions : List Completion) (sweepDue : Bool)
  /-- Timers have fired and are still to be acted on. -/
  | sweeping (expired : List (Fd × Nat))
  /-- The loop has ended. -/
  | stopped
  deriving DecidableEq, Repr

/-- Completions that the loop has taken and not acted on yet. -/
def Place.taken : Place → List Completion
  | .settling completions _ => completions
  | _ => []

/-- The server in the middle of a turn, with a stage for each worker. -/
structure System where
  server : Server
  stages : List Stage
  place : Place

/-- What happens outside of the server. -/
inductive Circumstance where
  /-- Time passes, and gates open. -/
  | elapse (milliseconds : Nat) (gates : List Text)
  /-- Clients ask for connections. -/
  | arrive (arrivals : List Arrival)
  /-- A socket gets more answers ready, and calls begin to fail. -/
  | feed (fd : Fd) (incoming : List Receive) (outgoing : List Transmit) (failing : List Call)
  /-- A signal arrives, or someone uses a handle of the server. -/
  | signal (signal : Signal)
  deriving DecidableEq, Repr

/-- Who takes the next step. -/
inductive Action where
  | outside (circumstance : Circumstance)
  /-- A worker runs a section of the pool. -/
  | proceed (worker : Nat)
  /-- A worker works on the connection of its task. -/
  | perform (worker : Nat)
  /-- A worker leaves the completion of its task and is done with it. -/
  | report (worker : Nat)
  /-- A worker wakes the loop. -/
  | wake (worker : Nat)
  /-- The wait of the loop ends with a batch of events. -/
  | deliver (events : List Event)
  /-- The loop takes its next step. -/
  | advance
  deriving DecidableEq, Repr

namespace Kernel

/-- The kernel after something has happened outside. -/
def after (kernel : Kernel) : Circumstance → Kernel
  | .elapse milliseconds gates =>
      { kernel with now := kernel.now + milliseconds, gates := kernel.gates ++ gates }
  | .arrive arrivals => { kernel with arrivals := kernel.arrivals ++ arrivals }
  | .feed fd incoming outgoing failing => kernel.feed fd incoming outgoing failing
  | .signal _ => kernel

/-- Disarms the descriptors whose events are delivered. -/
def disarmAll (kernel : Kernel) (events : List Event) : Kernel :=
  events.foldl (fun kernel event =>
    match event with
    | .ready fd _ => kernel.disarm fd
    | .arrivals | .notices => kernel) kernel

end Kernel

/-- What a worker does to a connection, and the counters after it. -/
def Task.perform (task : Task) (tree : FileTree) (root : Text) (slot : Slot) (shared : Shared) :
    Processed × Slot × Shared :=
  let (outcome, worked) := task.work tree root slot
  let counted :=
    match answerCode? outcome worked with
    | some code => shared.record fun counters => counters.countAnswer code
    | none => shared
  (outcome, worked, counted)

/-- The completion of a task. -/
def Task.completion (task : Task) (outcome : Processed) : Completion :=
  ⟨task.fd, task.generation, outcome⟩

/-- The task that a completion completes. -/
def Completion.task (completion : Completion) : Task :=
  ⟨completion.fd, completion.generation⟩

@[simp] theorem Completion.task_completion (task : Task) (outcome : Processed) :
    (task.completion outcome).task = task := rfl

namespace Server

/-- The server after something has happened outside. -/
def after (server : Server) (circumstance : Circumstance) : Server :=
  let shared :=
    match circumstance with
    | .signal signal => server.shared.send signal
    | _ => server.shared
  { server with kernel := server.kernel.after circumstance, shared }

/-- Sets a worker of the pool. -/
def setWorker (server : Server) (index : Nat) (worker : Worker Task) : Server :=
  { server with
    pool := { server.pool with workers := server.pool.workers.set index worker } }

/-- Sets the queue of the pool. -/
def setQueue (server : Server) (queue : Queue Task) : Server :=
  { server with pool := { server.pool with queue } }

/-- Sets the connections that wait to be accepted. -/
def setArrivals (server : Server) (arrivals : List Arrival) : Server :=
  { server with kernel := { server.kernel with arrivals } }

/-- A sweep begins: the timers whose deadline has passed fire. -/
def beginSweep (server : Server) : List (Fd × Nat) × Server :=
  let (fired, timers) := server.timers.tick server.kernel.now
  (fired.map Prod.snd, { server with timers })

/-- A sweep ends. -/
def endSweep (server : Server) : Server :=
  { server with
    kernel := server.kernel.logSweep server.sweepReport
    lastSweep := server.kernel.now }

/-- A sweep is its beginning, the evictions, and its end. -/
theorem sweep_eq (server : Server) :
    server.sweep = (server.beginSweep.1.foldl evict server.beginSweep.2).endSweep := rfl

end Server

namespace System

/-- A server whose loop is about to wait for the first time. -/
def start (server : Server) : System where
  server := { server.armAlarm with lastSweep := server.kernel.now }
  stages := server.pool.workers.map fun _ => .clear
  place := .waiting

/-- A worker runs a section of the pool. -/
def proceed? (system : System) (index : Nat) : Option System :=
  match system.server.pool.workers[index]?, system.stages[index]? with
  | some worker, some .clear =>
      let (next, queue) := worker.step system.server.pool.stopped system.server.pool.queue
      some { system with server := (system.server.setQueue queue).setWorker index next }
  | _, _ => none

/-- A worker works on the connection of its task. -/
def perform? (system : System) (index : Nat) : Option System :=
  let server := system.server
  match server.pool.workers[index]?, system.stages[index]? with
  | some (.busy task), some .clear =>
      match server.table.slot? task.fd with
      | none => none
      | some slot =>
          let (outcome, worked, shared) :=
            task.perform server.tree server.settings.docRoot slot server.shared
          some { system with
            server := { server.putSlot task.fd worked with shared }
            stages := system.stages.set index (.worked outcome) }
  | _, _ => none

/-- A worker leaves the completion of its task. -/
def report? (system : System) (index : Nat) : Option System :=
  let server := system.server
  match server.pool.workers[index]?, system.stages[index]? with
  | some (.busy task), some (.worked outcome) =>
      let reported := { server with shared := server.shared.append (task.completion outcome) }
      some { system with
        server := reported.setWorker index .idle
        stages := system.stages.set index .reported }
  | _, _ => none

/-- A worker wakes the loop. -/
def wake? (system : System) (index : Nat) : Option System :=
  match system.stages[index]? with
  | some .reported =>
      some { system with
        server := { system.server with shared := system.server.shared.send .wake }
        stages := system.stages.set index .clear }
  | _ => none

/-- The wait of the loop ends. -/
def deliver? (system : System) (events : List Event) : Option System :=
  match system.place with
  | .waiting =>
      some { system with
        server := { system.server with kernel := system.server.kernel.disarmAll events }
        place := .serving events false }
  | _ => none

/-- The end of a turn: the loop waits again unless a stop was asked for. -/
def endTurn (system : System) : System :=
  { system with place := if system.server.stopping then .stopped else .waiting }

/-- The loop accepts the next connection that waits. -/
def accept? (system : System) (events : List Event) (sweepDue : Bool) : Option System :=
  match system.server.kernel.arrivals with
  | [] => some { system with place := .serving events sweepDue }
  | .failure .interrupted :: rest => some { system with server := system.server.setArrivals rest }
  | .failure _ :: rest =>
      some { system with
        server := system.server.setArrivals rest
        place := .serving events sweepDue }
  | .connection fd peer outgoing failing :: rest =>
      let server := system.server.setArrivals rest
      match { server with
          kernel := server.kernel.openSocket fd outgoing failing }.takeIn fd peer with
      | .error _ => none
      | .ok next => some { system with server := next }

/-- The loop takes its next step.  There is none while it waits, after it has
ended, and where a deadline cannot be represented. -/
def advance? (system : System) : Option System :=
  let server := system.server
  match system.place with
  | .waiting | .stopped => none
  | .serving [] sweepDue =>
      let (completions, shared) := server.shared.takeCompletions
      some { system with server := { server with shared }, place := .settling completions sweepDue }
  | .serving (.arrivals :: events) sweepDue =>
      some { system with place := .accepting events sweepDue }
  | .serving (event :: events) sweepDue =>
      match server.handle event with
      | .error _ => none
      | .ok (due, next) =>
          some { system with server := next, place := .serving events (sweepDue || due) }
  | .accepting events sweepDue => system.accept? events sweepDue
  | .settling (done :: rest) sweepDue =>
      some { system with
        server := server.handleCompletion done
        place := .settling rest sweepDue }
  | .settling [] sweepDue =>
      if sweepDue || server.sweepOverdue then
        let (expired, next) := server.beginSweep
        some { system with server := next, place := .sweeping expired }
      else
        some system.endTurn
  | .sweeping (expired :: rest) =>
      some { system with server := server.evict expired, place := .sweeping rest }
  | .sweeping [] => some { system with server := server.endSweep }.endTurn

/-- The system after an action, `none` when the action is not possible. -/
def step? (system : System) : Action → Option System
  | .outside circumstance => some { system with server := system.server.after circumstance }
  | .proceed worker => system.proceed? worker
  | .perform worker => system.perform? worker
  | .report worker => system.report? worker
  | .wake worker => system.wake? worker
  | .deliver events => system.deliver? events
  | .advance => system.advance?

/-- The system after a sequence of actions. -/
def run? (system : System) (actions : List Action) : Option System :=
  actions.foldlM step? system

theorem eq_of_run?_nil {system last : System} (ran : system.run? [] = some last) :
    last = system :=
  (Option.some.inj ran).symm

theorem run?_cons_eq_some {system last : System} {action : Action} {actions : List Action} :
    system.run? (action :: actions) = some last ↔
      ∃ next, system.step? action = some next ∧ next.run? actions = some last := by
  rw [run?, List.foldlM_cons]
  exact Option.bind_eq_some_iff

theorem run?_append {system : System} (front back : List Action) :
    system.run? (front ++ back) = (system.run? front).bind fun middle => middle.run? back :=
  List.foldlM_append

/-- What the actions of a run tell, in order. -/
def tale {β : Type} (tells : System → Action → List β) : System → List Action → List β
  | _, [] => []
  | system, action :: rest =>
      tells system action ++
        match system.step? action with
        | some next => tale tells next rest
        | none => []

/-- A run tells what its first part tells, and then what its second part does. -/
theorem tale_append {β : Type} (tells : System → Action → List β) {system middle : System}
    {front : List Action} (ran : system.run? front = some middle) (back : List Action) :
    tale tells system (front ++ back) = tale tells system front ++ tale tells middle back := by
  induction front generalizing system with
  | nil =>
      obtain rfl := eq_of_run?_nil ran
      rfl
  | cons action front ih =>
      obtain ⟨next, stepped, rest⟩ := run?_cons_eq_some.1 ran
      simp only [List.cons_append, tale, stepped, ih rest, List.append_assoc]

/-- A new server whose loop is about to wait, `none` when its settings are refused.  The
operating system forgets the registrations of closed sockets. -/
def launch? (settings : Settings) (tree : FileTree) (now : Nat) : Option System :=
  match Server.create settings tree { now, forgetsClosed := true } with
  | .ok server => some (start server)
  | .error _ => none

/-- A new server has its settings, idle workers, and nothing else. -/
theorem launch?_eq_some {settings : Settings} {tree : FileTree} {now : Nat} {system : System}
    (launched : launch? settings tree now = some system) :
    settings.complaint? = none ∧ system = start {
      settings
      tree
      table := .ofLimit settings.maxFd
      timers := .empty
      timerIds := .empty
      shared := .start now
      pool := {
        queue := .ofCapacity settings.queueCapacity
        workers := List.replicate settings.threads .idle
        stopped := false }
      stopping := false
      lastSweep := now
      kernel := { now, forgetsClosed := true } } := by
  simp only [launch?, Server.create, Pool.start?] at launched
  split at launched
  · next server created =>
      split at created
      · cases created
      · next accepted =>
          split at created
          · cases created
          · next pool started =>
              split at started
              · cases started
              · cases started
                cases created
                cases launched
                exact ⟨accepted, rfl⟩
  · cases launched

/-- The systems that a run of the server can come to, up to the end of its loop. -/
inductive Reachable : System → Prop where
  | start {settings : Settings} {tree : FileTree} {now : Nat} {system : System}
      (launched : launch? settings tree now = some system) : Reachable system
  | step {system next : System} {action : Action} (reached : Reachable system)
      (stepped : system.step? action = some next) : Reachable next

/-- What is reached from a reachable system is reachable. -/
theorem Reachable.run {system last : System} (reached : Reachable system)
    {actions : List Action} (ran : system.run? actions = some last) : Reachable last := by
  induction actions generalizing system with
  | nil =>
      obtain rfl := eq_of_run?_nil ran
      exact reached
  | cons action actions ih =>
      obtain ⟨next, stepped, rest⟩ := run?_cons_eq_some.1 ran
      exact ih (reached.step stepped) rest

/-- A connection that waits to be accepted is taken in. -/
def takeInNext (system : System) (fd : Fd) (peer : Address) (outgoing : List Transmit)
    (failing : List Call) (rest : List Arrival) : Except DeadlineFault Server :=
  let server := system.server.setArrivals rest
  { server with kernel := server.kernel.openSocket fd outgoing failing }.takeIn fd peer

/-- What one step of the loop is, depending on where the loop stands. -/
inductive Advances (system : System) : System → Prop
  /-- The events are handled, and the completions are taken. -/
  | collect {sweepDue : Bool} (place : system.place = .serving [] sweepDue) :
      Advances system { system with
        server := { system.server with shared := system.server.shared.takeCompletions.2 }
        place := .settling system.server.shared.takeCompletions.1 sweepDue }
  /-- The next event tells of new connections. -/
  | listen {events : List Event} {sweepDue : Bool}
      (place : system.place = .serving (.arrivals :: events) sweepDue) :
      Advances system { system with place := .accepting events sweepDue }
  /-- Any other event is handled. -/
  | handle {event : Event} {events : List Event} {sweepDue due : Bool} {server : Server}
      (place : system.place = .serving (event :: events) sweepDue) (other : event ≠ .arrivals)
      (handled : system.server.handle event = .ok (due, server)) :
      Advances system { system with server, place := .serving events (sweepDue || due) }
  /-- No new connection waits any more. -/
  | acceptNone {events : List Event} {sweepDue : Bool}
      (place : system.place = .accepting events sweepDue)
      (waiting : system.server.kernel.arrivals = []) :
      Advances system { system with place := .serving events sweepDue }
  /-- Accepting was interrupted and is tried again. -/
  | acceptAgain {events : List Event} {sweepDue : Bool} {rest : List Arrival}
      (place : system.place = .accepting events sweepDue)
      (waiting : system.server.kernel.arrivals = .failure .interrupted :: rest) :
      Advances system { system with server := system.server.setArrivals rest }
  /-- Accepting fails. -/
  | acceptFails {events : List Event} {sweepDue : Bool} {kind : IoErrorKind} {rest : List Arrival}
      (place : system.place = .accepting events sweepDue) (final : kind ≠ .interrupted)
      (waiting : system.server.kernel.arrivals = .failure kind :: rest) :
      Advances system { system with
        server := system.server.setArrivals rest
        place := .serving events sweepDue }
  /-- A connection is accepted. -/
  | accept {events : List Event} {sweepDue : Bool} {fd : Fd} {peer : Address}
      {outgoing : List Transmit} {failing : List Call} {rest : List Arrival} {server : Server}
      (place : system.place = .accepting events sweepDue)
      (waiting : system.server.kernel.arrivals = .connection fd peer outgoing failing :: rest)
      (taken : system.takeInNext fd peer outgoing failing rest = .ok server) :
      Advances system { system with server }
  /-- A completion is acted on. -/
  | settle {done : Completion} {rest : List Completion} {sweepDue : Bool}
      (place : system.place = .settling (done :: rest) sweepDue) :
      Advances system { system with
        server := system.server.handleCompletion done
        place := .settling rest sweepDue }
  /-- The completions are acted on, and a sweep is due. -/
  | beginSweep {sweepDue : Bool} (place : system.place = .settling [] sweepDue)
      (due : (sweepDue || system.server.sweepOverdue) = true) :
      Advances system { system with
        server := system.server.beginSweep.2
        place := .sweeping system.server.beginSweep.1 }
  /-- The completions are acted on, and no sweep is due. -/
  | rest {sweepDue : Bool} (place : system.place = .settling [] sweepDue)
      (due : (sweepDue || system.server.sweepOverdue) = false) :
      Advances system system.endTurn
  /-- A timer that has fired is acted on. -/
  | evict {expired : Fd × Nat} {rest : List (Fd × Nat)}
      (place : system.place = .sweeping (expired :: rest)) :
      Advances system { system with
        server := system.server.evict expired
        place := .sweeping rest }
  /-- The sweep ends. -/
  | endSweep (place : system.place = .sweeping []) :
      Advances system { system with server := system.server.endSweep }.endTurn

/-- Accepting is one of the ways in which the loop goes on. -/
theorem Advances.of_accept? {system next : System} {events : List Event} {sweepDue : Bool}
    (place : system.place = .accepting events sweepDue)
    (stepped : system.accept? events sweepDue = some next) : system.Advances next := by
  simp only [accept?] at stepped
  split at stepped
  · next waiting =>
      cases stepped
      exact .acceptNone place waiting
  · next rest waiting =>
      cases stepped
      exact .acceptAgain place waiting
  · next kind rest final waiting =>
      cases stepped
      exact .acceptFails place final waiting
  · next fd peer outgoing failing rest waiting =>
      split at stepped
      · cases stepped
      · next server taken =>
          cases stepped
          exact .accept place waiting taken

/-- A step of the loop is one of those that its place allows. -/
theorem Advances.of_advance? {system next : System} (stepped : system.advance? = some next) :
    system.Advances next := by
  simp only [advance?] at stepped
  split at stepped
  · cases stepped
  · cases stepped
  · next place =>
      cases stepped
      exact .collect place
  · next place =>
      cases stepped
      exact .listen place
  · next other place =>
      split at stepped
      · cases stepped
      · next handled =>
          cases stepped
          exact .handle place other handled
  · next place => exact .of_accept? place stepped
  · next place =>
      cases stepped
      exact .settle place
  · next place =>
      split at stepped
      · next due =>
          cases stepped
          exact .beginSweep place due
      · next due =>
          cases stepped
          exact .rest place (Bool.not_eq_true _ ▸ due)
  · next place =>
      cases stepped
      exact .evict place
  · next place =>
      cases stepped
      exact .endSweep place

end System

end FileServer
