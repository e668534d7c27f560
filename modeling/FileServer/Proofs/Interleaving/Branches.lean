import FileServer.Proofs.Interleaving.Handlers

/-!
# The branches of the handlers

A handler looks at the slot of its descriptor, makes a call or two, and then does
one of a few things.  Here each branch is a case with a name and with what was
found on the way to it, and the server after it is written in the operations that
the handlers share.  What a proof says about these operations it can then say
about every handler.
-/

namespace FileServer

/-- The slot that a descriptor opens next: the one it has, or one that has had no
connection. -/
def Slots.vacancy (table : Slots) (fd : Fd) : Slot :=
  (table.slot? fd).getD .fresh

/-- A slot with its next connection. -/
def Slot.opened (slot : Slot) (peer : Address) : Slot where
  custody := .loop
  generation := slot.nextGeneration
  connection := slot.connection.accept peer

/-- Opening a slot starts its next generation, and only where none is under way. -/
theorem Slots.open?_cases {table opened : Slots} {fd : Fd} {peer : Address} {generation : Nat}
    (accepted : table.open? fd peer = some (generation, opened)) :
    table.fits fd = true ∧ table.custody fd = .free ∧ (table.vacancy fd).custody = .free ∧
      generation = (table.vacancy fd).nextGeneration ∧
      opened = table.set fd ((table.vacancy fd).opened peer) := by
  simp only [open?] at accepted
  split at accepted
  · next inside =>
      have found : table.slots.find? fd = table.slot? fd := by rw [slot?, if_pos inside]
      split at accepted
      · next slot made =>
          cases accepted
          rw [found, ← vacancy, Slot.open?] at made
          split at made
          · next unused =>
              cases made
              refine ⟨inside, ?_, unused, rfl, rfl⟩
              cases held : table.slot? fd with
              | none => simp [custody, held]
              | some slot => simpa [vacancy, held, custody_of_slot? held] using unused
          · cases made
      · cases accepted
  · cases accepted

namespace Server

variable {server next : Server} {fd : Fd}

/-! ## New connections -/

/-- A connection that is watched from now on is counted and gets its timer. -/
def watched (server : Server) (fd : Fd) (generation deadline : Nat) (kernel : Kernel) : Server :=
  { server with
    kernel
    shared := server.shared.connectionOpened.record Counters.countAccept }.startTimer fd
      generation deadline

/-- The ways in which a new connection is taken in. -/
inductive TakesIn (server : Server) (fd : Fd) (peer : Address) : Server → Prop
  /-- There is no place for another connection. -/
  | busy (full : server.isFull fd = true) : TakesIn server fd peer (server.turnAway fd)
  /-- The socket cannot be prepared, or the number is in use. -/
  | dropped : TakesIn server fd peer (server.dropSocket fd)
  /-- The slot was opened, and the descriptor cannot be registered. -/
  | unwatched {generation : Nat} {table : Slots}
      (opened : server.table.open? fd peer = some (generation, table))
      (refused : server.kernel.register? fd .readable = none) :
      TakesIn server fd peer (Server.release { server with table } fd)
  | watched {generation deadline : Nat} {table : Slots} {kernel : Kernel}
      (room : server.isFull fd = false)
      (opened : server.table.open? fd peer = some (generation, table))
      (registered : server.kernel.register? fd .readable = some kernel)
      (timed : Deadline.ofActivity kernel.now server.settings.timeslot = .ok deadline) :
      TakesIn server fd peer (Server.watched { server with table } fd generation deadline kernel)

theorem takeIn_cases {peer : Address} (taken : server.takeIn fd peer = .ok next) :
    TakesIn server fd peer next := by
  simp only [takeIn] at taken
  split at taken
  · next full =>
      cases taken
      exact .busy full
  · next room =>
      split at taken
      · cases taken
        exact .dropped
      · split at taken
        · cases taken
          exact .dropped
        · next generation table opened =>
            simp only [watch] at taken
            split at taken
            · next refused =>
                cases taken
                exact .unwatched opened refused
            · next kernel registered =>
                split at taken
                · cases taken
                · next deadline timed =>
                    cases taken
                    exact .watched (Bool.not_eq_true _ ▸ room) opened registered timed

/-! ## Reading and writing -/

/-- Keeps a connection and its socket as a call on them has left them. -/
def keep (server : Server) (fd : Fd) (slot : Slot) (connection : Connection) (socket : Socket) :
    Server :=
  (server.putSlot fd { slot with connection }).putSocket fd socket

/-- The ways in which an event that a connection is readable is handled. -/
inductive Reads (server : Server) (fd : Fd) : Server → Prop
  /-- The loop has no such connection. -/
  | absent (elsewhere : server.table.custody fd ≠ .loop) : Reads server fd server
  /-- Receiving fails. -/
  | failed {slot : Slot} {kind : IoErrorKind} {connection : Connection} {socket : Socket}
      (found : server.table.slot? fd = some slot) (held : slot.custody = .loop)
      (received : slot.connection.read (server.kernel.socket fd) =
        (.error kind, connection, socket)) :
      Reads server fd ((server.keep fd slot connection socket).closeNow fd)
  /-- The workers get the connection. -/
  | lent {slot : Slot} {count : Nat} {connection : Connection} {socket : Socket}
      {refreshed : Server} {pool : Pool Task}
      (found : server.table.slot? fd = some slot) (held : slot.custody = .loop)
      (received : slot.connection.read (server.kernel.socket fd) =
        (.ok count, connection, socket))
      (timed : (server.keep fd slot connection socket).refreshTimer fd slot.generation =
        .ok refreshed)
      (submitted : refreshed.pool.submit? ⟨fd, slot.generation⟩ = some pool) :
      Reads server fd
        { refreshed.putSlot fd { slot with connection, custody := .worker } with pool }
  /-- The workers have no room for it. -/
  | rejected {slot : Slot} {count : Nat} {connection : Connection} {socket : Socket}
      {refreshed : Server}
      (found : server.table.slot? fd = some slot) (held : slot.custody = .loop)
      (received : slot.connection.read (server.kernel.socket fd) =
        (.ok count, connection, socket))
      (timed : (server.keep fd slot connection socket).refreshTimer fd slot.generation =
        .ok refreshed) :
      Reads server fd ((refreshed.record Counters.countRejection).closeNow fd)

/-- A connection that is not with the loop is with nobody or with a worker. -/
theorem custody_ne_of_slot? {slot : Slot} {custody : Custody}
    (found : server.table.slot? fd = some slot) (other : slot.custody ≠ custody) :
    server.table.custody fd ≠ custody := by
  rwa [Slots.custody_of_slot? found]

theorem handleReadable_branch (handled : server.handleReadable fd = .ok next) :
    Reads server fd next := by
  simp only [handleReadable] at handled
  split at handled
  · next absent =>
      cases handled
      exact .absent (by simp [Slots.custody, absent])
  · next slot found =>
      split at handled
      · next elsewhere =>
          cases handled
          exact .absent (custody_ne_of_slot? found elsewhere)
      · next present =>
          have held : slot.custody = .loop := Decidable.not_not.1 present
          obtain ⟨⟨result, connection, socket⟩, received⟩ :
              ∃ result, slot.connection.read (server.kernel.socket fd) = result := ⟨_, rfl⟩
          rw [received] at handled
          cases result with
          | error kind =>
              cases handled
              exact .failed found held received
          | ok count =>
              dsimp only at handled
              split at handled
              · cases handled
              · next refreshed timed =>
                  cases handled
                  simp only [dispatch]
                  split
                  · next pool submitted =>
                      simp only [Slot.checkOut, Slot.transfer, held, ↓reduceIte]
                      exact .lent found held received timed submitted
                  · exact .rejected found held received timed

/-- The ways in which an event that a connection is writable is handled. -/
inductive Writes (server : Server) (fd : Fd) : Server → Prop
  /-- The loop has no such connection. -/
  | absent (elsewhere : server.table.custody fd ≠ .loop) : Writes server fd server
  /-- The socket takes no more for now. -/
  | again {slot : Slot} {connection : Connection} {socket : Socket} {refreshed : Server}
      (found : server.table.slot? fd = some slot) (held : slot.custody = .loop)
      (sent : slot.connection.write (server.kernel.socket fd) = (.again, connection, socket))
      (timed : (server.keep fd slot connection socket).refreshTimer fd slot.generation =
        .ok refreshed) :
      Writes server fd (refreshed.rearm fd .writable)
  /-- The answer is sent, and the next request is waited for. -/
  | keepAlive {slot : Slot} {connection : Connection} {socket : Socket} {refreshed : Server}
      (found : server.table.slot? fd = some slot) (held : slot.custody = .loop)
      (sent : slot.connection.write (server.kernel.socket fd) = (.keepAlive, connection, socket))
      (timed : ((server.keep fd slot connection socket).record fun counters =>
        counters.countBytes slot.connection.toSend).refreshTimer fd slot.generation =
          .ok refreshed) :
      Writes server fd (refreshed.rearm fd .readable)
  /-- The answer is sent, and it was the last one. -/
  | close {slot : Slot} {connection : Connection} {socket : Socket}
      (found : server.table.slot? fd = some slot) (held : slot.custody = .loop)
      (sent : slot.connection.write (server.kernel.socket fd) = (.close, connection, socket)) :
      Writes server fd (((server.keep fd slot connection socket).record fun counters =>
        counters.countBytes slot.connection.toSend).closeNow fd)
  | failed {slot : Slot} {connection : Connection} {socket : Socket}
      (found : server.table.slot? fd = some slot) (held : slot.custody = .loop)
      (sent : slot.connection.write (server.kernel.socket fd) = (.failed, connection, socket)) :
      Writes server fd ((server.keep fd slot connection socket).closeNow fd)

theorem handleWritable_branch (handled : server.handleWritable fd = .ok next) :
    Writes server fd next := by
  simp only [handleWritable] at handled
  split at handled
  · next absent =>
      cases handled
      exact .absent (by simp [Slots.custody, absent])
  · next slot found =>
      split at handled
      · next elsewhere =>
          cases handled
          exact .absent (custody_ne_of_slot? found elsewhere)
      · next present =>
          have held : slot.custody = .loop := Decidable.not_not.1 present
          obtain ⟨⟨outcome, connection, socket⟩, sent⟩ :
              ∃ result, slot.connection.write (server.kernel.socket fd) = result := ⟨_, rfl⟩
          rw [sent] at handled
          cases outcome with
          | again =>
              obtain ⟨refreshed, timed, rfl⟩ := exists_of_map_eq_ok handled
              exact .again found held sent timed
          | keepAlive =>
              obtain ⟨refreshed, timed, rfl⟩ := exists_of_map_eq_ok handled
              exact .keepAlive found held sent timed
          | close =>
              cases handled
              exact .close found held sent
          | failed =>
              cases handled
              exact .failed found held sent

/-! ## Closing -/

/-- The ways in which a connection is closed now or later. -/
inductive Parts (server : Server) (fd : Fd) : Server → Prop
  /-- There is none. -/
  | absent (unused : server.table.custody fd = .free) : Parts server fd server
  /-- The loop has it and closes it. -/
  | now (held : server.table.custody fd = .loop) : Parts server fd (server.closeNow fd)
  /-- A worker has it, and it is closed when it comes back. -/
  | later {slot : Slot} (found : server.table.slot? fd = some slot)
      (lent : slot.custody = .worker ∨ slot.custody = .closing) :
      Parts server fd (server.putSlot fd { slot with custody := .closing })

theorem closeOrDefer_branch (server : Server) (fd : Fd) :
    Parts server fd (server.closeOrDefer fd) := by
  simp only [closeOrDefer]
  split
  · next absent => exact .absent (by simp [Slots.custody, absent])
  · next slot found =>
      have custody := Slots.custody_of_slot? found
      split
      · next unused => exact .absent (custody.trans unused)
      · next held => exact .now (custody.trans held)
      · next lent =>
          simp only [Slot.deferClose, lent]
          exact .later found (.inl lent)
      · next lent =>
          have same : slot.deferClose.2 = { slot with custody := .closing } := by
            obtain ⟨custody, generation, connection⟩ := slot
            cases lent
            rfl
          rw [same]
          exact .later found (.inr lent)

/-- An event of a connection is a hangup, or it is readable, or writable, or the
event says nothing. -/
inductive Handles (server : Server) (fd : Fd) (readiness : Readiness) : Server → Prop
  | hangup {next : Server} (hung : readiness.hangup = true) (parts : Parts server fd next) :
      Handles server fd readiness next
  | readable {next : Server} (ready : readiness.readable = true) (reads : Reads server fd next) :
      Handles server fd readiness next
  | writable {next : Server} (ready : readiness.writable = true) (writes : Writes server fd next) :
      Handles server fd readiness next
  | nothing (hung : readiness.hangup = false) (unreadable : readiness.readable = false)
      (unwritable : readiness.writable = false) : Handles server fd readiness server

theorem handleReady_branch {readiness : Readiness}
    (handled : server.handleReady fd readiness = .ok next) :
    Handles server fd readiness next := by
  simp only [handleReady] at handled
  split at handled
  · next hung =>
      cases handled
      exact .hangup hung (closeOrDefer_branch server fd)
  · next hung =>
      split at handled
      · next ready => exact .readable ready (handleReadable_branch handled)
      · next unreadable =>
          split at handled
          · next ready => exact .writable ready (handleWritable_branch handled)
          · next unwritable =>
              cases handled
              exact .nothing (Bool.not_eq_true _ ▸ hung) (Bool.not_eq_true _ ▸ unreadable)
                (Bool.not_eq_true _ ▸ unwritable)

/-! ## Completions and evictions -/

/-- What a connection that came back from a worker waits for, or that it is
closed. -/
def resume (server : Server) (fd : Fd) : Processed → Server
  | .needMore => server.rearm fd .readable
  | .respond => server.rearm fd .writable
  | .close => server.closeNow fd

/-- The ways in which the completion of a lent connection is acted on. -/
inductive Settles (server : Server) (done : Completion) : Server → Prop
  /-- The connection was to be closed. -/
  | deferred {slot : Slot} (found : server.table.slot? done.fd = some slot)
      (current : slot.generation = done.generation) (lent : slot.custody = .closing) :
      Settles server done (server.closeNow done.fd)
  | returned {slot : Slot} (found : server.table.slot? done.fd = some slot)
      (current : slot.generation = done.generation) (lent : slot.custody = .worker) :
      Settles server done ((server.putSlot done.fd { slot with custody := .loop }).resume done.fd
        done.outcome)

theorem handleCompletion_branch {done : Completion}
    (lent : server.table.lent done.fd = some ⟨done.fd, done.generation⟩) :
    Settles server done (server.handleCompletion done) := by
  obtain ⟨slot, found, task, custody⟩ := Slots.slot?_of_lent lent
  have current : slot.generation = done.generation := (congrArg Task.generation task).symm
  simp only [handleCompletion, found, current, ne_eq, not_true_eq_false, ↓reduceIte]
  rcases custody with worker | closing
  · have back : slot.checkIn = (true, { slot with custody := .loop }) := by
      simp [Slot.checkIn, Slot.transfer, worker]
    have returned : Settles server done _ := .returned found current worker
    rw [back]
    cases outcome : done.outcome with
    | needMore | respond | close => simpa only [outcome, resume] using returned
  · have kept : slot.checkIn = (false, slot) := by
      simp [Slot.checkIn, Slot.transfer, closing]
    rw [kept]
    simp only [closing, ↓reduceIte]
    exact .deferred found current closing

/-- The timer of a descriptor is forgotten, though not deleted. -/
def forgetTimer (server : Server) (fd : Fd) : Server :=
  { server with timerIds := server.timerIds.erase fd }

/-- The ways in which a timer that has fired is acted on. -/
inductive Evicts (server : Server) (fd : Fd) (generation : Nat) : Server → Prop
  /-- The connection that it was for is gone. -/
  | stale (other : ∀ slot, server.table.slot? fd = some slot → slot.generation ≠ generation) :
      Evicts server fd generation (server.forgetTimer fd)
  | counted {slot : Slot} {next : Server} (found : server.table.slot? fd = some slot)
      (current : slot.generation = generation)
      (parts : Parts ((server.forgetTimer fd).record Counters.countEviction) fd next) :
      Evicts server fd generation next

theorem evict_branch (server : Server) (fd : Fd) (generation : Nat) :
    Evicts server fd generation (server.evict (fd, generation)) := by
  simp only [evict]
  split
  · next absent =>
      apply Evicts.stale
      intro slot present
      cases absent.symm.trans present
  · next slot found =>
      split
      · next current => exact .counted found current (closeOrDefer_branch _ fd)
      · next other =>
          apply Evicts.stale
          intro held present
          cases found.symm.trans present
          exact other

/-! ## Between the operations of a handler -/

/-- Refreshing a timer touches nothing but timers. -/
theorem refreshTimer_eq {generation : Nat} (timed : server.refreshTimer fd generation = .ok next) :
    ∃ timers timerIds, next = { server with timers, timerIds } := by
  simp only [refreshTimer] at timed
  split at timed
  · cases timed
  · split at timed
    · cases timed
      exact ⟨_, _, rfl⟩
    · split at timed
      · cases timed
        exact ⟨_, _, rfl⟩
      · cases timed
        exact ⟨_, _, rfl⟩

theorem slot?_refreshTimer {generation : Nat}
    (timed : server.refreshTimer fd generation = .ok next) :
    next.table.slot? fd = server.table.slot? fd := by
  rw [(confined_refreshTimer timed).2]

theorem slot?_keep {slot : Slot} (found : server.table.slot? fd = some slot)
    (connection : Connection) (socket : Socket) :
    (server.keep fd slot connection socket).table.slot? fd = some { slot with connection } :=
  Slots.slot?_set_of_slot? found _

/-! ## What no handler changes -/

/-- The settings, the documents, the clock, the answers of the operating system that are
still to come, apart from those of sockets, and what it does with the registrations of
closed sockets. -/
structure Surroundings where
  settings : Settings
  tree : FileTree
  now : Nat
  failing : FdMap (List Call)
  arrivals : List Arrival
  forgetsClosed : Bool

/-- What a server goes by and no handler changes. -/
def surroundings (server : Server) : Surroundings :=
  ⟨server.settings, server.tree, server.kernel.now, server.kernel.failing, server.kernel.arrivals,
    server.kernel.forgetsClosed⟩

theorem surroundings_release (server : Server) (fd : Fd) :
    (server.release fd).surroundings = server.surroundings := by
  simp only [release]
  split
  · simp only [surroundings]
    split <;> rfl
  · rfl

theorem surroundings_closeNow (server : Server) (fd : Fd) :
    (server.closeNow fd).surroundings = server.surroundings := by
  simp only [closeNow]
  split
  · rfl
  · refine (surroundings_release _ fd).trans ?_
    simp only [dropTimer, Kernel.unregister]
    split
    · simp only [surroundings]
      split <;> rfl
    · simp only [surroundings]
      split <;> rfl

theorem surroundings_rearm (server : Server) (fd : Fd) (interest : Interest) :
    (server.rearm fd interest).surroundings = server.surroundings := by
  simp only [rearm]
  split
  · next kernel armed =>
      simp only [Kernel.rearm?] at armed
      split at armed
      · cases armed
      · cases armed
        rfl
  · exact surroundings_closeNow server fd

theorem surroundings_refreshTimer {generation : Nat}
    (timed : server.refreshTimer fd generation = .ok next) :
    next.surroundings = server.surroundings := by
  obtain ⟨timers, timerIds, rfl⟩ := refreshTimer_eq timed
  rfl

theorem TakesIn.surroundings {peer : Address} (takesIn : TakesIn server fd peer next) :
    next.surroundings = server.surroundings := by
  cases takesIn with
  | busy | dropped => rfl
  | unwatched => exact surroundings_release _ fd
  | watched room opened registered =>
      simp only [Kernel.register?] at registered
      split at registered
      · cases registered
      · cases registered
        rfl

theorem Reads.surroundings (reads : Reads server fd next) :
    next.surroundings = server.surroundings := by
  cases reads with
  | absent => rfl
  | failed => exact surroundings_closeNow _ fd
  | lent found held received timed =>
      have refreshed := surroundings_refreshTimer timed
      exact refreshed
  | rejected found held received timed =>
      have refreshed := surroundings_refreshTimer timed
      exact (surroundings_closeNow _ fd).trans refreshed

theorem Writes.surroundings (writes : Writes server fd next) :
    next.surroundings = server.surroundings := by
  cases writes with
  | absent => rfl
  | again found held sent timed | keepAlive found held sent timed =>
      have refreshed := surroundings_refreshTimer timed
      exact (surroundings_rearm _ fd _).trans refreshed
  | close | failed => exact surroundings_closeNow _ fd

theorem Parts.surroundings (parts : Parts server fd next) :
    next.surroundings = server.surroundings := by
  cases parts with
  | absent | later => rfl
  | now => exact surroundings_closeNow server fd

theorem Handles.surroundings {readiness : Readiness}
    (handles : Handles server fd readiness next) : next.surroundings = server.surroundings := by
  cases handles with
  | hangup _ parts => exact parts.surroundings
  | readable _ reads => exact reads.surroundings
  | writable _ writes => exact writes.surroundings
  | nothing => rfl

theorem Settles.surroundings {done : Completion} (settles : Settles server done next) :
    next.surroundings = server.surroundings := by
  cases settles with
  | deferred => exact surroundings_closeNow server done.fd
  | returned =>
      cases done.outcome with
      | needMore | respond => exact surroundings_rearm _ done.fd _
      | close => exact surroundings_closeNow _ done.fd

theorem Evicts.surroundings {generation : Nat} (evicts : Evicts server fd generation next) :
    next.surroundings = server.surroundings := by
  cases evicts with
  | stale => rfl
  | counted _ _ parts => exact parts.surroundings

theorem surroundings_handleNotices (server : Server) :
    server.handleNotices.2.surroundings = server.surroundings := by
  have notices (notices : List Notice) (state : Bool × Server) :
      (notices.foldl handleNotice state).2.surroundings = state.2.surroundings := by
    induction notices generalizing state with
    | nil => rfl
    | cons first rest ih =>
        refine (ih (handleNotice state first)).trans ?_
        cases first <;> rfl
  exact notices _ _

end Server

end FileServer
