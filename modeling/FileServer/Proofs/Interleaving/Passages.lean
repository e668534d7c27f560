import FileServer.Proofs.Exchange.Session
import FileServer.Proofs.Interleaving.Holdings
import FileServer.Proofs.Interleaving.Watchfulness

/-!
# What happens to one connection

Of all that the server does, little concerns a given descriptor: answers that its
socket gets ready, the three calls of the cycle, and changes of custody.  A step of the
system is, as seen from a descriptor, one of these, or nothing at all.  What it is
depends on the step and on who may touch the connection; what it does depends on the
connection and its socket alone.
-/

namespace FileServer

/-- The call that an event asks for.  A hangup comes before all else, and receiving
before sending. -/
def Readiness.stroke? (readiness : Readiness) : Option Stroke :=
  if readiness.hangup then none
  else if readiness.readable then some .read
  else if readiness.writable then some .write
  else none

theorem Readiness.stroke?_ne_process (readiness : Readiness) :
    readiness.stroke? ≠ some .process := by
  simp only [stroke?]
  repeat' split
  all_goals nofun

namespace System

/-- What a step means to a descriptor. -/
def stimulus? (fd : Fd) (system : System) : Action → Option Stimulus
  | .outside (.feed other incoming outgoing _) =>
      if other = fd then some (.feed incoming outgoing) else none
  | .perform worker =>
      match system.server.pool.workers[worker]? with
      | some (.busy task) => if task.fd = fd then some (.stroke .process) else none
      | _ => none
  | .advance =>
      match system.place with
      | .serving (.ready other readiness :: _) _ =>
          if other = fd ∧ system.server.table.custody fd = .loop then
            readiness.stroke?.map .stroke
          else none
      | _ => none
  | _ => none

/-- The work on what was received is left to the workers. -/
theorem stimulus?_ne_process (fd : Fd) (system : System) {action : Action}
    (other : ∀ worker, action ≠ .perform worker) :
    system.stimulus? fd action ≠ some (.stroke .process) := by
  intro works
  cases action with
  | perform worker => exact other worker rfl
  | proceed | report | wake | deliver => cases works
  | outside circumstance =>
      cases circumstance with
      | feed =>
          simp only [stimulus?] at works
          split at works <;> cases works
      | elapse | arrive | signal => cases works
  | advance =>
      simp only [stimulus?] at works
      split at works
      · next readiness _ _ _ =>
          split at works
          · obtain ⟨stroke, asked, same⟩ := Option.map_eq_some_iff.1 works
            cases same
            exact readiness.stroke?_ne_process asked
          · cases works
      · cases works

/-- What is reported of the call on the connection of a descriptor that a step makes. -/
def outcome? (fd : Fd) (system : System) : Action → Option Outcome
  | .perform worker =>
      match system.server.pool.workers[worker]?, system.server.table.slot? fd with
      | some (.busy task), some slot =>
          if task.fd = fd then
            some (.processed
              (task.work system.server.tree system.server.settings.docRoot slot).1)
          else none
      | _, _ => none
  | .advance =>
      match system.stimulus? fd .advance, system.server.table.slot? fd with
      | some (.stroke .write), some slot =>
          some (.written (slot.connection.write (system.server.kernel.socket fd)).1)
      | _, _ => none
  | _ => none

/-- What a run means to a descriptor. -/
def stimuli (fd : Fd) : System → List Action → List Stimulus
  | _, [] => []
  | system, action :: rest =>
      (system.stimulus? fd action).toList ++
        match system.step? action with
        | some next => stimuli fd next rest
        | none => []

/-- What is reported in a run of the calls on the connection of a descriptor. -/
def outcomes (fd : Fd) : System → List Action → List Outcome
  | _, [] => []
  | system, action :: rest =>
      (system.outcome? fd action).toList ++
        match system.step? action with
        | some next => outcomes fd next rest
        | none => []

/-- What a step of the system does to the slot and the socket of a descriptor, and what
it means to the connection. -/
inductive Passes (system : System) (fd : Fd) (slot : Slot) (socket : Option Socket)
    (action : Action) (next : Server) : Option Stimulus → Prop
  /-- Nothing. -/
  | still (houses : next.Houses fd slot socket) : Passes system fd slot socket action next none
  | fed {incoming : List Receive} {outgoing : List Transmit}
      (houses : next.Houses fd slot (socket.map fun socket => socket.script incoming outgoing)) :
      Passes system fd slot socket action next (some (.feed incoming outgoing))
  /-- A socket that has its number from the kernel is turned away or dropped. -/
  | handedOut {after : Option Socket} (advances : action = .advance)
      (incoming : system.incoming? = some fd) (houses : next.Houses fd slot after) :
      Passes system fd slot socket action next none
  /-- A connection is taken in. -/
  | opened {peer : Address} {outgoing : List Transmit} {failing : List Call} {rest : List Arrival}
      (waiting : system.server.kernel.arrivals = .connection fd peer outgoing failing :: rest)
      (unused : slot.custody = .free)
      (houses : next.Houses fd (slot.opened peer) (some { outgoing })) :
      Passes system fd slot socket action next none
  /-- A connection is taken in and given up. -/
  | unwatched {peer : Address} {after : Option Socket} (unused : slot.custody = .free)
      (houses : next.Houses fd (slot.opened peer).release after) :
      Passes system fd slot socket action next none
  /-- A lent connection is to be closed when it comes back. -/
  | deferred (lent : slot.custody = .worker ∨ slot.custody = .closing)
      (houses : next.Houses fd { slot with custody := .closing } socket) :
      Passes system fd slot socket action next none
  | closed (used : slot.custody ≠ .free) (houses : next.Houses fd slot.release socket) :
      Passes system fd slot socket action next none
  /-- A lent connection comes back. -/
  | returned {outcome : Processed}
      (errand : system.Errand ⟨fd, slot.generation⟩ (some outcome)) (goesOn : outcome ≠ .close)
      (lent : slot.custody = .worker)
      (houses : next.Houses fd { slot with custody := .loop } socket) :
      Passes system fd slot socket action next none
  /-- The loop receives and lends the connection. -/
  | received {readiness : Readiness} {count : Nat} {connection : Connection} {after : Socket}
      (asked : readiness ∈ system.calls fd) (ready : readiness.readable = true)
      (held : slot.custody = .loop)
      (received : slot.connection.read (socket.getD {}) = (.ok count, connection, after))
      (houses : next.Houses fd { slot with connection, custody := .worker } (some after)) :
      Passes system fd slot socket action next (some (.stroke .read))
  /-- The loop receives and closes the connection. -/
  | receivedLast {readiness : Readiness} {result : Except IoErrorKind Nat} {connection : Connection}
      {after : Socket} (asked : readiness ∈ system.calls fd) (ready : readiness.readable = true)
      (held : slot.custody = .loop)
      (received : slot.connection.read (socket.getD {}) = (result, connection, after))
      (houses : next.Houses fd (Slot.release { slot with connection }) (some after)) :
      Passes system fd slot socket action next (some (.stroke .read))
  /-- A worker works on what was received. -/
  | worked (errand : system.Errand ⟨fd, slot.generation⟩ none)
      (lent : slot.custody = .worker ∨ slot.custody = .closing)
      (houses : next.Houses fd { slot with
        connection := (slot.connection.processed system.server.tree
          system.server.settings.docRoot).2 } socket) :
      Passes system fd slot socket action next (some (.stroke .process))
  /-- The loop sends, and goes on with the connection. -/
  | sent {readiness : Readiness} {outcome : Written} {connection : Connection} {after : Socket}
      (asked : readiness ∈ system.calls fd) (ready : readiness.writable = true)
      (held : slot.custody = .loop)
      (written : slot.connection.write (socket.getD {}) = (outcome, connection, after))
      (goesOn : outcome = .again ∨ outcome = .keepAlive)
      (houses : next.Houses fd { slot with connection } (some after)) :
      Passes system fd slot socket action next (some (.stroke .write))
  /-- The loop sends and closes the connection. -/
  | sentLast {readiness : Readiness} {outcome : Written} {connection : Connection} {after : Socket}
      (asked : readiness ∈ system.calls fd) (ready : readiness.writable = true)
      (held : slot.custody = .loop)
      (written : slot.connection.write (socket.getD {}) = (outcome, connection, after))
      (houses : next.Houses fd (Slot.release { slot with connection }) (some after)) :
      Passes system fd slot socket action next (some (.stroke .write))

variable {system next : System} {before after : Server} {fd : Fd} {slot : Slot}
variable {socket : Option Socket} {action : Action}

/-! ## Branches -/

theorem passes_of_parts (houses : before.Houses fd slot socket)
    (parts : Server.Parts before fd after) : Passes system fd slot socket action after none := by
  cases parts with
  | absent => exact .still houses
  | now held =>
      have used : slot.custody ≠ .free := by
        rw [← houses.custody, held]
        nofun
      exact .closed used (houses.closeNow used)
  | later found lent =>
      cases houses.eq_of_slot? found
      exact .deferred lent (houses.putSlot found _)

theorem passes_of_reads (houses : system.server.Houses fd slot socket) {readiness : Readiness}
    (asked : readiness ∈ system.calls fd) (ready : readiness.readable = true)
    (held : slot.custody = .loop) (reads : Server.Reads system.server fd after) :
    Passes system fd slot socket action after (some (.stroke .read)) := by
  have used : slot.custody ≠ .free := by simp [held]
  cases reads with
  | absent elsewhere => exact (elsewhere (houses.custody.trans held)).elim
  | @failed _ _ connection socket found _ received =>
      cases houses.eq_of_slot? found
      have kept := Server.houses_keep found connection socket
      rw [houses.socket_eq] at received
      exact .receivedLast asked ready held received (kept.closeNow used)
  | @lent _ _ connection socket _ _ found _ received timed =>
      cases houses.eq_of_slot? found
      have kept := (Server.houses_keep found connection socket).refreshTimer timed
      have lent := kept.putSlot (kept.found used) { slot with connection, custody := .worker }
      rw [houses.socket_eq] at received
      exact .received asked ready held received ⟨lent.slot, lent.socket⟩
  | @rejected _ _ connection socket _ found _ received timed =>
      cases houses.eq_of_slot? found
      have kept := (Server.houses_keep found connection socket).refreshTimer timed
      rw [houses.socket_eq] at received
      exact .receivedLast asked ready held received ((kept.record _).closeNow used)

theorem passes_of_writes (houses : system.server.Houses fd slot socket) {readiness : Readiness}
    (asked : readiness ∈ system.calls fd) (ready : readiness.writable = true)
    (held : slot.custody = .loop) (writes : Server.Writes system.server fd after) :
    Passes system fd slot socket action after (some (.stroke .write)) := by
  have used : slot.custody ≠ .free := by simp [held]
  cases writes with
  | absent elsewhere => exact (elsewhere (houses.custody.trans held)).elim
  | @again _ connection socket _ found _ written timed =>
      cases houses.eq_of_slot? found
      have kept := (Server.houses_keep found connection socket).refreshTimer timed
      rw [houses.socket_eq] at written
      rcases kept.rearm used .writable with armed | closed
      · exact .sent asked ready held written (.inl rfl) armed
      · exact .sentLast asked ready held written closed
  | @keepAlive _ connection socket _ found _ written timed =>
      cases houses.eq_of_slot? found
      have kept := Server.houses_keep found connection socket
      have counted := kept.record fun counters => counters.countBytes slot.connection.toSend
      rw [houses.socket_eq] at written
      rcases (counted.refreshTimer timed).rearm used .readable with armed | closed
      · exact .sent asked ready held written (.inr rfl) armed
      · exact .sentLast asked ready held written closed
  | @close _ connection socket found _ written =>
      cases houses.eq_of_slot? found
      have kept := Server.houses_keep found connection socket
      have counted := kept.record fun counters => counters.countBytes slot.connection.toSend
      rw [houses.socket_eq] at written
      exact .sentLast asked ready held written (counted.closeNow used)
  | @failed _ connection socket found _ written =>
      cases houses.eq_of_slot? found
      have kept := Server.houses_keep found connection socket
      rw [houses.socket_eq] at written
      exact .sentLast asked ready held written (kept.closeNow used)

theorem passes_of_settles {done : Completion} (left : done ∈ system.completions)
    (houses : system.server.Houses done.fd slot socket)
    (settles : Server.Settles system.server done after) :
    Passes system done.fd slot socket action after none := by
  cases settles with
  | deferred found current lent =>
      cases houses.eq_of_slot? found
      have used : slot.custody ≠ .free := by simp [lent]
      exact .closed used (houses.closeNow used)
  | returned found current lent =>
      cases houses.eq_of_slot? found
      have used : slot.custody ≠ .free := by simp [lent]
      have back := houses.putSlot found { slot with custody := .loop }
      have errand : system.Errand ⟨done.fd, slot.generation⟩ (some done.outcome) := by
        rw [current]
        exact .reported left
      cases outcome : done.outcome with
      | close => exact .closed used (back.closeNow nofun)
      | needMore =>
          rw [outcome] at errand
          rcases back.rearm nofun .readable with armed | closed
          · exact .returned errand nofun lent armed
          · exact .closed used closed
      | respond =>
          rw [outcome] at errand
          rcases back.rearm nofun .writable with armed | closed
          · exact .returned errand nofun lent armed
          · exact .closed used closed

theorem passes_of_evicts {generation : Nat} (houses : system.server.Houses fd slot socket)
    (evicts : Server.Evicts system.server fd generation after) :
    Passes system fd slot socket action after none := by
  cases evicts with
  | stale => exact .still ⟨houses.slot, houses.socket⟩
  | counted found current parts =>
      have forgotten : (system.server.forgetTimer fd).Houses fd slot socket :=
        ⟨houses.slot, houses.socket⟩
      exact passes_of_parts (forgotten.record _) parts

theorem passes_of_takesIn {peer : Address} {outgoing : List Transmit} {failing : List Call}
    {rest : List Arrival}
    (waiting : system.server.kernel.arrivals = .connection fd peer outgoing failing :: rest)
    (incoming : system.incoming? = some fd) (takesIn : Server.TakesIn before fd peer after)
    (houses : before.Houses fd slot (some { outgoing })) :
    Passes system fd slot socket .advance after none := by
  cases takesIn with
  | busy => exact .handedOut rfl incoming ⟨houses.slot, rfl⟩
  | dropped => exact .handedOut rfl incoming ⟨houses.slot, rfl⟩
  | unwatched opened refused =>
      obtain ⟨inside, -, unused, -, rfl⟩ := Slots.open?_cases opened
      rw [houses.slot] at unused opened ⊢
      have found := Slots.slot?_set_self inside (slot.opened peer)
      have housed : Server.Houses { before with table := before.table.set fd (slot.opened peer) }
          fd (slot.opened peer) (some { outgoing }) :=
        ⟨Slots.vacancy_of_slot? found, houses.socket⟩
      exact .unwatched unused (housed.release found)
  | @watched _ _ _ kernel room opened registered =>
      obtain ⟨inside, -, unused, -, rfl⟩ := Slots.open?_cases opened
      rw [houses.slot] at unused ⊢
      have found := Slots.slot?_set_self inside (slot.opened peer)
      refine .opened waiting unused ⟨Slots.vacancy_of_slot? found, ?_⟩
      have sockets := congrArg (FdMap.find? · fd) (Server.sockets_register? registered)
      exact sockets.trans houses.socket

/-! ## Steps -/

/-- Handling the event of a connection is the call that it asks for, if the loop has the
connection. -/
theorem passes_of_handleReady {readiness : Readiness} {events : List Event} {sweepDue : Bool}
    (position : system.place = .serving (.ready fd readiness :: events) sweepDue)
    (houses : system.server.Houses fd slot socket)
    (handled : system.server.handleReady fd readiness = .ok after) :
    Passes system fd slot socket .advance after (system.stimulus? fd .advance) := by
  have asked : readiness ∈ system.calls fd := by
    simp [calls, position, Place.events, Event.readiness?]
  have meaning : system.stimulus? fd .advance =
      if slot.custody = .loop then readiness.stroke?.map .stroke else none := by
    simp [stimulus?, position, houses.custody]
  rw [meaning]
  simp only [Server.handleReady] at handled
  split at handled
  · next hung =>
      cases handled
      have parts := Server.closeOrDefer_branch system.server fd
      simpa [Readiness.stroke?, hung] using passes_of_parts houses parts
  · next hung =>
      split at handled
      · next ready =>
          have reads := Server.handleReadable_branch handled
          split
          · next held =>
              simpa [Readiness.stroke?, hung, ready] using
                passes_of_reads houses asked ready held reads
          · next elsewhere =>
              rw [← houses.custody] at elsewhere
              rw [reads.eq_of_elsewhere elsewhere]
              exact .still houses
      · next unreadable =>
          split at handled
          · next ready =>
              have writes := Server.handleWritable_branch handled
              split
              · next held =>
                  simpa [Readiness.stroke?, hung, unreadable, ready] using
                    passes_of_writes houses asked ready held writes
              · next elsewhere =>
                  rw [← houses.custody] at elsewhere
                  rw [writes.eq_of_elsewhere elsewhere]
                  exact .still houses
          · next unwritable =>
              cases handled
              simpa [Readiness.stroke?, hung, unreadable, unwritable] using Passes.still houses

/-- A handler that is called for another descriptor. -/
theorem passes_of_elsewhere {about : Fd} (houses : system.server.Houses fd slot socket)
    (differ : fd ≠ about) (leaves : Server.Leaves fd system.server after)
    (keeps : Server.KeepsSockets about system.server after) :
    Passes system fd slot socket action after none :=
  .still (houses.elsewhere differ leaves keeps)

theorem passes_of_handle {event : Event} {events : List Event} {sweepDue due : Bool}
    (position : system.place = .serving (event :: events) sweepDue) (other : event ≠ .arrivals)
    (houses : system.server.Houses fd slot socket)
    (handled : system.server.handle event = .ok (due, after)) :
    Passes system fd slot socket .advance after (system.stimulus? fd .advance) := by
  cases event with
  | arrivals => exact (other rfl).elim
  | notices =>
      have meaning : system.stimulus? fd .advance = none := by simp [stimulus?, position]
      rw [meaning]
      have table := congrArg Ledger.table (Server.ledger_notices handled)
      have sockets := Server.sockets_handleNotices system.server
      rw [Except.ok.inj handled] at sockets
      exact .still (houses.of_same (congrArg (Slots.slot? · fd) table)
        (congrArg (FdMap.find? · fd) sockets))
  | ready about readiness =>
      obtain ⟨-, acted⟩ := Server.handleReady_of_handle handled
      by_cases mine : about = fd
      · subst mine
        exact passes_of_handleReady position houses acted
      · have meaning : system.stimulus? fd .advance = none := by simp [stimulus?, position, mine]
        rw [meaning]
        have keeps := (Server.handleReady_branch acted).keepsSockets
        rcases Server.handleReady_cases acted with ⟨confined, -⟩ | ⟨_, rfl, lends⟩
        · exact passes_of_elsewhere houses (Ne.symm mine) (confined.leaves fd (Ne.symm mine)) keeps
        · exact passes_of_elsewhere houses (Ne.symm mine) (lends.leaves fd (Ne.symm mine)) keeps

theorem passes_of_advances (owned : system.Owned) (advances : system.Advances next)
    (houses : system.server.Houses fd slot socket) :
    Passes system fd slot socket .advance next.server (system.stimulus? fd .advance) := by
  cases advances with
  | handle position other handled => exact passes_of_handle position other houses handled
  | collect position | listen position | acceptNone position | acceptAgain position
  | acceptFails position | beginSweep position | rest position | endSweep position =>
      have meaning : system.stimulus? fd .advance = none := by simp [stimulus?, position]
      rw [meaning]
      exact .still ⟨houses.slot, houses.socket⟩
  | @accept events sweepDue about peer outgoing failing rest server position waiting taken =>
      have meaning : system.stimulus? fd .advance = none := by simp [stimulus?, position]
      rw [meaning]
      have takesIn := Server.takeIn_cases taken
      by_cases mine : about = fd
      · subst mine
        have incoming : system.incoming? = some about := by simp [incoming?, position, waiting]
        exact passes_of_takesIn waiting incoming takesIn
          ⟨houses.slot, FdMap.find?_insert_self _ _ _⟩
      · have leaves := (takeInNext_spec taken).1.leaves fd (Ne.symm mine)
        refine passes_of_elsewhere houses (Ne.symm mine) leaves ?_
        exact Server.KeepsSockets.trans (Server.keepsSockets_of_insert rfl) takesIn.keepsSockets
  | @settle done rest sweepDue position =>
      have meaning : system.stimulus? fd .advance = none := by simp [stimulus?, position]
      rw [meaning]
      have left : done ∈ system.completions := by simp [completions, position, Place.taken]
      have lent := owned.lent_of_settling position
      have settles := Server.handleCompletion_branch lent
      by_cases mine : done.fd = fd
      · subst mine
        exact passes_of_settles left houses settles
      · obtain ⟨confined, -⟩ := Server.handleCompletion_spec lent
        exact passes_of_elsewhere houses (Ne.symm mine) (confined.leaves fd (Ne.symm mine))
          settles.keepsSockets
  | @evict expired rest position =>
      have meaning : system.stimulus? fd .advance = none := by simp [stimulus?, position]
      rw [meaning]
      obtain ⟨about, generation⟩ := expired
      have evicts := Server.evict_branch system.server about generation
      by_cases mine : about = fd
      · subst mine
        exact passes_of_evicts houses evicts
      · have confined := Server.confined_evict system.server about generation
        exact passes_of_elsewhere houses (Ne.symm mine) (confined.leaves fd (Ne.symm mine))
          evicts.keepsSockets

theorem passes_of_perform? (owned : system.Owned) {worker : Nat}
    (stepped : system.perform? worker = some next) (houses : system.server.Houses fd slot socket) :
    Passes system fd slot socket (.perform worker) next.server
      (system.stimulus? fd (.perform worker)) := by
  obtain ⟨task, held, busy, clear, found, rfl⟩ := perform?_eq_some stepped
  have errand : system.Errand task none := .held busy clear
  simp only [stimulus?, busy]
  by_cases mine : task.fd = fd
  · subst mine
    cases houses.eq_of_slot? found
    obtain ⟨lent, there, same, custody⟩ := Slots.slot?_of_lent (owned.lent_of_mem errand.unit)
    cases found.symm.trans there
    have current : slot.generation = task.generation := (congrArg Task.generation same).symm
    rw [if_pos rfl, Task.work_eq_processed _ _ current]
    rw [same] at errand
    have worked := houses.putSlot found { slot with
      connection := (slot.connection.processed system.server.tree
        system.server.settings.docRoot).2 }
    exact .worked errand custody ⟨worked.slot, worked.socket⟩
  · rw [if_neg mine]
    refine .still (houses.of_same (Slots.slot?_set_of_ne (Ne.symm mine) _) rfl)

/-- What a step is to the connections: something outside, the work on one of them, a step
of the loop, or no more than tasks, completions and events being passed on. -/
inductive Steps (system : System) : Action → System → Prop
  | outside (circumstance : Circumstance) :
      Steps system (.outside circumstance)
        { system with server := system.server.after circumstance }
  | perform {worker : Nat} {next : System} (performed : system.perform? worker = some next) :
      Steps system (.perform worker) next
  | advance {next : System} (advances : system.Advances next) : Steps system .advance next
  | aside {action : Action} {next : System} (pool : Pool Task) (shared : Shared)
      (registrations : FdMap Registration) (mute : ∀ fd, system.stimulus? fd action = none)
      (same : next.server = { system.server with
        pool, shared, kernel := { system.server.kernel with registrations } }) :
      Steps system action next

theorem steps_of_step? (stepped : system.step? action = some next) : system.Steps action next := by
  cases action with
  | outside circumstance =>
      cases stepped
      exact .outside circumstance
  | perform worker => exact .perform stepped
  | advance => exact .advance (.of_advance? stepped)
  | proceed worker =>
      simp only [System.step?, System.proceed?] at stepped
      split at stepped
      · cases stepped
        exact .aside _ _ _ (fun _ => rfl) rfl
      · cases stepped
  | report worker =>
      simp only [System.step?, System.report?] at stepped
      split at stepped
      · cases stepped
        exact .aside _ _ _ (fun _ => rfl) rfl
      · cases stepped
  | wake worker =>
      simp only [System.step?, System.wake?] at stepped
      split at stepped
      · cases stepped
        exact .aside _ _ _ (fun _ => rfl) rfl
      · cases stepped
  | deliver events =>
      simp only [System.step?, System.deliver?] at stepped
      split at stepped
      · cases stepped
        obtain ⟨registrations, same⟩ := system.server.kernel.disarmAll_eq events
        exact .aside _ _ registrations (fun _ => rfl) (by dsimp only; rw [same])
      · cases stepped

/-- Whatever happens, it passes a descriptor by, or it is one of a few things. -/
theorem passes_of_step? (owned : system.Owned) (stepped : system.step? action = some next)
    (houses : system.server.Houses fd slot socket) :
    Passes system fd slot socket action next.server (system.stimulus? fd action) := by
  cases steps_of_step? stepped with
  | perform performed => exact passes_of_perform? owned performed houses
  | advance advances => exact passes_of_advances owned advances houses
  | aside pool shared registrations mute same =>
      rw [mute, same]
      exact .still ⟨houses.slot, houses.socket⟩
  | outside circumstance =>
      cases circumstance with
      | feed about incoming outgoing failing =>
          have fed := system.server.kernel.find?_feed fd about incoming outgoing failing
          rw [houses.socket] at fed
          simp only [stimulus?]
          split at fed
          · next same =>
              rw [if_pos same]
              exact .fed ⟨houses.slot, fed⟩
          · next differ =>
              rw [if_neg differ]
              exact .still ⟨houses.slot, fed⟩
      | elapse | arrive | signal => exact .still ⟨houses.slot, houses.socket⟩

/-- An errand was under way before, or it has come on by the work of a worker, or the
connection was just handed over. -/
theorem Errand.of_step? (owned : system.Owned) (stepped : system.step? action = some next)
    {task : Task} {progress : Option Processed} (errand : next.Errand task progress) :
    system.Errand task progress ∧ system.stimulus? task.fd action ≠ some (.stroke .process) ∨
      (∃ slot, system.server.table.slot? task.fd = some slot ∧
        progress = some (slot.connection.processed system.server.tree
          system.server.settings.docRoot).1 ∧
        system.stimulus? task.fd action = some (.stroke .process)) ∨
      progress = none ∧ system.server.table.lent task.fd = none := by
  have mute (other : ∀ worker, action ≠ .perform worker) :=
    stimulus?_ne_process task.fd system other
  cases action with
  | outside circumstance =>
      cases stepped
      refine .inl ⟨errand.mono rfl rfl fun done left => ?_, mute (by simp)⟩
      cases circumstance <;> exact left
  | proceed worker => exact .inl ⟨errand.of_proceed? stepped, mute (by simp)⟩
  | report worker => exact .inl ⟨errand.of_report? stepped, mute (by simp)⟩
  | wake worker => exact .inl ⟨errand.of_wake? stepped, mute (by simp)⟩
  | deliver events =>
      simp only [System.step?, System.deliver?] at stepped
      split at stepped
      · next position =>
          cases stepped
          refine .inl ⟨errand.mono rfl rfl fun done left => ?_, mute (by simp)⟩
          simpa [completions, position, Place.taken] using left
      · cases stepped
  | advance =>
      rcases errand.of_advances owned (.of_advance? stepped) with before | handed
      · exact .inl ⟨before, mute (by simp)⟩
      · exact .inr (.inr handed)
  | perform worker =>
      obtain ⟨mine, slot, busy, clear, found, rfl⟩ := perform?_eq_some stepped
      have unit := (Errand.held busy clear).unit
      obtain ⟨held, there, same, -⟩ := Slots.slot?_of_lent (owned.lent_of_mem unit)
      cases found.symm.trans there
      have completions := completions_perform mine system.server.tree
        system.server.settings.docRoot slot system.server.shared
      rcases errand.besides owned busy rfl rfl
          (fun position differ => List.getElem?_set_ne (Ne.symm differ))
          (congrArg (system.place.taken ++ ·) completions) with
        ⟨stage, rfl, reached, rfl⟩ | ⟨before, differ⟩
      · refine .inr (.inl ⟨slot, found, ?_, by simp [stimulus?, busy]⟩)
        have inside := (List.getElem?_eq_some_iff.1 clear).1
        rw [List.getElem?_set_self inside] at reached
        cases reached
        rw [Task.work_eq_processed _ _ (congrArg Task.generation same).symm]
        rfl
      · refine .inl ⟨before, ?_⟩
        simp [stimulus?, busy, Ne.symm differ]

/-! ## What the server goes by -/

/-- No step changes the documents or the settings, and the clock does not go back. -/
structure SameDocuments (before after : Server) : Prop where
  tree : after.tree = before.tree
  settings : after.settings = before.settings
  clock : before.kernel.now ≤ after.kernel.now

theorem SameDocuments.refl (server : Server) : SameDocuments server server :=
  ⟨rfl, rfl, Nat.le_refl _⟩

theorem SameDocuments.trans {first second third : Server} (early : SameDocuments first second)
    (late : SameDocuments second third) : SameDocuments first third :=
  ⟨late.tree.trans early.tree, late.settings.trans early.settings,
    Nat.le_trans early.clock late.clock⟩

theorem sameDocuments_of_surroundings {before after : Server}
    (same : after.surroundings = before.surroundings) : SameDocuments before after :=
  ⟨congrArg Server.Surroundings.tree same, congrArg Server.Surroundings.settings same,
    Nat.le_of_eq (congrArg Server.Surroundings.now same).symm⟩

theorem sameDocuments_advances (owned : system.Owned) (advances : system.Advances next) :
    SameDocuments system.server next.server := by
  cases advances with
  | @handle event events sweepDue due server position other handled =>
      cases event with
      | arrivals => exact (other rfl).elim
      | notices =>
          simp only [Server.handle, Except.ok.injEq] at handled
          have same := Server.surroundings_handleNotices system.server
          rw [handled] at same
          exact sameDocuments_of_surroundings same
      | ready fd readiness =>
          obtain ⟨-, acted⟩ := Server.handleReady_of_handle handled
          exact sameDocuments_of_surroundings (Server.handleReady_branch acted).surroundings
  | accept position waiting taken =>
      have same := sameDocuments_of_surroundings (Server.takeIn_cases taken).surroundings
      exact ⟨same.tree, same.settings, same.clock⟩
  | @settle done rest sweepDue position =>
      have lent := owned.lent_of_settling position
      exact sameDocuments_of_surroundings (Server.handleCompletion_branch lent).surroundings
  | @evict expired =>
      exact sameDocuments_of_surroundings
        (Server.evict_branch system.server expired.1 expired.2).surroundings
  | _ => exact ⟨rfl, rfl, Nat.le_refl _⟩

theorem sameDocuments_step? (owned : system.Owned) (stepped : system.step? action = some next) :
    SameDocuments system.server next.server := by
  cases steps_of_step? stepped with
  | outside circumstance =>
      refine ⟨rfl, rfl, ?_⟩
      cases circumstance with
      | elapse => exact Nat.le_add_right _ _
      | feed fd =>
          simp only [Server.after, Kernel.after, Kernel.feed]
          split <;> exact Nat.le_refl _
      | arrive | signal => exact Nat.le_refl _
  | perform performed =>
      obtain ⟨task, slot, -, -, -, rfl⟩ := perform?_eq_some performed
      exact ⟨rfl, rfl, Nat.le_refl _⟩
  | advance advances => exact sameDocuments_advances owned advances
  | aside _ _ _ _ same =>
      rw [same]
      exact ⟨rfl, rfl, Nat.le_refl _⟩

theorem sameDocuments_run (reached : Reachable system) {actions : List Action} {last : System}
    (ran : system.run? actions = some last) : SameDocuments system.server last.server := by
  induction actions generalizing system with
  | nil =>
      obtain rfl := eq_of_run?_nil ran
      exact .refl _
  | cons action actions ih =>
      obtain ⟨next, stepped, rest⟩ := run?_cons_eq_some.1 ran
      exact (sameDocuments_step? reached.owned stepped).trans (ih (reached.step stepped) rest)

end System

end FileServer
