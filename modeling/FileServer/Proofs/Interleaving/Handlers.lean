import FileServer.Proofs.Interleaving.Confinement

/-!
# What a handler does to its descriptor

The connection of a slot is lent while a worker may touch it, and the task that
it is lent for carries the generation of the slot.  A handler that is called for
a descriptor whose connection is lent does no more than to have it closed later.
Otherwise it leaves the connection not lent, unless it has read from it and hands
it over.
-/

namespace FileServer

/-- The task that the connection of a slot is lent for. -/
def Slot.task? (fd : Fd) (slot : Slot) : Option Task :=
  match slot.custody with
  | .worker | .closing => some ⟨fd, slot.generation⟩
  | .free | .loop => none

namespace Slots

/-- The task that the connection of a descriptor is lent for. -/
def lent (table : Slots) (fd : Fd) : Option Task :=
  (table.slot? fd).bind (Slot.task? fd)

theorem lent_of_slot? {table : Slots} {fd : Fd} {slot : Slot}
    (found : table.slot? fd = some slot) : table.lent fd = slot.task? fd := by
  simp [lent, found]

/-- Nothing is lent of a descriptor without a connection. -/
theorem lent_of_free {table : Slots} {fd : Fd} (unused : table.custody fd = .free) :
    table.lent fd = none := by
  cases found : table.slot? fd with
  | none => simp [lent, found]
  | some slot =>
      rw [custody_of_slot? found] at unused
      simp [lent_of_slot? found, Slot.task?, unused]

theorem lent_of_loop {table : Slots} {fd : Fd} (held : table.custody fd = .loop) :
    table.lent fd = none := by
  cases found : table.slot? fd with
  | none => simp [lent, found]
  | some slot =>
      rw [custody_of_slot? found] at held
      simp [lent_of_slot? found, Slot.task?, held]

/-- What is lent has a slot, whose generation the task carries. -/
theorem slot?_of_lent {table : Slots} {fd : Fd} {task : Task}
    (lent : table.lent fd = some task) :
    ∃ slot, table.slot? fd = some slot ∧ task = ⟨fd, slot.generation⟩ ∧
      (slot.custody = .worker ∨ slot.custody = .closing) := by
  simp only [Slots.lent, Option.bind_eq_some_iff] at lent
  obtain ⟨slot, found, lent⟩ := lent
  refine ⟨slot, found, ?_⟩
  cases custody : slot.custody <;> simp_all [Slot.task?]

end Slots

namespace Server

/-- The connection of a descriptor is as it was, and it is lent as it was; only a
request to close it later may have been added. -/
structure Untouched (fd : Fd) (before after : Server) : Prop where
  slot : after.table.slot? fd = before.table.slot? fd ∨
    after.table.slot? fd = (before.table.slot? fd).map fun slot => slot.deferClose.2
  socket : after.kernel.socket fd = before.kernel.socket fd
  registration :
    after.kernel.registrations.find? fd = before.kernel.registrations.find? fd
  closed : after.kernel.history.closed.count fd = before.kernel.history.closed.count fd

/-- The connection of a task's descriptor was read by the loop and is lent for the
task, which is the last one in the queue now. -/
structure Lends (task : Task) (before after : Server) : Prop where
  held : before.table.lent task.fd = none
  lent : after.table.lent task.fd = some task
  items : after.pool.queue.items = before.pool.queue.items ++ [task]
  workers : after.pool.workers = before.pool.workers
  completions : after.shared.completions = before.shared.completions
  leaves : ∀ other, other ≠ task.fd → Leaves other before after

variable {server next : Server} {fd : Fd}

theorem Leaves.untouched {before after : Server} (leaves : Leaves fd before after) :
    Untouched fd before after :=
  ⟨.inl leaves.slot, leaves.socket, leaves.registration, leaves.closed⟩

theorem Leaves.lent {before after : Server} (leaves : Leaves fd before after) :
    after.table.lent fd = before.table.lent fd := by
  rw [Slots.lent, leaves.slot, ← Slots.lent]

/-! ## Hangups and evictions -/

theorem confined_closeOrDefer (server : Server) (fd : Fd) :
    Confined fd server (server.closeOrDefer fd) := by
  simp only [closeOrDefer]
  split
  · exact .refl fd server
  · split
    · exact .refl fd server
    · exact confined_closeNow server fd
    · exact confined_putSlot server fd _
    · exact confined_putSlot server fd _

/-- Putting off the closing of a lent connection touches nothing. -/
theorem untouched_deferClose {slot : Slot} (found : server.table.slot? fd = some slot) :
    Untouched fd server (server.putSlot fd slot.deferClose.2) := by
  refine ⟨.inr ?_, rfl, rfl, rfl⟩
  rw [putSlot, Slots.slot?_set_of_slot? found, found, Option.map_some]

theorem task?_deferClose (fd : Fd) (slot : Slot) :
    slot.deferClose.2.task? fd = slot.task? fd := by
  cases custody : slot.custody <;> simp [Slot.deferClose, Slot.task?, custody]

/-- Closing, now or later, changes nothing about what is lent. -/
theorem lent_closeOrDefer (server : Server) (fd : Fd) :
    (server.closeOrDefer fd).table.lent fd = server.table.lent fd := by
  have deferred {slot : Slot} (found : server.table.slot? fd = some slot) :
      (server.putSlot fd slot.deferClose.2).table.lent fd = server.table.lent fd := by
    rw [Slots.lent_of_slot? found, putSlot,
      Slots.lent_of_slot? (Slots.slot?_set_of_slot? found _), task?_deferClose]
  simp only [closeOrDefer]
  split
  · rfl
  · next slot found =>
      split
      · rfl
      · next held =>
          rw [Slots.lent_of_free (custody_closeNow server fd), Slots.lent_of_loop]
          rw [Slots.custody_of_slot? found, held]
      · exact deferred found
      · exact deferred found

/-- A lent connection is not closed now. -/
theorem untouched_closeOrDefer {task : Task} (lent : server.table.lent fd = some task) :
    Untouched fd server (server.closeOrDefer fd) := by
  obtain ⟨slot, found, -, custody⟩ := Slots.slot?_of_lent lent
  rcases custody with custody | custody
  · simp only [closeOrDefer, found, custody]
    exact untouched_deferClose found
  · simp only [closeOrDefer, found, custody]
    exact untouched_deferClose found

/-- An eviction forgets the timer, then may close as a hangup does. -/
theorem evict_cases (server : Server) (fd : Fd) (generation : Nat) :
    ∃ forgotten : Server, Confined fd server forgotten ∧ Leaves fd server forgotten ∧
      (server.evict (fd, generation) = forgotten ∨
        server.evict (fd, generation) = forgotten.closeOrDefer fd) := by
  have untimed (shared : Shared) (same : shared.completions = server.shared.completions) :
      Confined fd server { server with timerIds := server.timerIds.erase fd, shared } ∧
        Leaves fd server { server with timerIds := server.timerIds.erase fd, shared } :=
    ⟨⟨rfl, same, fun _ _ => ⟨rfl, rfl, rfl, rfl⟩⟩, ⟨rfl, rfl, rfl, rfl⟩⟩
  simp only [evict]
  split
  · exact ⟨_, (untimed _ rfl).1, (untimed _ rfl).2, .inl rfl⟩
  · split
    · exact ⟨_, (untimed (server.shared.record Counters.countEviction) rfl).1,
        (untimed (server.shared.record Counters.countEviction) rfl).2, .inr rfl⟩
    · exact ⟨_, (untimed _ rfl).1, (untimed _ rfl).2, .inl rfl⟩

theorem confined_evict (server : Server) (fd : Fd) (generation : Nat) :
    Confined fd server (server.evict (fd, generation)) := by
  obtain ⟨forgotten, confined, -, same | closed⟩ := evict_cases server fd generation
  · exact same ▸ confined
  · exact closed ▸ confined.trans (confined_closeOrDefer forgotten fd)

theorem lent_evict (server : Server) (fd : Fd) (generation : Nat) :
    (server.evict (fd, generation)).table.lent fd = server.table.lent fd := by
  obtain ⟨forgotten, -, leaves, same | closed⟩ := evict_cases server fd generation
  · rw [same, leaves.lent]
  · rw [closed, lent_closeOrDefer, leaves.lent]

theorem untouched_evict {task : Task} (lent : server.table.lent fd = some task)
    (generation : Nat) : Untouched fd server (server.evict (fd, generation)) := by
  obtain ⟨forgotten, -, leaves, same | closed⟩ := evict_cases server fd generation
  · exact same ▸ leaves.untouched
  · have later := untouched_closeOrDefer (leaves.lent.trans lent)
    rw [closed]
    refine ⟨?_, later.socket.trans leaves.socket, later.registration.trans leaves.registration,
      later.closed.trans leaves.closed⟩
    rw [← leaves.slot]
    exact later.slot

/-! ## New connections -/

theorem confined_openSocket (server : Server) (fd : Fd) (outgoing : List Transmit)
    (failing : List Call) :
    Confined fd server { server with kernel := server.kernel.openSocket fd outgoing failing } where
  pool := rfl
  completions := rfl
  leaves other differ := by
    refine ⟨rfl, ?_, rfl, rfl⟩
    simp only [Kernel.openSocket, Kernel.socket]
    rw [FdMap.find?_insert_of_ne differ]

theorem confined_turnAway (server : Server) (fd : Fd) :
    Confined fd server (server.turnAway fd) := by
  simp only [turnAway]
  refine (confined_record server fd Counters.countBusy).trans ?_
  exact (confined_putSocket _ fd _).trans (confined_dropSocket _ fd)

/-- A connection that is watched or given up right away stays with the loop. -/
theorem watch_spec {generation : Nat} (held : server.table.custody fd = .loop)
    (watched : server.watch fd generation = .ok next) :
    Confined fd server next ∧ next.table.lent fd = none := by
  simp only [watch] at watched
  split at watched
  · cases watched
    exact ⟨confined_release server fd, Slots.lent_of_free (custody_release server fd)⟩
  · next kernel registered =>
      split at watched
      · cases watched
      · cases watched
        refine ⟨?_, Slots.lent_of_loop held⟩
        refine (confined_register? registered).trans ?_
        exact ⟨rfl, rfl, fun _ _ => ⟨rfl, rfl, rfl, rfl⟩⟩

/-- Taking a new connection in changes nothing about what is lent. -/
theorem takeIn_spec {peer : Address} (taken : server.takeIn fd peer = .ok next) :
    Confined fd server next ∧ next.table.lent fd = server.table.lent fd := by
  simp only [takeIn] at taken
  split at taken
  · cases taken
    exact ⟨confined_turnAway server fd, rfl⟩
  · split at taken
    · cases taken
      exact ⟨confined_dropSocket server fd, rfl⟩
    · split at taken
      · cases taken
        exact ⟨confined_dropSocket server fd, rfl⟩
      · next generation table opened =>
          obtain ⟨unused, slot, custody, -, rfl, found⟩ := Slots.open?_eq_some opened
          have held : (server.putSlot fd slot).table.custody fd = .loop := by
            rw [putSlot, Slots.custody_of_slot? found, custody]
          obtain ⟨confined, lent⟩ := watch_spec held taken
          exact ⟨(confined_putSlot server fd slot).trans confined,
            lent.trans (Slots.lent_of_free unused).symm⟩

/-! ## Notices -/

/-- Notices concern no connection. -/
theorem confined_handleNotices (server : Server) (fd : Fd) :
    Confined fd server server.handleNotices.2 := by
  have notice (state : Bool × Server) (notice : Notice) :
      Confined fd state.2 (handleNotice state notice).2 := by
    cases notice
    · exact ⟨rfl, rfl, fun _ _ => ⟨rfl, rfl, rfl, rfl⟩⟩
    · exact ⟨rfl, rfl, fun _ _ => ⟨rfl, rfl, rfl, rfl⟩⟩
    · exact .refl fd _
  have notices (notices : List Notice) (state : Bool × Server) :
      Confined fd state.2 (notices.foldl handleNotice state).2 := by
    induction notices generalizing state with
    | nil => exact .refl fd _
    | cons first rest ih => exact (notice state first).trans (ih (handleNotice state first))
  have read : Confined fd server
      { server with shared := { server.shared with channel := server.shared.channel.drain.2 } } :=
    confined_shared server fd rfl
  exact read.trans (notices server.shared.channel.drain.1 (false, _))

/-! ## Reading and writing -/

/-- Handing a connection over lends it, or closes it when there is no room. -/
theorem dispatch_cases {slot : Slot} (found : server.table.slot? fd = some slot)
    (custody : slot.custody = .loop) :
    (Confined fd server (server.dispatch fd slot) ∧
        (server.dispatch fd slot).table.custody fd = .free) ∨
      Lends ⟨fd, slot.generation⟩ server (server.dispatch fd slot) := by
  simp only [dispatch]
  split
  · next pool submitted =>
      right
      simp only [Pool.submit?] at submitted
      split at submitted
      · cases submitted
      · obtain ⟨queue, pushed, rfl⟩ := Option.map_eq_some_iff.1 submitted
        refine ⟨?_, ?_, Queue.items_push? pushed, rfl, rfl, ?_⟩
        · rw [Slots.lent_of_slot? found, Slot.task?, custody]
        · rw [putSlot, Slots.lent_of_slot? (Slots.slot?_set_of_slot? found _)]
          simp [Slot.task?, Slot.checkOut, Slot.transfer, custody]
        · intro other differ
          exact ⟨Slots.slot?_set_of_ne differ _, rfl, rfl, rfl⟩
  · left
    exact ⟨(confined_record server fd _).trans (confined_closeNow _ fd),
      custody_closeNow _ fd⟩

/-- What is lent after a change confined to a connection that was not lent. -/
theorem Lends.of_confined {task : Task} {before middle after : Server}
    (confined : Confined task.fd before middle) (held : before.table.lent task.fd = none)
    (lends : Lends task middle after) : Lends task before after where
  held := held
  lent := lends.lent
  items := by rw [lends.items, confined.pool]
  workers := by rw [lends.workers, confined.pool]
  completions := by rw [lends.completions, confined.completions]
  leaves other differ := (confined.leaves other differ).trans (lends.leaves other differ)

/-- Reading leaves a connection unlent, or lends it. -/
theorem handleReadable_cases (handled : server.handleReadable fd = .ok next) :
    next = server ∨
      (server.table.lent fd = none ∧ Confined fd server next ∧ next.table.lent fd = none) ∨
      ∃ task : Task, task.fd = fd ∧ Lends task server next := by
  simp only [handleReadable] at handled
  split at handled
  · cases handled
    exact .inl rfl
  · next slot found =>
      split at handled
      · cases handled
        exact .inl rfl
      · next notLoop =>
          have custody : slot.custody = .loop := Decidable.not_not.1 notLoop
          have held : server.table.lent fd = none := by
            rw [Slots.lent_of_slot? found, Slot.task?, custody]
          right
          generalize slot.connection.read (server.kernel.socket fd) = received at handled
          obtain ⟨result, connection, socket⟩ := received
          have read := (confined_putSlot server fd { slot with connection }).trans
            (confined_putSocket _ fd socket)
          split at handled
          · cases handled
            left
            exact ⟨held, read.trans (confined_closeNow _ fd),
              Slots.lent_of_free (custody_closeNow _ fd)⟩
          · split at handled
            · cases handled
            · next refreshed timed =>
                cases handled
                obtain ⟨confined, table⟩ := confined_refreshTimer timed
                have before := read.trans confined
                have updated : refreshed.table.slot? fd = some { slot with connection } := by
                  rw [table]
                  exact Slots.slot?_set_of_slot? found _
                rcases dispatch_cases updated custody with ⟨closed, unused⟩ | lends
                · left
                  exact ⟨held, before.trans closed, Slots.lent_of_free unused⟩
                · right
                  exact ⟨_, rfl, Lends.of_confined before held lends⟩

/-- A timer that is refreshed before a descriptor is armed again. -/
theorem refresh_rearm_spec {generation : Nat} {interest : Interest}
    (held : server.table.custody fd = .loop)
    (handled : (server.refreshTimer fd generation).map (fun next => next.rearm fd interest) =
      .ok next) : Confined fd server next ∧ next.table.lent fd = none := by
  obtain ⟨refreshed, timed, rfl⟩ := exists_of_map_eq_ok handled
  obtain ⟨confined, table⟩ := confined_refreshTimer timed
  refine ⟨confined.trans (confined_rearm refreshed fd interest), ?_⟩
  rcases custody_rearm refreshed fd interest with same | closed
  · rw [table, held] at same
    exact Slots.lent_of_loop same
  · exact Slots.lent_of_free closed

/-- Writing never lends a connection. -/
theorem handleWritable_cases (handled : server.handleWritable fd = .ok next) :
    next = server ∨
      (server.table.lent fd = none ∧ Confined fd server next ∧ next.table.lent fd = none) := by
  simp only [handleWritable] at handled
  split at handled
  · cases handled
    exact .inl rfl
  · next slot found =>
      split at handled
      · cases handled
        exact .inl rfl
      · next notLoop =>
          have custody : slot.custody = .loop := Decidable.not_not.1 notLoop
          right
          generalize slot.connection.write (server.kernel.socket fd) = sent at handled
          obtain ⟨outcome, connection, socket⟩ := sent
          have written := (confined_putSlot server fd { slot with connection }).trans
            (confined_putSocket _ fd socket)
          have counted := written.trans
            (confined_record _ fd fun counters => counters.countBytes slot.connection.toSend)
          have held : (server.putSlot fd { slot with connection }).table.custody fd = .loop := by
            rw [putSlot, Slots.custody_of_slot? (Slots.slot?_set_of_slot? found _)]
            exact custody
          refine ⟨Slots.lent_of_loop ((Slots.custody_of_slot? found).trans custody), ?_⟩
          cases outcome with
          | again =>
              obtain ⟨confined, lent⟩ := refresh_rearm_spec (by exact held) handled
              exact ⟨written.trans confined, lent⟩
          | keepAlive =>
              obtain ⟨confined, lent⟩ := refresh_rearm_spec (by exact held) handled
              exact ⟨counted.trans confined, lent⟩
          | close =>
              cases handled
              exact ⟨counted.trans (confined_closeNow _ fd),
                Slots.lent_of_free (custody_closeNow _ fd)⟩
          | failed =>
              cases handled
              exact ⟨written.trans (confined_closeNow _ fd),
                Slots.lent_of_free (custody_closeNow _ fd)⟩

/-- An event of a connection leaves lent what was lent, or lends the connection for
a new task. -/
theorem handleReady_cases {readiness : Readiness}
    (handled : server.handleReady fd readiness = .ok next) :
    (Confined fd server next ∧ next.table.lent fd = server.table.lent fd) ∨
      ∃ task : Task, task.fd = fd ∧ Lends task server next := by
  simp only [handleReady] at handled
  split at handled
  · cases handled
    exact .inl ⟨confined_closeOrDefer server fd, lent_closeOrDefer server fd⟩
  · split at handled
    · rcases handleReadable_cases handled with rfl | ⟨held, confined, lent⟩ | lends
      · exact .inl ⟨.refl fd _, rfl⟩
      · exact .inl ⟨confined, lent.trans held.symm⟩
      · exact .inr lends
    · split at handled
      · rcases handleWritable_cases handled with rfl | ⟨held, confined, lent⟩
        · exact .inl ⟨.refl fd _, rfl⟩
        · exact .inl ⟨confined, lent.trans held.symm⟩
      · cases handled
        exact .inl ⟨.refl fd server, rfl⟩

/-- An event of a lent connection does not touch it. -/
theorem untouched_handleReady {task : Task} {readiness : Readiness}
    (lent : server.table.lent fd = some task)
    (handled : server.handleReady fd readiness = .ok next) : Untouched fd server next := by
  simp only [handleReady] at handled
  split at handled
  · cases handled
    exact untouched_closeOrDefer lent
  · split at handled
    · rcases handleReadable_cases handled with rfl | ⟨held, -⟩ | ⟨_, rfl, lends⟩
      · exact (Leaves.refl fd _).untouched
      · simp [held] at lent
      · simp [lends.held] at lent
    · split at handled
      · rcases handleWritable_cases handled with rfl | ⟨held, -⟩
        · exact (Leaves.refl fd _).untouched
        · simp [held] at lent
      · cases handled
        exact (Leaves.refl fd server).untouched

theorem workers_handleReady {readiness : Readiness}
    (handled : server.handleReady fd readiness = .ok next) :
    next.pool.workers = server.pool.workers := by
  rcases handleReady_cases handled with ⟨confined, -⟩ | ⟨task, -, lends⟩
  · exact congrArg Pool.workers confined.pool
  · exact lends.workers

/-- An event of a connection never makes a sweep due. -/
theorem handleReady_of_handle {readiness : Readiness} {due : Bool}
    (handled : server.handle (.ready fd readiness) = .ok (due, next)) :
    due = false ∧ server.handleReady fd readiness = .ok next := by
  obtain ⟨last, acted, same⟩ := exists_of_map_eq_ok handled
  cases same
  exact ⟨rfl, acted⟩

/-- No event but that of new connections touches a lent connection. -/
theorem untouched_handle {task : Task} {event : Event} {due : Bool}
    (lent : server.table.lent fd = some task) (other : event ≠ .arrivals)
    (handled : server.handle event = .ok (due, next)) : Untouched fd server next := by
  cases event with
  | arrivals => exact (other rfl).elim
  | notices =>
      simp only [handle, Except.ok.injEq] at handled
      have leaves := Confined.leaves_all (confined_handleNotices server) fd
      rw [handled] at leaves
      exact leaves.untouched
  | ready ready readiness =>
      obtain ⟨-, acted⟩ := handleReady_of_handle handled
      by_cases mine : fd = ready
      · subst mine
        exact untouched_handleReady lent acted
      · rcases handleReady_cases acted with ⟨confined, -⟩ | ⟨_, rfl, lends⟩
        · exact (confined.leaves fd mine).untouched
        · exact (lends.leaves fd mine).untouched

/-! ## Completions -/

/-- Acting on the completion of the task that a connection is lent for ends the
loan. -/
theorem handleCompletion_spec {done : Completion}
    (lent : server.table.lent done.fd = some ⟨done.fd, done.generation⟩) :
    Confined done.fd server (server.handleCompletion done) ∧
      (server.handleCompletion done).table.lent done.fd = none := by
  obtain ⟨slot, found, task, custody⟩ := Slots.slot?_of_lent lent
  simp only [Task.mk.injEq, true_and] at task
  have closed (middle : Server) : Confined done.fd middle (middle.closeNow done.fd) ∧
      (middle.closeNow done.fd).table.lent done.fd = none :=
    ⟨confined_closeNow middle done.fd, Slots.lent_of_free (custody_closeNow middle done.fd)⟩
  simp only [handleCompletion, found, ← task, ne_eq, not_true_eq_false, ↓reduceIte]
  rcases custody with custody | custody
  · have back : slot.checkIn = (true, { slot with custody := .loop }) := by
      simp [Slot.checkIn, Slot.transfer, custody]
    have returned := confined_putSlot server done.fd { slot with custody := .loop }
    have held : (server.putSlot done.fd { slot with custody := .loop }).table.custody done.fd =
        .loop := by
      rw [putSlot, Slots.custody_of_slot? (Slots.slot?_set_of_slot? found _)]
    have rearmed (interest : Interest) :
        ((server.putSlot done.fd { slot with custody := .loop }).rearm done.fd
          interest).table.lent done.fd = none := by
      rcases custody_rearm _ done.fd interest with same | free
      · exact Slots.lent_of_loop (same.trans held)
      · exact Slots.lent_of_free free
    rw [back]
    cases done.outcome with
    | needMore => exact ⟨returned.trans (confined_rearm _ done.fd .readable), rearmed _⟩
    | respond => exact ⟨returned.trans (confined_rearm _ done.fd .writable), rearmed _⟩
    | close => exact ⟨returned.trans (closed _).1, (closed _).2⟩
  · have kept : slot.checkIn = (false, slot) := by
      simp [Slot.checkIn, Slot.transfer, custody]
    rw [kept]
    simp only [custody, ↓reduceIte]
    exact closed server

end Server

end FileServer
