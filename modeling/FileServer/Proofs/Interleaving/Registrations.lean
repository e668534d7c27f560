import FileServer.Proofs.Interleaving.Sockets

/-!
# Descriptors without a connection

A connection is unregistered before its slot is given up, and a new connection is
registered only after it has its slot.  The operating system may refuse to remove the
registration, but a slot that is in use holds an open socket, and the registration goes
when the socket is closed with the slot.  A descriptor without a connection is therefore
not registered.
-/

namespace FileServer

namespace Server

variable {server next : Server} {fd : Fd} {slot : Slot}

/-- A descriptor without a connection is not registered.  What keeps it so is that its
slot is proper and that the operating system forgets the registrations of closed
sockets. -/
structure Tidy (server : Server) (fd : Fd) : Prop where
  forgets : server.kernel.forgetsClosed = true
  proper : (server.table.vacancy fd).Proper
  unregistered : server.table.custody fd = .free → server.kernel.registrations.find? fd = none

theorem Tidy.proper_of_slot? (tidy : server.Tidy fd)
    (found : server.table.slot? fd = some slot) : slot.Proper :=
  Slots.vacancy_of_slot? found ▸ tidy.proper

/-- Where there is a connection, nothing is said about the registration. -/
theorem tidy_of_slot? (forgets : server.kernel.forgetsClosed = true)
    (found : server.table.slot? fd = some slot) (proper : slot.Proper)
    (used : slot.custody ≠ .free) : server.Tidy fd where
  forgets := forgets
  proper := Slots.vacancy_of_slot? found ▸ proper
  unregistered unused := (used ((Slots.custody_of_slot? found).symm.trans unused)).elim

theorem forgetsClosed_of_surroundings (same : next.surroundings = server.surroundings) :
    next.kernel.forgetsClosed = server.kernel.forgetsClosed :=
  congrArg Surroundings.forgetsClosed same

/-- What leaves a descriptor alone. -/
theorem Tidy.of_leaves (tidy : server.Tidy fd) (leaves : Leaves fd server next)
    (forgets : next.kernel.forgetsClosed = server.kernel.forgetsClosed) : next.Tidy fd where
  forgets := forgets.trans tidy.forgets
  proper := (leaves.tends tidy.proper).1
  unregistered unused := by
    rw [leaves.registration]
    apply tidy.unregistered
    rwa [Slots.custody, ← leaves.slot]

/-! ## Operations -/

/-- A connection changes and stays where it is. -/
theorem Tidy.change (tidy : server.Tidy fd) {changed : Slot}
    (found : server.table.slot? fd = some slot) (before : slot.custody ≠ .free)
    (forgets : next.kernel.forgetsClosed = server.kernel.forgetsClosed)
    (put : next.table.slot? fd = some changed) (after : changed.custody ≠ .free)
    (same : changed.connection.isOpen = slot.connection.isOpen) : next.Tidy fd :=
  tidy_of_slot? (forgets.trans tidy.forgets) put
    ((tidy.proper_of_slot? found).change before after same) after

theorem Tidy.keep (tidy : server.Tidy fd) {connection : Connection}
    (found : server.table.slot? fd = some slot) (used : slot.custody ≠ .free) (socket : Socket)
    (same : connection.isOpen = slot.connection.isOpen) :
    (server.keep fd slot connection socket).Tidy fd :=
  tidy.change found used rfl (slot?_keep found connection socket) used same

theorem Tidy.record (tidy : server.Tidy fd) (change : Counters → Counters) :
    (server.record change).Tidy fd :=
  ⟨tidy.forgets, tidy.proper, tidy.unregistered⟩

theorem Tidy.refreshTimer (tidy : server.Tidy fd) {generation : Nat}
    (timed : server.refreshTimer fd generation = .ok next) : next.Tidy fd := by
  obtain ⟨timers, timerIds, rfl⟩ := refreshTimer_eq timed
  exact ⟨tidy.forgets, tidy.proper, tidy.unregistered⟩

/-- The registration of an open socket goes with it. -/
theorem find?_registrations_release (forgets : server.kernel.forgetsClosed = true)
    (found : server.table.slot? fd = some slot) (isOpen : slot.connection.isOpen = true) :
    (server.release fd).kernel.registrations.find? fd = none := by
  simp only [release, found, isOpen, ↓reduceIte, Kernel.closeSocket, forgets]
  exact FdMap.find?_erase_self _ fd

theorem Tidy.release (tidy : server.Tidy fd) (found : server.table.slot? fd = some slot)
    (used : slot.custody ≠ .free) : (server.release fd).Tidy fd where
  forgets := (forgetsClosed_of_surroundings (surroundings_release server fd)).trans tidy.forgets
  proper := (tends_release found used tidy.proper).1
  unregistered _ := by
    apply find?_registrations_release tidy.forgets found
    rw [(tidy.proper_of_slot? found).isOpen]
    exact bne_iff_ne.2 used

/-- Closing a connection removes the registration or, where this is refused, closes the
socket without it. -/
theorem Tidy.closeNow (tidy : server.Tidy fd) : (server.closeNow fd).Tidy fd := by
  by_cases unused : server.table.custody fd = .free
  · rwa [Server.closeNow, if_pos unused]
  · obtain ⟨slot, found, used⟩ := Slots.exists_slot?_of_used unused
    obtain ⟨forgotten, closed, table, -⟩ := closeNow_eq unused
    have surroundings : forgotten.surroundings = server.surroundings := by
      rw [← surroundings_release forgotten fd, ← closed]
      exact surroundings_closeNow server fd
    have present : forgotten.table.slot? fd = some slot := table ▸ found
    have held : forgotten.Tidy fd :=
      tidy_of_slot? ((forgetsClosed_of_surroundings surroundings).trans tidy.forgets) present
        (tidy.proper_of_slot? found) used
    exact closed ▸ held.release present used

/-- A descriptor can be armed again only if it is registered, and so has a connection. -/
theorem Tidy.rearm (tidy : server.Tidy fd) (interest : Interest) :
    (server.rearm fd interest).Tidy fd := by
  simp only [Server.rearm]
  split
  · next kernel armed =>
      simp only [Kernel.rearm?] at armed
      split at armed
      · cases armed
      · next registered =>
          cases armed
          refine ⟨tidy.forgets, tidy.proper, fun unused => ?_⟩
          have absent := tidy.unregistered unused
          simp [FdMap.contains, absent] at registered
  · exact tidy.closeNow

/-! ## Branches -/

theorem Reads.tidy (reads : Reads server fd next) (tidy : server.Tidy fd) : next.Tidy fd := by
  cases reads with
  | absent => exact tidy
  | @failed slot _ connection socket found held received =>
      have isOpen := (Connection.keepsSocket_read received).isOpen
      exact (tidy.keep found (by simp [held]) socket isOpen).closeNow
  | @lent slot _ connection socket refreshed pool found held received timed =>
      have isOpen := (Connection.keepsSocket_read received).isOpen
      have refresh := (tidy.keep found (by simp [held]) socket isOpen).refreshTimer timed
      have kept := (slot?_refreshTimer timed).trans (slot?_keep found connection socket)
      exact refresh.change kept (by simp [held]) rfl (Slots.slot?_set_of_slot? kept _) nofun rfl
  | @rejected slot _ connection socket refreshed found held received timed =>
      have isOpen := (Connection.keepsSocket_read received).isOpen
      have refresh := (tidy.keep found (by simp [held]) socket isOpen).refreshTimer timed
      exact (refresh.record _).closeNow

theorem Writes.tidy (writes : Writes server fd next) (tidy : server.Tidy fd) : next.Tidy fd := by
  cases writes with
  | absent => exact tidy
  | @again slot connection socket refreshed found held sent timed =>
      have isOpen := (Connection.keepsSocket_write sent).isOpen
      exact ((tidy.keep found (by simp [held]) socket isOpen).refreshTimer timed).rearm _
  | @keepAlive slot connection socket refreshed found held sent timed =>
      have isOpen := (Connection.keepsSocket_write sent).isOpen
      have kept := tidy.keep found (by simp [held]) socket isOpen
      exact ((kept.record _).refreshTimer timed).rearm _
  | @close slot connection socket found held sent =>
      have isOpen := (Connection.keepsSocket_write sent).isOpen
      exact ((tidy.keep found (by simp [held]) socket isOpen).record _).closeNow
  | @failed slot connection socket found held sent =>
      have isOpen := (Connection.keepsSocket_write sent).isOpen
      exact (tidy.keep found (by simp [held]) socket isOpen).closeNow

theorem Parts.tidy (parts : Parts server fd next) (tidy : server.Tidy fd) : next.Tidy fd := by
  cases parts with
  | absent => exact tidy
  | now => exact tidy.closeNow
  | @later slot found lent =>
      have used : slot.custody ≠ .free := by
        rcases lent with custody | custody <;> simp [custody]
      exact tidy.change found used rfl (Slots.slot?_set_of_slot? found _) nofun rfl

theorem Handles.tidy {readiness : Readiness} (handles : Handles server fd readiness next)
    (tidy : server.Tidy fd) : next.Tidy fd := by
  cases handles with
  | hangup _ parts => exact parts.tidy tidy
  | readable _ reads => exact reads.tidy tidy
  | writable _ writes => exact writes.tidy tidy
  | nothing => exact tidy

theorem Evicts.tidy {generation : Nat} (evicts : Evicts server fd generation next)
    (tidy : server.Tidy fd) : next.Tidy fd := by
  have forgotten : Tidy { server with timerIds := server.timerIds.erase fd } fd :=
    ⟨tidy.forgets, tidy.proper, tidy.unregistered⟩
  cases evicts with
  | stale => exact forgotten
  | counted _ _ parts => exact parts.tidy (forgotten.record _)

theorem Settles.tidy {done : Completion} (settles : Settles server done next)
    (tidy : server.Tidy done.fd) : next.Tidy done.fd := by
  cases settles with
  | deferred => exact tidy.closeNow
  | @returned slot found _ lent =>
      have back : (server.putSlot done.fd { slot with custody := .loop }).Tidy done.fd :=
        tidy.change found (by simp [lent]) rfl (Slots.slot?_set_of_slot? found _) nofun rfl
      cases done.outcome with
      | needMore | respond => exact back.rearm _
      | close => exact back.closeNow

/-- A connection that is taken in has its slot before its descriptor is registered. -/
theorem TakesIn.tidy {peer : Address} (takesIn : TakesIn server fd peer next)
    (tidy : server.Tidy fd) : next.Tidy fd := by
  cases takesIn with
  | busy | dropped => exact ⟨tidy.forgets, tidy.proper, tidy.unregistered⟩
  | unwatched opened =>
      obtain ⟨inside, -, -, -, rfl⟩ := Slots.open?_cases opened
      have put := Slots.slot?_set_self inside ((server.table.vacancy fd).opened peer)
      have held : Tidy { server with
          table := server.table.set fd ((server.table.vacancy fd).opened peer) } fd :=
        tidy_of_slot? tidy.forgets put (Slot.proper_opened _ peer) nofun
      exact held.release put nofun
  | watched _ opened registered =>
      obtain ⟨inside, -, -, -, rfl⟩ := Slots.open?_cases opened
      have put := Slots.slot?_set_self inside ((server.table.vacancy fd).opened peer)
      simp only [Kernel.register?] at registered
      split at registered
      · cases registered
      · cases registered
        exact tidy_of_slot? tidy.forgets put (Slot.proper_opened _ peer) nofun

end Server

namespace System

variable {system next : System} {fd : Fd}

/-- A step about one descriptor. -/
theorem tidy_of_confined (tidy : system.server.Tidy fd) {about : Fd}
    (same : next.server.surroundings = system.server.surroundings)
    (confined : Server.Confined about system.server next.server)
    (own : fd = about → next.server.Tidy fd) : next.server.Tidy fd := by
  by_cases mine : fd = about
  · exact own mine
  · exact tidy.of_leaves (confined.leaves fd mine) (Server.forgetsClosed_of_surroundings same)

/-- A connection is accepted. -/
theorem tidy_accept (tidy : system.server.Tidy fd) {about : Fd} {peer : Address}
    {outgoing : List Transmit} {failing : List Call} {rest : List Arrival} {server : Server}
    (taken : system.takeInNext about peer outgoing failing rest = .ok server) :
    server.Tidy fd := by
  have branch := Server.takeIn_cases taken
  by_cases mine : fd = about
  · subst mine
    exact branch.tidy ⟨tidy.forgets, tidy.proper, tidy.unregistered⟩
  · have forgets := Server.forgetsClosed_of_surroundings branch.surroundings
    exact tidy.of_leaves ((takeInNext_spec taken).1.leaves fd mine) forgets

/-- Each step of the loop removes the registration of a connection that it
closes. -/
theorem tidy_of_advances (tidy : system.server.Tidy fd) (owned : system.Owned)
    (advances : system.Advances next) : next.server.Tidy fd := by
  cases advances with
  | collect | listen | acceptNone | acceptAgain | acceptFails | beginSweep | rest | endSweep =>
      exact ⟨tidy.forgets, tidy.proper, tidy.unregistered⟩
  | @handle event events sweepDue due server position other handled =>
      cases event with
      | arrivals => exact (other rfl).elim
      | notices =>
          simp only [Server.handle, Except.ok.injEq] at handled
          have leaves := Server.Confined.leaves_all
            (Server.confined_handleNotices system.server) fd
          have same := Server.surroundings_handleNotices system.server
          rw [handled] at leaves same
          exact tidy.of_leaves leaves (Server.forgetsClosed_of_surroundings same)
      | ready about readiness =>
          obtain ⟨-, acted⟩ := Server.handleReady_of_handle handled
          have branch := Server.handleReady_branch acted
          by_cases mine : fd = about
          · subst mine
            exact branch.tidy tidy
          · have leaves : Server.Leaves fd system.server server := by
              rcases Server.handleReady_cases acted with ⟨confined, -⟩ | ⟨_, rfl, lends⟩
              · exact confined.leaves fd mine
              · exact lends.leaves fd mine
            exact tidy.of_leaves leaves
              (Server.forgetsClosed_of_surroundings branch.surroundings)
  | accept position waiting taken => exact tidy_accept tidy taken
  | @settle done rest sweepDue position =>
      have lent := owned.lent_of_settling position
      have branch := Server.handleCompletion_branch lent
      refine tidy_of_confined tidy branch.surroundings (Server.handleCompletion_spec lent).1 ?_
      intro mine
      subst mine
      exact branch.tidy tidy
  | @evict expired rest position =>
      obtain ⟨about, generation⟩ := expired
      have branch := Server.evict_branch system.server about generation
      refine tidy_of_confined tidy branch.surroundings
        (Server.confined_evict system.server about generation) ?_
      intro mine
      subst mine
      exact branch.tidy tidy

theorem tidy_of_step? (tidy : system.server.Tidy fd) (owned : system.Owned) {action : Action}
    (stepped : system.step? action = some next) : next.server.Tidy fd := by
  have proper := (tends_of_step? owned stepped fd tidy.proper).1
  cases action with
  | outside circumstance =>
      cases stepped
      cases circumstance with
      | feed other incoming outgoing failing =>
          simp only [Server.after, Kernel.after, Kernel.feed] at proper ⊢
          split <;> exact ⟨tidy.forgets, proper, tidy.unregistered⟩
      | elapse | arrive | signal => exact ⟨tidy.forgets, proper, tidy.unregistered⟩
  | perform worker =>
      obtain ⟨task, slot, busy, -, found, rfl⟩ := perform?_eq_some stepped
      refine ⟨tidy.forgets, proper, fun unused => tidy.unregistered ?_⟩
      by_cases mine : fd = task.fd
      · subst mine
        obtain ⟨connection, same⟩ := task.work_eq system.server.tree
          system.server.settings.docRoot slot
        have worked := Slots.slot?_set_of_slot? found { slot with connection }
        rw [← same] at worked
        rw [Slots.custody_of_slot? found, ← unused, Server.putSlot, Slots.custody_of_slot? worked,
          same]
      · rw [Slots.custody, ← Slots.slot?_set_of_ne mine]
        exact unused
  | deliver events =>
      simp only [System.step?, System.deliver?] at stepped
      split at stepped
      · cases stepped
        obtain ⟨registrations, same⟩ := system.server.kernel.disarmAll_eq events
        refine ⟨?_, proper, fun unused => ?_⟩
        · rw [same]
          exact tidy.forgets
        · exact Kernel.find?_disarmAll_of_none (tidy.unregistered unused) events
      · cases stepped
  | proceed | report | wake =>
      simp only [step?, proceed?, report?, wake?] at stepped
      split at stepped
      · cases stepped
        exact ⟨tidy.forgets, proper, tidy.unregistered⟩
      · cases stepped
  | advance => exact tidy_of_advances tidy owned (.of_advance? stepped)

/-- In every run, a descriptor without a connection is not registered. -/
theorem Reachable.tidy (reached : Reachable system) (fd : Fd) : system.server.Tidy fd := by
  induction reached with
  | start launched =>
      obtain ⟨-, rfl⟩ := launch?_eq_some launched
      exact ⟨rfl, Slots.proper_ofLimit _ fd, fun _ => rfl⟩
  | step earlier stepped ih => exact tidy_of_step? ih earlier.owned stepped

end System

end FileServer
