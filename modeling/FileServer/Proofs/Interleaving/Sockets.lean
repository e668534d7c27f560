import FileServer.Proofs.Exchange.Session
import FileServer.Proofs.Exchange.Storage
import FileServer.Proofs.Interleaving.Accounts
import FileServer.Proofs.Interleaving.Holdings

/-!
# Sockets and slots

A socket is closed together with the connection that has it, and one that gets no
connection is closed at once.  So the sockets that a number has had are those that were
closed and, if its slot is in use, one more.  Each operation of a handler keeps this
account as it is, but for a connection that is accepted, which adds a socket to it.

The account rests on what is in a slot: a connection is open exactly where the slot is in
use, and a slot that is not in use keeps no file.
-/

namespace FileServer

namespace Connection

/-- Work on the received bytes leaves a connection open, or closed. -/
theorem isOpen_processed (connection : Connection) (tree : FileTree) (root : Text) :
    (connection.processed tree root).2.isOpen = connection.isOpen := by
  rw [processed]
  cases worked : connection.process? tree root with
  | none => rfl
  | some result => exact (keepsSocket_process worked).isOpen

end Connection

/-- A connection is open exactly where its slot is in use, and a slot that is not in use
has no file. -/
structure Slot.Proper (slot : Slot) : Prop where
  isOpen : slot.connection.isOpen = (slot.custody != .free)
  unmapped : slot.custody = .free → slot.connection.file = none

namespace Slot

variable {slot changed : Slot}

theorem proper_fresh : fresh.Proper :=
  ⟨rfl, fun _ => rfl⟩

theorem proper_release (slot : Slot) : slot.release.Proper :=
  ⟨rfl, fun _ => rfl⟩

theorem proper_opened (slot : Slot) (peer : Address) : (slot.opened peer).Proper :=
  ⟨rfl, nofun⟩

/-- A slot that stays in use stays proper with the socket of its connection. -/
theorem Proper.change (proper : slot.Proper) (before : slot.custody ≠ .free)
    (after : changed.custody ≠ .free)
    (same : changed.connection.isOpen = slot.connection.isOpen) : changed.Proper where
  isOpen := by
    rw [same, proper.isOpen, bne_iff_ne.2 before, bne_iff_ne.2 after]
  unmapped unused := (after unused).elim

end Slot

/-- In a new table every slot is proper. -/
theorem Slots.proper_ofLimit (limit : Nat) (fd : Fd) : ((ofLimit limit).vacancy fd).Proper := by
  rw [vacancy, slot?_ofLimit]
  exact Slot.proper_fresh

/-- A slot that is in use is there. -/
theorem Slots.exists_slot?_of_used {table : Slots} {fd : Fd} (used : table.custody fd ≠ .free) :
    ∃ slot, table.slot? fd = some slot ∧ slot.custody ≠ .free := by
  cases found : table.slot? fd with
  | none => simp [custody, found] at used
  | some slot => exact ⟨slot, rfl, custody_of_slot? found ▸ used⟩

namespace Server

/-- The sockets that a number has had: those that were closed, and the one of its
connection. -/
def socketsOf (server : Server) (fd : Fd) : Nat :=
  server.kernel.history.closed.count fd + server.ledger.occupancy fd

/-- The slot of a number stays proper, and the number gets so many sockets more. -/
def Tends (fd : Fd) (fresh : Nat) (before after : Server) : Prop :=
  (before.table.vacancy fd).Proper →
    (after.table.vacancy fd).Proper ∧ after.socketsOf fd = before.socketsOf fd + fresh

variable {server next last : Server} {fd : Fd} {slot : Slot}

theorem Tends.trans {early late : Nat} (first : Tends fd early server next)
    (second : Tends fd late next last) : Tends fd (early + late) server last := by
  intro proper
  obtain ⟨between, one⟩ := first proper
  obtain ⟨after, two⟩ := second between
  exact ⟨after, by omega⟩

/-- What leaves a number alone. -/
theorem tends_of_same (slot : next.table.slot? fd = server.table.slot? fd)
    (closed : next.kernel.history.closed.count fd = server.kernel.history.closed.count fd) :
    Tends fd 0 server next := by
  intro proper
  have custody : next.table.custody fd = server.table.custody fd := by
    rw [Slots.custody, slot, ← Slots.custody]
  refine ⟨by rwa [Slots.vacancy, slot, ← Slots.vacancy], ?_⟩
  change _ + (if next.table.custody fd = .free then 0 else 1) =
    _ + (if server.table.custody fd = .free then 0 else 1) + 0
  rw [custody, closed, Nat.add_zero]

theorem Tends.refl (fd : Fd) (server : Server) : Tends fd 0 server server :=
  tends_of_same rfl rfl

theorem Leaves.tends (leaves : Leaves fd server next) : Tends fd 0 server next :=
  tends_of_same leaves.slot leaves.closed

/-! ## Operations -/

/-- A slot that stays in use gives no socket up. -/
theorem tends_putSlot (changed : Slot) (found : server.table.slot? fd = some slot)
    (before : slot.custody ≠ .free) (after : changed.custody ≠ .free)
    (same : changed.connection.isOpen = slot.connection.isOpen)
    (table : next.table = server.table.set fd changed)
    (closed : next.kernel.history.closed = server.kernel.history.closed) :
    Tends fd 0 server next := by
  intro proper
  have put := Slots.slot?_set_of_slot? found changed
  rw [← table] at put
  rw [Slots.vacancy_of_slot? found] at proper
  refine ⟨Slots.vacancy_of_slot? put ▸ proper.change before after same, ?_⟩
  change _ + (if next.table.custody fd = .free then 0 else 1) =
    _ + (if server.table.custody fd = .free then 0 else 1) + 0
  rw [Slots.custody_of_slot? found, Slots.custody_of_slot? put, if_neg before, if_neg after, closed]

/-- A connection that is closed gives its socket up, which is closed with it. -/
theorem tends_release (found : server.table.slot? fd = some slot) (used : slot.custody ≠ .free) :
    Tends fd 0 server (server.release fd) := by
  intro proper
  have table : (server.release fd).table = server.table.release fd :=
    congrArg Ledger.table (ledger_release server fd)
  have released := Slots.slot?_release_self found
  rw [← table] at released
  rw [Slots.vacancy_of_slot? found] at proper
  refine ⟨Slots.vacancy_of_slot? released ▸ slot.proper_release, ?_⟩
  have isOpen : slot.connection.isOpen = true := by
    rw [proper.isOpen]
    simp [used]
  have closed : (server.release fd).kernel.history.closed =
      server.kernel.history.closed ++ [fd] := by
    simp only [release, found, isOpen, ↓reduceIte]
    rfl
  change _ + (if (server.release fd).table.custody fd = .free then 0 else 1) =
    _ + (if server.table.custody fd = .free then 0 else 1) + 0
  rw [custody_release, Slots.custody_of_slot? found, if_pos rfl, if_neg used, closed,
    List.count_append, List.count_singleton_self]

/-- A connection gives up its registration, its timer and its place in the counters before
its slot. -/
theorem closeNow_eq (used : server.table.custody fd ≠ .free) :
    ∃ forgotten : Server, server.closeNow fd = forgotten.release fd ∧
      forgotten.table = server.table ∧ forgotten.kernel.history = server.kernel.history := by
  rw [closeNow, if_neg used]
  refine ⟨_, rfl, ?_, ?_⟩
  · simp only [dropTimer]
    split <;> rfl
  · simp only [dropTimer, Kernel.unregister]
    split <;> (dsimp only; split <;> rfl)

theorem tends_closeNow (used : server.table.custody fd ≠ .free) :
    Tends fd 0 server (server.closeNow fd) := by
  obtain ⟨slot, found, held⟩ := Slots.exists_slot?_of_used used
  obtain ⟨forgotten, same, table, history⟩ := closeNow_eq used
  rw [same]
  have forgets : Tends fd 0 server forgotten := tends_of_same (by rw [table]) (by rw [history])
  exact forgets.trans (tends_release (by rwa [table]) held)

theorem tends_rearm (used : server.table.custody fd ≠ .free) (interest : Interest) :
    Tends fd 0 server (server.rearm fd interest) := by
  simp only [rearm]
  split
  · next kernel armed =>
      simp only [Kernel.rearm?] at armed
      split at armed
      · cases armed
      · cases armed
        exact tends_of_same rfl rfl
  · exact tends_closeNow used

/-- A connection changes through a call, and its socket with it. -/
theorem tends_keep {connection : Connection} (found : server.table.slot? fd = some slot)
    (used : slot.custody ≠ .free) (socket : Socket)
    (same : connection.isOpen = slot.connection.isOpen) :
    Tends fd 0 server (server.keep fd slot connection socket) :=
  tends_putSlot { slot with connection } found used used same rfl rfl

theorem tends_refreshTimer {generation : Nat}
    (timed : server.refreshTimer fd generation = .ok next) : Tends fd 0 server next := by
  obtain ⟨timers, timerIds, rfl⟩ := refreshTimer_eq timed
  exact tends_of_same rfl rfl

/-! ## Branches -/

theorem Parts.tends (parts : Parts server fd next) : Tends fd 0 server next := by
  cases parts with
  | absent => exact .refl fd server
  | now held => exact tends_closeNow (by simp [held])
  | @later slot found lent =>
      have used : slot.custody ≠ .free := by
        rcases lent with custody | custody <;> simp [custody]
      exact tends_putSlot { slot with custody := .closing } found used nofun rfl rfl rfl

theorem Reads.tends (reads : Reads server fd next) : Tends fd 0 server next := by
  cases reads with
  | absent => exact .refl fd server
  | @failed slot _ connection socket found held received =>
      have used : slot.custody ≠ .free := by simp [held]
      have custody := Slots.custody_of_slot? (slot?_keep found connection socket)
      have kept := tends_keep found used socket (Connection.keepsSocket_read received).isOpen
      exact kept.trans (tends_closeNow (by simp [custody, held]))
  | @lent slot _ connection socket refreshed pool found held received timed =>
      have used : slot.custody ≠ .free := by simp [held]
      have here := slot?_keep found connection socket
      have kept := tends_keep found used socket (Connection.keepsSocket_read received).isOpen
      have present := (slot?_refreshTimer timed).trans here
      have handed : Tends fd 0 refreshed { refreshed.putSlot fd
          { slot with connection, custody := .worker } with pool } :=
        tends_putSlot { slot with connection, custody := .worker } present used nofun rfl rfl rfl
      exact (kept.trans (tends_refreshTimer timed)).trans handed
  | @rejected slot _ connection socket refreshed found held received timed =>
      have used : slot.custody ≠ .free := by simp [held]
      have here := slot?_keep found connection socket
      have kept := tends_keep found used socket (Connection.keepsSocket_read received).isOpen
      have custody := Slots.custody_of_slot? ((slot?_refreshTimer timed).trans here)
      have counted : Tends fd 0 refreshed (refreshed.record Counters.countRejection) :=
        tends_of_same rfl rfl
      refine (kept.trans (tends_refreshTimer timed)).trans (counted.trans (tends_closeNow ?_))
      exact custody.trans_ne used

theorem Writes.tends (writes : Writes server fd next) : Tends fd 0 server next := by
  cases writes with
  | absent => exact .refl fd server
  | @again slot connection socket refreshed found held sent timed =>
      have used : slot.custody ≠ .free := by simp [held]
      have kept := tends_keep found used socket (Connection.keepsSocket_write sent).isOpen
      have custody := Slots.custody_of_slot?
        ((slot?_refreshTimer timed).trans (slot?_keep found connection socket))
      exact (kept.trans (tends_refreshTimer timed)).trans (tends_rearm (custody.trans_ne used) _)
  | @keepAlive slot connection socket refreshed found held sent timed =>
      have used : slot.custody ≠ .free := by simp [held]
      have kept := tends_keep found used socket (Connection.keepsSocket_write sent).isOpen
      have custody := Slots.custody_of_slot?
        ((slot?_refreshTimer timed).trans (slot?_keep found connection socket))
      have counted : Tends fd 0 (server.keep fd slot connection socket) refreshed :=
        Tends.trans (tends_of_same rfl rfl) (tends_refreshTimer timed)
      exact (kept.trans counted).trans (tends_rearm (custody.trans_ne used) _)
  | @close slot connection socket found held sent =>
      have used : slot.custody ≠ .free := by simp [held]
      have kept := tends_keep found used socket (Connection.keepsSocket_write sent).isOpen
      have custody := Slots.custody_of_slot? (slot?_keep found connection socket)
      have counted : Tends fd 0 (server.keep fd slot connection socket)
          ((server.keep fd slot connection socket).record fun counters =>
            counters.countBytes slot.connection.toSend) := tends_of_same rfl rfl
      exact (kept.trans counted).trans (tends_closeNow (custody.trans_ne used))
  | @failed slot connection socket found held sent =>
      have used : slot.custody ≠ .free := by simp [held]
      have kept := tends_keep found used socket (Connection.keepsSocket_write sent).isOpen
      have custody := Slots.custody_of_slot? (slot?_keep found connection socket)
      exact kept.trans (tends_closeNow (custody.trans_ne used))

theorem Handles.tends {readiness : Readiness} (handles : Handles server fd readiness next) :
    Tends fd 0 server next := by
  cases handles with
  | hangup _ parts => exact parts.tends
  | readable _ reads => exact reads.tends
  | writable _ writes => exact writes.tends
  | nothing => exact .refl fd server

theorem Settles.tends {done : Completion} (settles : Settles server done next) :
    Tends done.fd 0 server next := by
  cases settles with
  | deferred found _ lent =>
      exact tends_closeNow (by simp [Slots.custody_of_slot? found, lent])
  | @returned slot found _ lent =>
      have used : slot.custody ≠ .free := by simp [lent]
      have back := Slots.slot?_set_of_slot? found { slot with custody := .loop }
      have returned : Tends done.fd 0 server
          (server.putSlot done.fd { slot with custody := .loop }) :=
        tends_putSlot { slot with custody := .loop } found used nofun rfl rfl rfl
      have custody : (server.putSlot done.fd { slot with custody := .loop }).table.custody
          done.fd ≠ .free := (Slots.custody_of_slot? back).trans_ne nofun
      cases done.outcome with
      | needMore | respond => exact returned.trans (tends_rearm custody _)
      | close => exact returned.trans (tends_closeNow custody)

theorem Evicts.tends {generation : Nat} (evicts : Evicts server fd generation next) :
    Tends fd 0 server next := by
  cases evicts with
  | stale => exact tends_of_same rfl rfl
  | counted _ _ parts => exact Tends.trans (tends_of_same rfl rfl) parts.tends

/-- A connection that is accepted brings a socket, which its slot gets or which is closed. -/
theorem TakesIn.tends {peer : Address} (takesIn : TakesIn server fd peer next) :
    Tends fd 1 server next := by
  have dropped {after : Server} (table : after.table = server.table)
      (closed : after.kernel.history.closed = server.kernel.history.closed ++ [fd]) :
      Tends fd 1 server after := by
    intro proper
    refine ⟨table ▸ proper, ?_⟩
    change _ + (if after.table.custody fd = .free then 0 else 1) =
      _ + (if server.table.custody fd = .free then 0 else 1) + 1
    rw [table, closed, List.count_append, List.count_singleton_self]
    omega
  -- A slot that is opened gets the socket.
  have opens {generation : Nat} {table : Slots} {after : Server}
      (opened : server.table.open? fd peer = some (generation, table))
      (same : after.table = table)
      (closed : after.kernel.history.closed = server.kernel.history.closed) :
      after.table.slot? fd = some ((server.table.vacancy fd).opened peer) ∧
        Tends fd 1 server after := by
    obtain ⟨inside, unused, -, -, rfl⟩ := Slots.open?_cases opened
    have found := Slots.slot?_set_self inside ((server.table.vacancy fd).opened peer)
    rw [← same] at found
    refine ⟨found, fun proper => ⟨?_, ?_⟩⟩
    · exact Slots.vacancy_of_slot? found ▸ Slot.proper_opened _ peer
    · change _ + (if after.table.custody fd = .free then 0 else 1) =
        _ + (if server.table.custody fd = .free then 0 else 1) + 1
      rw [Slots.custody_of_slot? found, unused, closed]
      rfl
  cases takesIn with
  | busy => exact dropped rfl rfl
  | dropped => exact dropped rfl rfl
  | @unwatched generation table opened refused =>
      obtain ⟨found, opening⟩ := @opens generation table { server with table } opened rfl rfl
      exact opening.trans (tends_release found nofun)
  | watched room opened registered =>
      refine (opens opened rfl ?_).2
      simp only [Kernel.register?] at registered
      split at registered
      · cases registered
      · cases registered
        rfl

end Server

namespace System

/-- The number that the kernel hands out with a new socket in a step of the loop. -/
def acceptedBy (system : System) : Action → List Fd
  | .advance => system.incoming?.toList
  | _ => []

variable {system next : System} {action : Action}

theorem acceptedBy_of_other (other : action ≠ .advance) : system.acceptedBy action = [] := by
  cases action with
  | advance => exact (other rfl).elim
  | outside | proceed | perform | report | wake | deliver => rfl

/-- Workers, and what happens outside, neither bring a socket nor close one. -/
theorem tends_of_other (entrusted : system.Entrusted) (other : action ≠ .advance)
    (stepped : system.step? action = some next) (fd : Fd) :
    Server.Tends fd 0 system.server next.server := by
  cases action with
  | advance => exact (other rfl).elim
  | outside circumstance =>
      cases stepped
      cases circumstance with
      | feed about =>
          refine Server.tends_of_same rfl ?_
          simp only [Server.after, Kernel.after, Kernel.feed]
          split <;> rfl
      | elapse | arrive | signal => exact Server.tends_of_same rfl rfl
  | perform worker =>
      obtain ⟨task, slot, busy, clear, found, rfl⟩ := perform?_eq_some stepped
      obtain ⟨current, lent⟩ := entrusted.lent busy found
      have used : slot.custody ≠ .free := by
        rcases lent with custody | custody <;> simp [custody]
      by_cases mine : fd = task.fd
      · subst mine
        rw [Task.work_eq_processed _ _ current]
        exact Server.tends_putSlot { slot with connection := (slot.connection.processed
          system.server.tree system.server.settings.docRoot).2 } found used used
          (Connection.isOpen_processed slot.connection _ _) rfl rfl
      · exact Server.tends_of_same (Slots.slot?_set_of_ne mine _) rfl
  | deliver events =>
      simp only [step?, deliver?] at stepped
      split at stepped
      · cases stepped
        obtain ⟨registrations, same⟩ := system.server.kernel.disarmAll_eq events
        exact Server.tends_of_same rfl (by rw [same])
      · cases stepped
  | proceed | report | wake =>
      simp only [step?, proceed?, report?, wake?] at stepped
      split at stepped
      · cases stepped
        exact Server.tends_of_same rfl rfl
      · cases stepped

theorem tends_of_advances (owned : system.Owned) (advances : system.Advances next) (fd : Fd) :
    Server.Tends fd ((system.acceptedBy .advance).count fd) system.server next.server := by
  -- Only the loop that accepts gets a socket.
  have alone (elsewhere : ∀ events due, system.place ≠ .accepting events due)
      (tends : Server.Tends fd 0 system.server next.server) :
      Server.Tends fd ((system.acceptedBy .advance).count fd) system.server next.server := by
    have none : system.incoming? = none := by
      simp only [incoming?]
      split
      · next events due _ _ _ _ _ position _ => exact (elsewhere events due position).elim
      · rfl
    rw [acceptedBy, none]
    exact tends
  cases advances with
  | collect position | listen position | beginSweep position | rest position | endSweep position =>
      exact alone (by simp [position]) (Server.tends_of_same rfl rfl)
  | acceptNone position waiting | acceptAgain position waiting | acceptFails position _ waiting =>
      have none : system.incoming? = none := by simp [incoming?, position, waiting]
      rw [acceptedBy, none]
      exact Server.tends_of_same rfl rfl
  | @accept events due about peer outgoing failing rest server position waiting taken =>
      have incoming : system.incoming? = some about := by simp [incoming?, position, waiting]
      rw [acceptedBy, incoming]
      by_cases mine : fd = about
      · subst mine
        have brought : Server.Tends fd 0 system.server
            { system.server.setArrivals rest with
              kernel := (system.server.setArrivals rest).kernel.openSocket fd outgoing failing } :=
          Server.tends_of_same rfl rfl
        simpa using brought.trans (Server.takeIn_cases taken).tends
      · have leaves := (takeInNext_spec taken).1.leaves fd mine
        simpa [Ne.symm mine] using leaves.tends
  | @handle event events sweepDue due server position other handled =>
      refine alone (by simp [position]) ?_
      cases event with
      | arrivals => exact (other rfl).elim
      | notices =>
          have confined := Server.confined_handleNotices system.server
          simp only [Server.handle, Except.ok.injEq] at handled
          rw [handled] at confined
          exact (Server.Confined.leaves_all confined fd).tends
      | ready about readiness =>
          obtain ⟨-, acted⟩ := Server.handleReady_of_handle handled
          by_cases mine : fd = about
          · subst mine
            exact (Server.handleReady_branch acted).tends
          · rcases Server.handleReady_cases acted with ⟨confined, -⟩ | ⟨_, rfl, lends⟩
            · exact (confined.leaves fd mine).tends
            · exact (lends.leaves fd mine).tends
  | @settle done rest sweepDue position =>
      refine alone (by simp [position]) ?_
      have lent := owned.lent_of_settling position
      by_cases mine : fd = done.fd
      · subst mine
        exact (Server.handleCompletion_branch lent).tends
      · exact ((Server.handleCompletion_spec lent).1.leaves fd mine).tends
  | @evict expired rest position =>
      refine alone (by simp [position]) ?_
      by_cases mine : fd = expired.1
      · subst mine
        exact (Server.evict_branch system.server expired.1 expired.2).tends
      · exact ((Server.confined_evict system.server expired.1 expired.2).leaves fd mine).tends

/-- Every step keeps the account of sockets, and a step that accepts adds one. -/
theorem tends_of_step? (owned : system.Owned) (stepped : system.step? action = some next)
    (fd : Fd) :
    Server.Tends fd ((system.acceptedBy action).count fd) system.server next.server := by
  by_cases loops : action = .advance
  · subst loops
    exact tends_of_advances owned (.of_advance? stepped) fd
  · rw [acceptedBy_of_other loops]
    exact tends_of_other owned.entrusted loops stepped fd

end System

end FileServer
