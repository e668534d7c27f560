import FileServer.Proofs.Interleaving.Lawful
import FileServer.Proofs.Interleaving.Timekeeping

/-!
# What belongs to a descriptor

A descriptor has a slot and, once the number was handed out, a socket.  Handlers change
these through a few operations, which do the same to them whatever else is in the
server, and a handler that is called for one descriptor leaves them alone for any
other.
-/

namespace FileServer

namespace Slots

variable {table : Slots} {fd : Fd} {slot : Slot}

theorem vacancy_of_slot? (found : table.slot? fd = some slot) : table.vacancy fd = slot := by
  rw [vacancy, found]
  rfl

theorem custody_vacancy (table : Slots) (fd : Fd) :
    (table.vacancy fd).custody = table.custody fd := by
  cases found : table.slot? fd with
  | none => simp [vacancy, custody, found, Slot.fresh]
  | some slot => rw [vacancy_of_slot? found, custody_of_slot? found]

theorem slot?_of_vacancy (same : table.vacancy fd = slot) (used : slot.custody ≠ .free) :
    table.slot? fd = some slot := by
  cases found : table.slot? fd with
  | none =>
      simp only [vacancy, found, Option.getD_none] at same
      subst same
      exact (used rfl).elim
  | some held => rw [← same, vacancy_of_slot? found]

end Slots

/-- Answers for a socket are for the one with this number alone. -/
theorem Kernel.find?_feed (kernel : Kernel) (fd about : Fd) (incoming : List Receive)
    (outgoing : List Transmit) (failing : List Call) :
    (kernel.feed about incoming outgoing failing).sockets.find? fd =
      if about = fd then (kernel.sockets.find? fd).map fun socket => socket.script incoming outgoing
      else kernel.sockets.find? fd := by
  simp only [feed]
  split
  · split
    · next same =>
        subst same
        exact FdMap.find?_modify_self _ _ _
    · next differ => exact FdMap.find?_modify_of_ne (Ne.symm differ) _
  · next unknown =>
      split
      · next same =>
          subst same
          simp only [FdMap.contains, Option.not_isSome_iff_eq_none] at unknown
          rw [unknown, Option.map_none]
      · rfl

namespace Server

/-- What a server has for a descriptor: the slot, which may have had no connection yet,
and the socket with this number, if there has been one. -/
structure Houses (server : Server) (fd : Fd) (slot : Slot) (socket : Option Socket) : Prop where
  slot : server.table.vacancy fd = slot
  socket : server.kernel.sockets.find? fd = socket

variable {server next : Server} {fd : Fd} {slot : Slot} {socket : Option Socket}

theorem Houses.custody (houses : server.Houses fd slot socket) :
    server.table.custody fd = slot.custody := by
  rw [← Slots.custody_vacancy, houses.slot]

theorem Houses.found (houses : server.Houses fd slot socket) (used : slot.custody ≠ .free) :
    server.table.slot? fd = some slot :=
  Slots.slot?_of_vacancy houses.slot used

theorem Houses.lent (houses : server.Houses fd slot socket) :
    server.table.lent fd = slot.task? fd := by
  rw [← houses.slot]
  cases found : server.table.slot? fd with
  | none => simp [Slots.lent, Slots.vacancy, found, Slot.task?, Slot.fresh]
  | some held => rw [Slots.vacancy_of_slot? found, Slots.lent_of_slot? found]

/-- The slot that was found is the one that is there. -/
theorem Houses.eq_of_slot? (houses : server.Houses fd slot socket) {held : Slot}
    (found : server.table.slot? fd = some held) : held = slot :=
  (Slots.vacancy_of_slot? found).symm.trans houses.slot

theorem Houses.socket_eq (houses : server.Houses fd slot socket) :
    server.kernel.socket fd = socket.getD {} := by
  rw [Kernel.socket, houses.socket]

theorem Houses.of_same (houses : server.Houses fd slot socket)
    (slots : next.table.slot? fd = server.table.slot? fd)
    (sockets : next.kernel.sockets.find? fd = server.kernel.sockets.find? fd) :
    next.Houses fd slot socket where
  slot := by rw [Slots.vacancy, slots, ← Slots.vacancy, houses.slot]
  socket := sockets.trans houses.socket

/-! ## Operations -/

theorem sockets_release (server : Server) (fd : Fd) :
    (server.release fd).kernel.sockets = server.kernel.sockets := by
  simp only [release]
  split
  · dsimp only
    split <;> rfl
  · rfl

theorem sockets_closeNow (server : Server) (fd : Fd) :
    (server.closeNow fd).kernel.sockets = server.kernel.sockets := by
  simp only [closeNow]
  split
  · rfl
  · refine (sockets_release _ fd).trans ?_
    simp only [dropTimer, Kernel.unregister]
    split <;> (dsimp only; split <;> rfl)

theorem sockets_rearm (server : Server) (fd : Fd) (interest : Interest) :
    (server.rearm fd interest).kernel.sockets = server.kernel.sockets := by
  simp only [rearm]
  split
  · next kernel armed =>
      simp only [Kernel.rearm?] at armed
      split at armed
      · cases armed
      · cases armed
        rfl
  · exact sockets_closeNow server fd

theorem sockets_register? {kernel : Kernel} {interest : Interest}
    (registered : server.kernel.register? fd interest = some kernel) :
    kernel.sockets = server.kernel.sockets := by
  simp only [Kernel.register?] at registered
  split at registered
  · cases registered
  · cases registered
    rfl

theorem Houses.release (houses : server.Houses fd slot socket)
    (found : server.table.slot? fd = some slot) :
    (server.release fd).Houses fd slot.release socket where
  slot := by
    have table : (server.release fd).table = server.table.release fd :=
      congrArg Ledger.table (ledger_release server fd)
    rw [table]
    exact Slots.vacancy_of_slot? (Slots.slot?_release_self found)
  socket := by rw [sockets_release, houses.socket]

theorem Houses.closeNow (houses : server.Houses fd slot socket) (used : slot.custody ≠ .free) :
    (server.closeNow fd).Houses fd slot.release socket where
  slot := by
    have table := congrArg Ledger.table (ledger_closeNow (houses.custody ▸ used))
    change (server.closeNow fd).table = server.table.release fd at table
    rw [table]
    exact Slots.vacancy_of_slot? (Slots.slot?_release_self (houses.found used))
  socket := by rw [sockets_closeNow, houses.socket]

theorem Houses.rearm (houses : server.Houses fd slot socket) (used : slot.custody ≠ .free)
    (interest : Interest) :
    (server.rearm fd interest).Houses fd slot socket ∨
      (server.rearm fd interest).Houses fd slot.release socket := by
  have sockets := sockets_rearm server fd interest
  simp only [Server.rearm] at sockets ⊢
  split
  · next kernel armed =>
      rw [armed] at sockets
      exact .inl ⟨houses.slot, (congrArg (FdMap.find? · fd) sockets).trans houses.socket⟩
  · exact .inr (houses.closeNow used)

theorem Houses.refreshTimer (houses : server.Houses fd slot socket) {generation : Nat}
    (timed : server.refreshTimer fd generation = .ok next) : next.Houses fd slot socket := by
  obtain ⟨timers, timerIds, rfl⟩ := refreshTimer_eq timed
  exact ⟨houses.slot, houses.socket⟩

theorem Houses.record (houses : server.Houses fd slot socket) (change : Counters → Counters) :
    (server.record change).Houses fd slot socket :=
  ⟨houses.slot, houses.socket⟩

theorem Houses.putSlot (houses : server.Houses fd slot socket)
    (found : server.table.slot? fd = some slot) (changed : Slot) :
    (server.putSlot fd changed).Houses fd changed socket where
  slot := Slots.vacancy_of_slot? (Slots.slot?_set_of_slot? found changed)
  socket := houses.socket

theorem houses_keep (found : server.table.slot? fd = some slot) (connection : Connection)
    (after : Socket) :
    (server.keep fd slot connection after).Houses fd { slot with connection } (some after) where
  slot := Slots.vacancy_of_slot? (slot?_keep found connection after)
  socket := FdMap.find?_insert_self _ _ _

/-- The loop does not receive on what it does not have. -/
theorem Reads.eq_of_elsewhere (reads : Reads server fd next)
    (elsewhere : server.table.custody fd ≠ .loop) : next = server := by
  cases reads with
  | absent => rfl
  | failed found held | lent found held | rejected found held =>
      exact (elsewhere ((Slots.custody_of_slot? found).trans held)).elim

/-- The loop does not send on what it does not have. -/
theorem Writes.eq_of_elsewhere (writes : Writes server fd next)
    (elsewhere : server.table.custody fd ≠ .loop) : next = server := by
  cases writes with
  | absent => rfl
  | again found held | keepAlive found held | close found held | failed found held =>
      exact (elsewhere ((Slots.custody_of_slot? found).trans held)).elim

/-! ## Sockets of other numbers -/

/-- The sockets are as before, but for the one with a number. -/
def KeepsSockets (fd : Fd) (before after : Server) : Prop :=
  ∀ other, other ≠ fd →
    after.kernel.sockets.find? other = before.kernel.sockets.find? other

theorem keepsSockets_of_eq (same : next.kernel.sockets = server.kernel.sockets) (fd : Fd) :
    KeepsSockets fd server next := by
  intro other _
  rw [same]

theorem keepsSockets_of_insert {after : Socket}
    (same : next.kernel.sockets = server.kernel.sockets.insert fd after) :
    KeepsSockets fd server next := by
  intro other differ
  rw [same, FdMap.find?_insert_of_ne differ]

theorem KeepsSockets.trans {first second third : Server} (early : KeepsSockets fd first second)
    (late : KeepsSockets fd second third) : KeepsSockets fd first third :=
  fun other differ => (late other differ).trans (early other differ)

theorem Parts.keepsSockets (parts : Parts server fd next) : KeepsSockets fd server next := by
  cases parts with
  | absent | later => exact keepsSockets_of_eq rfl fd
  | now => exact keepsSockets_of_eq (sockets_closeNow server fd) fd

theorem Reads.keepsSockets (reads : Reads server fd next) : KeepsSockets fd server next := by
  cases reads with
  | absent => exact keepsSockets_of_eq rfl fd
  | failed => exact keepsSockets_of_insert (sockets_closeNow _ fd)
  | lent found held received timed =>
      obtain ⟨timers, timerIds, rfl⟩ := refreshTimer_eq timed
      exact keepsSockets_of_insert rfl
  | rejected found held received timed =>
      obtain ⟨timers, timerIds, rfl⟩ := refreshTimer_eq timed
      exact keepsSockets_of_insert (sockets_closeNow _ fd)

theorem Writes.keepsSockets (writes : Writes server fd next) : KeepsSockets fd server next := by
  cases writes with
  | absent => exact keepsSockets_of_eq rfl fd
  | again found held sent timed | keepAlive found held sent timed =>
      obtain ⟨timers, timerIds, rfl⟩ := refreshTimer_eq timed
      exact keepsSockets_of_insert (sockets_rearm _ fd _)
  | close | failed => exact keepsSockets_of_insert (sockets_closeNow _ fd)

theorem Handles.keepsSockets {readiness : Readiness} (handles : Handles server fd readiness next) :
    KeepsSockets fd server next := by
  cases handles with
  | hangup _ parts => exact parts.keepsSockets
  | readable _ reads => exact reads.keepsSockets
  | writable _ writes => exact writes.keepsSockets
  | nothing => exact keepsSockets_of_eq rfl fd

theorem Settles.keepsSockets {done : Completion} (settles : Settles server done next) :
    KeepsSockets done.fd server next := by
  cases settles with
  | deferred => exact keepsSockets_of_eq (sockets_closeNow server _) _
  | returned =>
      cases done.outcome with
      | needMore | respond => exact keepsSockets_of_eq (sockets_rearm _ _ _) _
      | close => exact keepsSockets_of_eq (sockets_closeNow _ _) _

theorem Evicts.keepsSockets {generation : Nat} (evicts : Evicts server fd generation next) :
    KeepsSockets fd server next := by
  cases evicts with
  | stale => exact keepsSockets_of_eq rfl fd
  | counted _ _ parts => exact parts.keepsSockets

theorem TakesIn.keepsSockets {peer : Address} (takesIn : TakesIn server fd peer next) :
    KeepsSockets fd server next := by
  cases takesIn with
  | busy => exact keepsSockets_of_insert rfl
  | dropped => exact keepsSockets_of_eq rfl fd
  | unwatched => exact keepsSockets_of_eq (sockets_release _ fd) fd
  | watched room opened registered => exact keepsSockets_of_eq (sockets_register? registered) fd

theorem sockets_handleNotices (server : Server) :
    server.handleNotices.2.kernel.sockets = server.kernel.sockets := by
  have notices (notices : List Notice) (state : Bool × Server) :
      (notices.foldl handleNotice state).2.kernel.sockets = state.2.kernel.sockets := by
    induction notices generalizing state with
    | nil => rfl
    | cons first rest ih =>
        refine (ih (handleNotice state first)).trans ?_
        cases first <;> rfl
  exact notices _ _

/-- What a handler does for one descriptor does not concern another. -/
theorem Houses.elsewhere {about : Fd} (houses : server.Houses fd slot socket) (differ : fd ≠ about)
    (leaves : Leaves fd server next) (keeps : KeepsSockets about server next) :
    next.Houses fd slot socket :=
  houses.of_same leaves.slot (keeps fd differ)

end Server

end FileServer
