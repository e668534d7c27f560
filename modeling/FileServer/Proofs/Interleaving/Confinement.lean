import FileServer.Event.Handlers

/-!
# What a handler leaves alone

Each handler of the loop is called for one descriptor.  It leaves the slots, the
sockets and the registrations of all other descriptors as they are, and the tasks
and completions too, except that reading may hand a task to the workers.
-/

namespace FileServer

/-- The result of a mapped computation is the image of one. -/
theorem exists_of_map_eq_ok {ε α β : Type} {result : Except ε α} {image : α → β} {value : β}
    (mapped : result.map image = .ok value) :
    ∃ source, result = .ok source ∧ image source = value := by
  cases result with
  | error fault => cases mapped
  | ok source => exact ⟨source, rfl, Except.ok.inj mapped⟩

namespace Slots

theorem slot?_ofLimit (limit : Nat) (fd : Fd) : (ofLimit limit).slot? fd = none := by
  simp only [slot?]
  split
  · exact FdMap.find?_empty fd
  · rfl

theorem fits_of_slot? {table : Slots} {fd : Fd} {slot : Slot}
    (found : table.slot? fd = some slot) : table.fits fd = true := by
  simp only [slot?] at found
  split at found
  · assumption
  · cases found

/-- Setting a slot that is there replaces it. -/
theorem slot?_set_of_slot? {table : Slots} {fd : Fd} {slot : Slot}
    (found : table.slot? fd = some slot) (next : Slot) :
    (table.set fd next).slot? fd = some next :=
  slot?_set_self (fits_of_slot? found) next

theorem custody_of_slot? {table : Slots} {fd : Fd} {slot : Slot}
    (found : table.slot? fd = some slot) : table.custody fd = slot.custody := by
  simp [custody, found]

theorem slot?_release_of_ne {table : Slots} {fd other : Fd} (differ : other ≠ fd) :
    (table.release fd).slot? other = table.slot? other := by
  simp only [release]
  split
  · exact slot?_set_of_ne differ _
  · rfl

theorem slot?_release_self {table : Slots} {fd : Fd} {slot : Slot}
    (found : table.slot? fd = some slot) :
    (table.release fd).slot? fd = some slot.release := by
  simp only [release, found]
  exact slot?_set_of_slot? found _

/-- Opening a slot starts the next generation in it, and only where none is under
way. -/
theorem open?_eq_some {table opened : Slots} {fd : Fd} {peer : Address} {generation : Nat}
    (accepted : table.open? fd peer = some (generation, opened)) :
    table.custody fd = .free ∧
      ∃ slot, slot.custody = .loop ∧ slot.generation = generation ∧
        opened = table.set fd slot ∧ opened.slot? fd = some slot := by
  simp only [open?] at accepted
  split at accepted
  · next inside =>
      split at accepted
      · next slot made =>
          simp only [Option.some.injEq, Prod.mk.injEq] at accepted
          obtain ⟨rfl, rfl⟩ := accepted
          simp only [Slot.open?] at made
          split at made
          · next unused =>
              simp only [Option.some.injEq] at made
              subst made
              refine ⟨?_, _, rfl, rfl, rfl, slot?_set_self inside _⟩
              simp only [custody, slot?, if_pos inside]
              cases held : table.slots.find? fd with
              | none => rfl
              | some slot => simpa [held] using unused
          · cases made
      · cases accepted
  · cases accepted

end Slots

namespace Server

/-- Nothing that belongs to a descriptor has changed: its slot, its socket, its
registration, and how often its number was closed. -/
structure Leaves (fd : Fd) (before after : Server) : Prop where
  slot : after.table.slot? fd = before.table.slot? fd
  socket : after.kernel.socket fd = before.kernel.socket fd
  registration :
    after.kernel.registrations.find? fd = before.kernel.registrations.find? fd
  closed : after.kernel.history.closed.count fd = before.kernel.history.closed.count fd

/-- What has changed, apart from timers and counters, belongs to one
descriptor. -/
structure Confined (fd : Fd) (before after : Server) : Prop where
  pool : after.pool = before.pool
  completions : after.shared.completions = before.shared.completions
  leaves : ∀ other, other ≠ fd → Leaves other before after

theorem Leaves.refl (fd : Fd) (server : Server) : Leaves fd server server :=
  ⟨rfl, rfl, rfl, rfl⟩

theorem Leaves.trans {fd : Fd} {first second third : Server} (early : Leaves fd first second)
    (late : Leaves fd second third) : Leaves fd first third where
  slot := late.slot.trans early.slot
  socket := late.socket.trans early.socket
  registration := late.registration.trans early.registration
  closed := late.closed.trans early.closed

theorem Confined.refl (fd : Fd) (server : Server) : Confined fd server server :=
  ⟨rfl, rfl, fun other _ => .refl other server⟩

theorem Confined.trans {fd : Fd} {first second third : Server} (early : Confined fd first second)
    (late : Confined fd second third) : Confined fd first third where
  pool := late.pool.trans early.pool
  completions := late.completions.trans early.completions
  leaves other differ := (early.leaves other differ).trans (late.leaves other differ)

/-- A change that is confined to each descriptor belongs to none. -/
theorem Confined.leaves_all {before after : Server} (confined : ∀ fd, Confined fd before after)
    (fd : Fd) : Leaves fd before after :=
  (confined (fd + 1)).leaves fd (Int.ne_of_lt (Int.lt_succ fd))

variable {server : Server} {fd : Fd}

/-! ## Small operations -/

theorem confined_shared (server : Server) (fd : Fd) {shared : Shared}
    (same : shared.completions = server.shared.completions) :
    Confined fd server { server with shared } :=
  ⟨rfl, same, fun _ _ => ⟨rfl, rfl, rfl, rfl⟩⟩

theorem confined_record (server : Server) (fd : Fd) (change : Counters → Counters) :
    Confined fd server (server.record change) :=
  confined_shared server fd rfl

theorem confined_putSlot (server : Server) (fd : Fd) (slot : Slot) :
    Confined fd server (server.putSlot fd slot) where
  pool := rfl
  completions := rfl
  leaves _ differ := ⟨Slots.slot?_set_of_ne differ slot, rfl, rfl, rfl⟩

theorem confined_putSocket (server : Server) (fd : Fd) (socket : Socket) :
    Confined fd server (server.putSocket fd socket) where
  pool := rfl
  completions := rfl
  leaves other differ := by
    refine ⟨rfl, ?_, rfl, rfl⟩
    simp only [putSocket, Kernel.putSocket, Kernel.socket]
    rw [FdMap.find?_insert_of_ne differ]

theorem confined_dropSocket (server : Server) (fd : Fd) :
    Confined fd server (server.dropSocket fd) where
  pool := rfl
  completions := rfl
  leaves other differ := by
    refine ⟨rfl, rfl, rfl, ?_⟩
    simp [dropSocket, Kernel.dropSocket, Ne.symm differ]

/-- Closing a socket leaves the registrations of all others alone. -/
theorem find?_closeSocket_of_ne {kernel : Kernel} {other : Fd} (differ : other ≠ fd) :
    (kernel.closeSocket fd).registrations.find? other = kernel.registrations.find? other := by
  simp only [Kernel.closeSocket]
  split
  · exact FdMap.find?_erase_of_ne differ
  · rfl

theorem confined_release (server : Server) (fd : Fd) :
    Confined fd server (server.release fd) := by
  simp only [release]
  split
  · refine ⟨rfl, rfl, fun other differ => ?_⟩
    refine ⟨Slots.slot?_release_of_ne differ, ?_, ?_, ?_⟩
    · split <;> rfl
    · split
      · exact find?_closeSocket_of_ne differ
      · rfl
    · split
      · simp [Kernel.closeSocket, Kernel.dropSocket, Ne.symm differ]
      · rfl
  · exact .refl fd server

theorem confined_dropTimer (server : Server) (fd other : Fd) :
    Confined fd server (server.dropTimer other) := by
  simp only [dropTimer]
  split
  · exact ⟨rfl, rfl, fun _ _ => ⟨rfl, rfl, rfl, rfl⟩⟩
  · exact .refl fd server

theorem confined_refreshTimer {next : Server} {generation : Nat}
    (refreshed : server.refreshTimer fd generation = .ok next) :
    Confined fd server next ∧ next.table = server.table := by
  simp only [refreshTimer] at refreshed
  split at refreshed
  · cases refreshed
  · split at refreshed
    · cases refreshed
      exact ⟨⟨rfl, rfl, fun _ _ => ⟨rfl, rfl, rfl, rfl⟩⟩, rfl⟩
    · split at refreshed
      · cases refreshed
        exact ⟨⟨rfl, rfl, fun _ _ => ⟨rfl, rfl, rfl, rfl⟩⟩, rfl⟩
      · cases refreshed
        exact ⟨⟨rfl, rfl, fun _ _ => ⟨rfl, rfl, rfl, rfl⟩⟩, rfl⟩

/-! ## Registrations -/

theorem confined_unregister (server : Server) (fd : Fd) :
    Confined fd server { server with kernel := server.kernel.unregister fd } where
  pool := rfl
  completions := rfl
  leaves other differ := by
    simp only [Kernel.unregister]
    split
    · exact .refl other server
    · exact ⟨rfl, rfl, FdMap.find?_erase_of_ne differ, rfl⟩

theorem confined_register? {kernel : Kernel} {interest : Interest}
    (registered : server.kernel.register? fd interest = some kernel) :
    Confined fd server { server with kernel } where
  pool := rfl
  completions := rfl
  leaves other differ := by
    simp only [Kernel.register?] at registered
    split at registered
    · cases registered
    · cases registered
      exact ⟨rfl, rfl, FdMap.find?_insert_of_ne differ _, rfl⟩

theorem confined_rearm? {kernel : Kernel} {interest : Interest}
    (armed : server.kernel.rearm? fd interest = some kernel) :
    Confined fd server { server with kernel } where
  pool := rfl
  completions := rfl
  leaves other differ := by
    simp only [Kernel.rearm?] at armed
    split at armed
    · cases armed
    · cases armed
      exact ⟨rfl, rfl, FdMap.find?_insert_of_ne differ _, rfl⟩

/-! ## Closing -/

theorem confined_closeNow (server : Server) (fd : Fd) :
    Confined fd server (server.closeNow fd) := by
  simp only [closeNow]
  split
  · exact .refl fd server
  · refine (confined_unregister server fd).trans ?_
    refine (confined_dropTimer _ fd fd).trans ?_
    refine (confined_shared _ fd ?_).trans (confined_release _ fd)
    rfl

theorem custody_release (server : Server) (fd : Fd) :
    (server.release fd).table.custody fd = .free := by
  simp only [release]
  cases found : server.table.slot? fd with
  | none => simp [Slots.custody, found]
  | some slot =>
      dsimp only
      rw [Slots.custody_of_slot? (Slots.slot?_release_self found)]
      rfl

/-- After closing, a descriptor has no connection. -/
theorem custody_closeNow (server : Server) (fd : Fd) :
    (server.closeNow fd).table.custody fd = .free := by
  simp only [closeNow]
  split
  · assumption
  · exact custody_release _ fd

theorem confined_rearm (server : Server) (fd : Fd) (interest : Interest) :
    Confined fd server (server.rearm fd interest) := by
  simp only [rearm]
  split
  · next armed => exact confined_rearm? armed
  · exact confined_closeNow server fd

/-- Arming again keeps the custody, or closes the connection. -/
theorem custody_rearm (server : Server) (fd : Fd) (interest : Interest) :
    (server.rearm fd interest).table.custody fd = server.table.custody fd ∨
      (server.rearm fd interest).table.custody fd = .free := by
  simp only [rearm]
  split
  · exact .inl rfl
  · exact .inr (custody_closeNow server fd)

end Server

end FileServer
