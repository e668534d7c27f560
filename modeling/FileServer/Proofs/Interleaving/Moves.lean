import FileServer.Proofs.Interleaving.Branches
import FileServer.Proofs.Interleaving.Errands

/-!
# What a step moves in the books

Which connections there are, their timers and the counters of connections are what
the server keeps books on.  Most steps leave the books alone: those of the pool,
those that pass notices or completions on, and all that happens outside.  The
others are one piece of work on a connection, or one call of a handler.  A handler in
turn does one operation after the other, and what each of these does to the books
adds up.
-/

namespace FileServer

/-- What the server keeps books on: the slots, their timers, and the counters of
connections. -/
structure Ledger where
  settings : Settings
  table : Slots
  timers : Timers (Fd × Nat)
  timerIds : FdMap TimerId
  live : Nat
  accepted : Nat
  closed : Nat
  evicted : Nat
  rejected : Nat

/-- The timers that have fired and are still to be acted on. -/
def Place.expired : Place → List (Fd × Nat)
  | .sweeping expired => expired
  | .waiting | .serving _ _ | .accepting _ _ | .settling _ _ | .stopped => []

namespace Server

/-- The books of the server. -/
def ledger (server : Server) : Ledger where
  settings := server.settings
  table := server.table
  timers := server.timers
  timerIds := server.timerIds
  live := server.shared.live
  accepted := server.shared.counters.accepted
  closed := server.shared.counters.closed
  evicted := server.shared.counters.evicted
  rejected := server.shared.counters.rejected

/-- Notices are not about connections. -/
theorem ledger_handleNotices (server : Server) :
    server.handleNotices.2.ledger = server.ledger := by
  have notices (notices : List Notice) (state : Bool × Server) :
      (notices.foldl handleNotice state).2.ledger = state.2.ledger := by
    induction notices generalizing state with
    | nil => rfl
    | cons first rest ih =>
        refine (ih (handleNotice state first)).trans ?_
        cases first <;> rfl
  exact notices _ _

/-- Neither is the event that there are some. -/
theorem ledger_notices {server next : Server} {due : Bool}
    (handled : server.handle .notices = .ok (due, next)) : next.ledger = server.ledger := by
  have same := ledger_handleNotices server
  rwa [Except.ok.inj handled] at same

/-! ## Operations one after the other -/

variable {server next : Server} {fd : Fd}

/-- Relations between the books before and after a handler, which hold of each of its
operations and add up. -/
structure Adds (relation : Fd → Ledger → Ledger → Prop) : Prop where
  refl : ∀ fd ledger, relation fd ledger ledger
  trans : ∀ {fd first second third}, relation fd first second → relation fd second third →
    relation fd first third
  /-- A connection changes, or its custody does; who hands it out had it. -/
  putSlot : ∀ {server : Server} {fd slot} (changed : Slot), server.table.slot? fd = some slot →
    changed.generation = slot.generation → slot.custody ≠ .free → changed.custody ≠ .free →
    changed.custody = .closing ∨ slot.custody = .loop ∨ slot.custody = .worker →
    relation fd server.ledger (server.putSlot fd changed).ledger
  /-- The deadline of a connection moves. -/
  refreshTimer : ∀ {server next : Server} {fd slot}, server.table.slot? fd = some slot →
    slot.custody = .loop → server.refreshTimer fd slot.generation = .ok next →
    relation fd server.ledger next.ledger
  closeNow : ∀ {server : Server} {fd}, server.table.custody fd ≠ .free →
    relation fd server.ledger (server.closeNow fd).ledger
  /-- A connection is counted as rejected and closed. -/
  reject : ∀ {server : Server} {fd}, server.table.custody fd = .loop →
    relation fd server.ledger ((server.record Counters.countRejection).closeNow fd).ledger

namespace Adds

variable {relation : Fd → Ledger → Ledger → Prop} (adds : Adds relation)

include adds

theorem keep {slot : Slot} (found : server.table.slot? fd = some slot) (held : slot.custody = .loop)
    (connection : Connection) (socket : Socket) :
    relation fd server.ledger (server.keep fd slot connection socket).ledger :=
  adds.putSlot { slot with connection } found rfl (by simp [held]) (by simp [held])
    (.inr (.inl held))

theorem rearm (used : server.table.custody fd ≠ .free) (interest : Interest) :
    relation fd server.ledger (server.rearm fd interest).ledger := by
  simp only [Server.rearm]
  split
  · exact adds.refl fd server.ledger
  · exact adds.closeNow used

theorem reads (reads : Reads server fd next) : relation fd server.ledger next.ledger := by
  cases reads with
  | absent => exact adds.refl fd server.ledger
  | @failed slot _ connection socket found held received =>
      have custody := Slots.custody_of_slot? (slot?_keep found connection socket)
      exact adds.trans (adds.keep found held connection socket)
        (adds.closeNow (by simp [custody, held]))
  | @lent slot _ connection socket refreshed pool found held received timed submitted =>
      have here := slot?_keep found connection socket
      have present := (slot?_refreshTimer timed).trans here
      apply adds.trans (adds.keep found held connection socket)
      apply adds.trans (adds.refreshTimer here held timed)
      exact adds.putSlot { slot with connection, custody := .worker } present rfl (by simp [held])
        nofun (.inr (.inl held))
  | @rejected slot _ connection socket refreshed found held received timed =>
      have here := slot?_keep found connection socket
      have custody := Slots.custody_of_slot? ((slot?_refreshTimer timed).trans here)
      apply adds.trans (adds.keep found held connection socket)
      apply adds.trans (adds.refreshTimer here held timed)
      exact adds.reject (custody.trans held)

theorem writes (writes : Writes server fd next) : relation fd server.ledger next.ledger := by
  cases writes with
  | absent => exact adds.refl fd server.ledger
  | @again slot connection socket refreshed found held sent timed =>
      have here := slot?_keep found connection socket
      have custody := Slots.custody_of_slot? ((slot?_refreshTimer timed).trans here)
      apply adds.trans (adds.keep found held connection socket)
      apply adds.trans (adds.refreshTimer here held timed)
      exact adds.rearm (by simp [custody, held]) .writable
  | @keepAlive slot connection socket refreshed found held sent timed =>
      have here := slot?_keep found connection socket
      have custody := Slots.custody_of_slot? ((slot?_refreshTimer timed).trans here)
      -- Sent bytes are not on the books.
      have refreshes := @refreshTimer _ adds
        ((server.keep fd slot connection socket).record fun counters =>
          counters.countBytes slot.connection.toSend)
        refreshed fd { slot with connection } here held timed
      apply adds.trans (adds.keep found held connection socket)
      apply adds.trans refreshes
      exact adds.rearm (by simp [custody, held]) .readable
  | @close slot connection socket found held sent =>
      have custody := Slots.custody_of_slot? (slot?_keep found connection socket)
      have used : (server.keep fd slot connection socket).table.custody fd ≠ .free := by
        simp [custody, held]
      have closes := @closeNow _ adds
        ((server.keep fd slot connection socket).record fun counters =>
          counters.countBytes slot.connection.toSend) fd used
      exact adds.trans (adds.keep found held connection socket) closes
  | @failed slot connection socket found held sent =>
      have custody := Slots.custody_of_slot? (slot?_keep found connection socket)
      exact adds.trans (adds.keep found held connection socket)
        (adds.closeNow (by simp [custody, held]))

theorem parts (parts : Parts server fd next) : relation fd server.ledger next.ledger := by
  cases parts with
  | absent => exact adds.refl fd server.ledger
  | now held => exact adds.closeNow (by simp [held])
  | @later slot found lent =>
      refine adds.putSlot { slot with custody := .closing } found rfl ?_ nofun (.inl rfl)
      rcases lent with custody | custody <;> simp [custody]

theorem handles {readiness : Readiness} (handles : Handles server fd readiness next) :
    relation fd server.ledger next.ledger := by
  cases handles with
  | hangup _ parts => exact adds.parts parts
  | readable _ reads => exact adds.reads reads
  | writable _ writes => exact adds.writes writes
  | nothing => exact adds.refl fd server.ledger

theorem settles {done : Completion} (settles : Settles server done next) :
    relation done.fd server.ledger next.ledger := by
  cases settles with
  | @deferred slot found current lent =>
      exact adds.closeNow (by simp [Slots.custody_of_slot? found, lent])
  | @returned slot found current lent =>
      have back := Slots.slot?_set_of_slot? found { slot with custody := .loop }
      have used : (server.putSlot done.fd { slot with custody := .loop }).table.custody done.fd ≠
          .free := by
        simp [Server.putSlot, Slots.custody_of_slot? back]
      apply adds.trans (adds.putSlot { slot with custody := .loop } found rfl (by simp [lent])
        (by simp) (.inr (.inr lent)))
      cases done.outcome with
      | needMore => exact adds.rearm used .readable
      | respond => exact adds.rearm used .writable
      | close => exact adds.closeNow used

end Adds

end Server

namespace System

/-- What a step does to the books. -/
inductive Moves (system : System) : System → Prop
  /-- They stay as they are. -/
  | still {next : System} (same : next.server.ledger = system.server.ledger)
      (expired : next.place.expired = system.place.expired) : Moves system next
  /-- A worker has worked on a connection. -/
  | worked {fd : Fd} {slot : Slot} {next : System} (connection : Connection)
      (found : system.server.table.slot? fd = some slot)
      (lent : slot.custody = .worker ∨ slot.custody = .closing)
      (same : next.server.ledger = (system.server.putSlot fd { slot with connection }).ledger)
      (place : next.place = system.place) : Moves system next
  /-- A connection was accepted and has its socket. -/
  | takesIn {fd : Fd} {peer : Address} {before : Server} {next : System}
      (takesIn : Server.TakesIn before fd peer next.server)
      (same : before.ledger = system.server.ledger)
      (idle : system.place.expired = []) (place : next.place = system.place) : Moves system next
  /-- The event of a connection is handled. -/
  | handles {fd : Fd} {readiness : Readiness} {next : System}
      (handles : Server.Handles system.server fd readiness next.server)
      (idle : system.place.expired = []) (place : next.place.expired = []) : Moves system next
  /-- A completion is acted on. -/
  | settles {done : Completion} {next : System}
      (settles : Server.Settles system.server done next.server)
      (idle : system.place.expired = []) (place : next.place.expired = []) : Moves system next
  /-- Timers fire. -/
  | sweeps {next : System} (same : next.server = system.server.beginSweep.2)
      (idle : system.place.expired = [])
      (place : next.place = .sweeping system.server.beginSweep.1) : Moves system next
  /-- A timer that has fired is acted on. -/
  | evicts {fd : Fd} {generation : Nat} {rest : List (Fd × Nat)} {next : System}
      (position : system.place = .sweeping ((fd, generation) :: rest))
      (evicts : Server.Evicts system.server fd generation next.server)
      (place : next.place = .sweeping rest) : Moves system next

variable {system next : System}

/-- Where a turn ends no timer is still to be acted on. -/
theorem expired_endTurn (system : System) : system.endTurn.place.expired = [] := by
  simp only [endTurn]
  split <;> rfl

theorem Moves.of_advances (owned : system.Owned) (advances : system.Advances next) :
    system.Moves next := by
  cases advances with
  | collect position | listen position | acceptNone position | acceptFails position =>
      exact .still rfl (by rw [position]; rfl)
  | acceptAgain => exact .still rfl rfl
  | @handle event events sweepDue due server position other handled =>
      cases event with
      | arrivals => exact (other rfl).elim
      | notices => exact .still (Server.ledger_notices handled) (by rw [position]; rfl)
      | ready fd readiness =>
          obtain ⟨-, acted⟩ := Server.handleReady_of_handle handled
          exact .handles (Server.handleReady_branch acted) (by rw [position]; rfl) rfl
  | accept position waiting taken =>
      have branch := Server.takeIn_cases taken
      exact .takesIn branch rfl (by rw [position]; rfl) rfl
  | @settle done rest sweepDue position =>
      have lent := owned.lent_of_settling position
      exact .settles (Server.handleCompletion_branch lent) (by rw [position]; rfl) rfl
  | beginSweep position => exact .sweeps rfl (by rw [position]; rfl) rfl
  | rest position =>
      exact .still rfl (by rw [position]; exact expired_endTurn system)
  | evict position => exact .evicts position (Server.evict_branch system.server _ _) rfl
  | endSweep position =>
      exact .still rfl (by rw [position]; exact expired_endTurn _)

/-- What workers do, and what happens outside, moves nothing but the connections that are
worked on. -/
theorem Moves.of_other (entrusted : system.Entrusted) {action : Action} (other : action ≠ .advance)
    (stepped : system.step? action = some next) : system.Moves next := by
  cases action with
  | advance => exact (other rfl).elim
  | outside circumstance =>
      cases stepped
      cases circumstance <;> exact .still rfl rfl
  | proceed worker =>
      simp only [System.step?, System.proceed?] at stepped
      split at stepped
      · cases stepped
        exact .still rfl rfl
      · cases stepped
  | perform worker =>
      obtain ⟨task, slot, busy, clear, found, rfl⟩ := perform?_eq_some stepped
      obtain ⟨connection, same⟩ := task.work_eq system.server.tree
        system.server.settings.docRoot slot
      refine .worked connection found (entrusted.lent busy found).2 ?_ rfl
      rw [← same]
      simp only [Server.ledger, Task.perform]
      split <;> rfl
  | report worker =>
      simp only [System.step?, System.report?] at stepped
      split at stepped
      · cases stepped
        exact .still rfl rfl
      · cases stepped
  | wake worker =>
      simp only [System.step?, System.wake?] at stepped
      split at stepped
      · cases stepped
        exact .still rfl rfl
      · cases stepped
  | deliver events =>
      simp only [System.step?, System.deliver?] at stepped
      split at stepped
      · next position =>
          cases stepped
          exact .still rfl (by rw [position]; rfl)
      · cases stepped

theorem Moves.of_step? (owned : system.Owned) {action : Action}
    (stepped : system.step? action = some next) : system.Moves next := by
  by_cases loops : action = .advance
  · subst loops
    exact .of_advances owned (.of_advance? stepped)
  · exact .of_other owned.entrusted loops stepped

end System

end FileServer
