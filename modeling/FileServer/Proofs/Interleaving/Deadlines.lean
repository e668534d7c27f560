import FileServer.Proofs.Interleaving.Clocks

/-!
# Deadlines of connections

A handler reads the clock when it accepts a connection, when it has received from it, and
when it has sent to it and the connection stays.  Then, and at no other time, a deadline is
set, and it is the only one that its descriptor has.  Whatever else a handler does, the
deadlines that are left were there before.
-/

namespace FileServer

/-- How long a connection may be idle, in milliseconds. -/
def Settings.idleWindow (settings : Settings) : Nat :=
  3 * settings.timeslot * 1000

namespace Timers

variable {fd : Fd} {active : Option Nat} {deadline : Nat} {before middle after : Timers (Fd × Nat)}

/-- Where a descriptor has deadlines from.  After an activity of one of its connections
there is that of this activity at most; otherwise all were there before. -/
def Redates (fd : Fd) (active : Option Nat) (deadline : Nat) (before after : Timers (Fd × Nat)) :
    Prop :=
  ∀ generation moment, after.Pends (fd, generation) moment →
    active = some generation ∧ moment = deadline ∨
      active = none ∧ before.Pends (fd, generation) moment

/-- A connection of one descriptor was active, if any. -/
structure RedatesOnly (fd : Fd) (active : Option Nat) (deadline : Nat)
    (before after : Timers (Fd × Nat)) : Prop where
  own : Redates fd active deadline before after
  others : ∀ other, other ≠ fd → Redates other none deadline before after

theorem Wanes.redates (wanes : Wanes before after) (fd : Fd) (deadline : Nat) :
    Redates fd none deadline before after :=
  fun generation moment pends => .inr ⟨rfl, wanes (fd, generation) moment pends⟩

theorem Wanes.redatesOnly (wanes : Wanes before after) (fd : Fd) (deadline : Nat) :
    RedatesOnly fd none deadline before after :=
  ⟨wanes.redates fd deadline, fun other _ => wanes.redates other deadline⟩

theorem Redates.wane (redates : Redates fd active deadline before middle)
    (wanes : Wanes middle after) : Redates fd active deadline before after :=
  fun generation moment pends =>
    redates generation moment (wanes (fd, generation) moment pends)

theorem RedatesOnly.wane (redates : RedatesOnly fd active deadline before middle)
    (wanes : Wanes middle after) : RedatesOnly fd active deadline before after :=
  ⟨redates.own.wane wanes, fun other differ => (redates.others other differ).wane wanes⟩

end Timers

namespace Server

open Ledger Timers

variable {server next : Server} {fd : Fd}

/-! ## Operations -/

theorem wanes_dropTimer (sound : server.timers.Sound) (fd : Fd) :
    Wanes server.timers (server.dropTimer fd).timers := by
  simp only [dropTimer]
  split
  · exact sound.wanes_delete _
  · exact .refl server.timers

theorem timers_release (server : Server) (fd : Fd) :
    (server.release fd).timers = server.timers :=
  congrArg Ledger.timers (ledger_release server fd)

theorem timers_closeNow (used : server.table.custody fd ≠ .free) :
    (server.closeNow fd).timers = (server.dropTimer fd).timers :=
  congrArg Ledger.timers (ledger_closeNow used)

theorem wanes_closeNow (sound : server.timers.Sound) (fd : Fd) :
    Wanes server.timers (server.closeNow fd).timers := by
  by_cases unused : server.table.custody fd = .free
  · rw [closeNow, if_pos unused]
    exact .refl server.timers
  · rw [timers_closeNow unused]
    exact wanes_dropTimer sound fd

theorem wanes_rearm (sound : server.timers.Sound) (fd : Fd) (interest : Interest) :
    Wanes server.timers (server.rearm fd interest).timers := by
  simp only [rearm]
  split
  · exact .refl server.timers
  · exact wanes_closeNow sound fd

/-- A new timer of a descriptor that has none is the only one. -/
theorem redates_startTimer (sound : server.timers.Sound) (untimed : server.ledger.Untimed fd)
    (generation deadline : Nat) :
    RedatesOnly fd (some generation) deadline server.timers
      (server.startTimer fd generation deadline).timers := by
  obtain ⟨⟨id, timers⟩, added⟩ :
      ∃ result, server.timers.add deadline (fd, generation) = result := ⟨_, rfl⟩
  obtain ⟨-, -, own, others⟩ := sound.pending?_add deadline (fd, generation) added
  simp only [startTimer, added]
  constructor
  · rintro held moment ⟨name, present⟩
    by_cases mine : name = id
    · subst mine
      cases own.symm.trans present
      exact .inl ⟨rfl, rfl⟩
    · rw [others name mine] at present
      exact (untimed.absent name held (get?_of_pending? present)).elim
  · rintro other differ held moment ⟨name, present⟩
    have apart : name ≠ id := by
      rintro rfl
      cases own.symm.trans present
      exact differ rfl
    rw [others name apart] at present
    exact .inr ⟨rfl, name, present⟩

/-- A connection that the loop has gets its deadline from its last activity. -/
theorem redates_refreshTimer {slot : Slot} (sound : server.timers.Sound)
    (timed : server.ledger.Timed fd) (found : server.table.slot? fd = some slot)
    (held : slot.custody = .loop) (refreshed : server.refreshTimer fd slot.generation = .ok next) :
    next.timers.Sound ∧ RedatesOnly fd (some slot.generation)
      (server.kernel.now + server.settings.idleWindow) server.timers next.timers := by
  have custody := (Slots.custody_of_slot? found).trans held
  obtain ⟨id, known⟩ := Option.ne_none_iff_exists'.1 (timed.clocked (.inl custody))
  obtain ⟨generation, present⟩ := timed.named.known id known
  obtain ⟨current, here, same, -⟩ := timed.occupied id generation present
  cases found.symm.trans here
  subst same
  change server.timerIds.find? fd = some id at known
  change server.timers.get? id = some (fd, slot.generation) at present
  simp only [refreshTimer, known, present, ↓reduceIte] at refreshed
  split at refreshed
  · cases refreshed
  · next deadline within =>
      cases refreshed
      have due : deadline = server.kernel.now + server.settings.idleWindow :=
        Deadline.ofActivity_eq_ok within
      obtain ⟨kept, own, others⟩ := sound.pending?_adjust id deadline
      obtain ⟨old, entry⟩ := exists_pending?_of_get? present
      rw [entry, Option.map_some] at own
      refine ⟨kept, ?_, ?_⟩
      · rintro held moment ⟨name, waits⟩
        by_cases mine : name = id
        · subst mine
          cases own.symm.trans waits
          exact .inl ⟨rfl, due⟩
        · -- Any other identifier with this descriptor would be known as its timer too.
          rw [others name mine] at waits
          cases known.symm.trans (timed.named.own name held (get?_of_pending? waits))
          exact (mine rfl).elim
      · rintro other differ held moment ⟨name, waits⟩
        have apart : name ≠ id := by
          rintro rfl
          cases own.symm.trans waits
          exact differ rfl
        rw [others name apart] at waits
        exact .inr ⟨rfl, name, waits⟩

/-! ## Handlers -/

/-- The generation of the connection of a descriptor, if something can be received from
it. -/
def receives? (server : Server) (fd : Fd) : Option Nat :=
  match server.table.slot? fd with
  | some slot =>
      match (slot.connection.read (server.kernel.socket fd)).1 with
      | .ok _ => some slot.generation
      | .error _ => none
  | none => none

/-- The generation of the connection of a descriptor, if it can be sent to and stays. -/
def sends? (server : Server) (fd : Fd) : Option Nat :=
  match server.table.slot? fd with
  | some slot =>
      match (slot.connection.write (server.kernel.socket fd)).1 with
      | .again | .keepAlive => some slot.generation
      | .close | .failed => none
  | none => none

/-- The generation of the connection of a descriptor, if it was accepted: the loop has it,
and before nobody had one. -/
def accepts? (before after : Server) (fd : Fd) : Option Nat :=
  match before.table.custody fd, after.table.slot? fd with
  | .free, some slot => if slot.custody = .loop then some slot.generation else none
  | _, _ => none

theorem accepts?_eq_none {before after : Server}
    (kept : before.table.custody fd = .free → after.table.custody fd ≠ .loop) :
    before.accepts? after fd = none := by
  simp only [accepts?]
  split
  · next slot unused found =>
      rw [Slots.custody_of_slot? found] at kept
      exact if_neg (kept unused)
  · rfl

theorem accepts?_of_same {before after : Server}
    (same : after.table.slot? fd = before.table.slot? fd) : before.accepts? after fd = none := by
  apply accepts?_eq_none
  rw [Slots.custody, Slots.custody, same]
  intro unused held
  cases unused.symm.trans held

theorem accepts?_eq_some {before after : Server} {slot : Slot}
    (unused : before.table.custody fd = .free) (found : after.table.slot? fd = some slot)
    (held : slot.custody = .loop) : before.accepts? after fd = some slot.generation := by
  simp only [accepts?, unused, found, held, ↓reduceIte]

/-- Receiving from a connection is an activity unless it fails. -/
theorem Reads.redates (reads : Reads server fd next) (sound : server.timers.Sound)
    (timed : server.ledger.Timed fd) (held : server.table.custody fd = .loop) :
    RedatesOnly fd (server.receives? fd) (server.kernel.now + server.settings.idleWindow)
      server.timers next.timers := by
  cases reads with
  | absent elsewhere => exact (elsewhere held).elim
  | @failed slot kind connection socket found held received =>
      have silent : server.receives? fd = none := by simp only [receives?, found, received]
      rw [silent]
      have wanes := @wanes_closeNow (server.keep fd slot connection socket) sound fd
      exact wanes.redatesOnly fd _
  | @lent slot count connection socket refreshed pool found held received refreshes =>
      have active : server.receives? fd = some slot.generation := by
        simp only [receives?, found, received]
      obtain ⟨-, timedToo⟩ := adds_keepsTime.keep found held connection socket sound timed
      rw [active]
      exact (redates_refreshTimer (by exact sound) timedToo (slot?_keep found connection socket)
        held refreshes).2
  | @rejected slot count connection socket refreshed found held received refreshes =>
      have active : server.receives? fd = some slot.generation := by
        simp only [receives?, found, received]
      obtain ⟨-, timedToo⟩ := adds_keepsTime.keep found held connection socket sound timed
      obtain ⟨kept, redates⟩ := redates_refreshTimer (by exact sound) timedToo
        (slot?_keep found connection socket) held refreshes
      rw [active]
      exact redates.wane (wanes_closeNow (by exact kept) fd)

/-- Sending to a connection is an activity if it stays. -/
theorem Writes.redates (writes : Writes server fd next) (sound : server.timers.Sound)
    (timed : server.ledger.Timed fd) (held : server.table.custody fd = .loop) :
    RedatesOnly fd (server.sends? fd) (server.kernel.now + server.settings.idleWindow)
      server.timers next.timers := by
  cases writes with
  | absent elsewhere => exact (elsewhere held).elim
  | @again slot connection socket refreshed found held sent refreshes =>
      have active : server.sends? fd = some slot.generation := by simp only [sends?, found, sent]
      obtain ⟨-, timedToo⟩ := adds_keepsTime.keep found held connection socket sound timed
      obtain ⟨kept, redates⟩ := redates_refreshTimer (by exact sound) timedToo
        (slot?_keep found connection socket) held refreshes
      rw [active]
      exact redates.wane (wanes_rearm kept fd .writable)
  | @keepAlive slot connection socket refreshed found held sent refreshes =>
      have active : server.sends? fd = some slot.generation := by simp only [sends?, found, sent]
      obtain ⟨-, timedToo⟩ := adds_keepsTime.keep found held connection socket sound timed
      obtain ⟨kept, redates⟩ := @redates_refreshTimer
        ((server.keep fd slot connection socket).record fun counters =>
          counters.countBytes slot.connection.toSend) refreshed fd { slot with connection }
        sound timedToo (slot?_keep found connection socket) held refreshes
      rw [active]
      exact redates.wane (wanes_rearm kept fd .readable)
  | @close slot connection socket found held sent =>
      have last : server.sends? fd = none := by simp only [sends?, found, sent]
      rw [last]
      have wanes := @wanes_closeNow ((server.keep fd slot connection socket).record fun counters =>
        counters.countBytes slot.connection.toSend) sound fd
      exact wanes.redatesOnly fd _
  | @failed slot connection socket found held sent =>
      have last : server.sends? fd = none := by simp only [sends?, found, sent]
      rw [last]
      have wanes := @wanes_closeNow (server.keep fd slot connection socket) sound fd
      exact wanes.redatesOnly fd _

/-- Closing, now or later, sets no deadline. -/
theorem Parts.wanes (parts : Parts server fd next) (sound : server.timers.Sound) :
    Wanes server.timers next.timers := by
  cases parts with
  | absent | later => exact .refl server.timers
  | now => exact wanes_closeNow sound fd

theorem Settles.wanes {done : Completion} (settles : Settles server done next)
    (sound : server.timers.Sound) : Wanes server.timers next.timers := by
  cases settles with
  | deferred => exact wanes_closeNow sound done.fd
  | @returned slot =>
      have soundToo : (server.putSlot done.fd { slot with custody := .loop }).timers.Sound := sound
      cases done.outcome with
      | needMore | respond => exact wanes_rearm soundToo done.fd _
      | close => exact wanes_closeNow soundToo done.fd

/-- Who acts on a timer that has fired leaves all others as they are, for it is not known
any more. -/
theorem Evicts.timers_eq {generation : Nat} (evicts : Evicts server fd generation next) :
    next.timers = server.timers := by
  cases evicts with
  | stale => rfl
  | counted found current parts =>
      cases parts with
      | absent | later => rfl
      | now held =>
          have unknown : ((server.forgetTimer fd).record Counters.countEviction).timerIds.find? fd =
              none := FdMap.find?_erase_self _ _
          rw [timers_closeNow (by simp [held]), dropTimer, unknown]
          rfl

/-- A connection that is accepted gets its deadline then. -/
theorem TakesIn.redates {peer : Address} (takesIn : TakesIn server fd peer next)
    (sound : server.timers.Sound) (timed : server.ledger.Timed fd) :
    RedatesOnly fd (server.accepts? next fd) (server.kernel.now + server.settings.idleWindow)
      server.timers next.timers := by
  cases takesIn with
  | busy =>
      have silent : server.accepts? (server.turnAway fd) fd = none := accepts?_of_same rfl
      rw [silent]
      exact (Wanes.refl server.timers).redatesOnly fd _
  | dropped =>
      have silent : server.accepts? (server.dropSocket fd) fd = none := accepts?_of_same rfl
      rw [silent]
      exact (Wanes.refl server.timers).redatesOnly fd _
  | @unwatched generation table opened refused =>
      have free := custody_release { server with table } fd
      have silent : server.accepts? (Server.release { server with table } fd) fd = none :=
        accepts?_eq_none fun _ held => nomatch free.symm.trans held
      have wanes : Wanes server.timers (Server.release { server with table } fd).timers := by
        rw [timers_release]
        exact .refl server.timers
      rw [silent]
      exact wanes.redatesOnly fd _
  | @watched generation deadline table kernel room opened registered within =>
      obtain ⟨inside, unused, -, counted, rfl⟩ := Slots.open?_cases opened
      have untimed := timed.untimed unused
      have here := Slots.slot?_set_self inside ((server.table.vacancy fd).opened peer)
      have active : server.accepts? (Server.watched { server with
          table := server.table.set fd ((server.table.vacancy fd).opened peer) } fd generation
            deadline kernel) fd = some generation :=
        (accepts?_eq_some unused here rfl).trans (congrArg some counted.symm)
      have clock : kernel.now = server.kernel.now := by
        simp only [Kernel.register?] at registered
        split at registered
        · cases registered
        · cases registered
          rfl
      have due : deadline = server.kernel.now + server.settings.idleWindow := by
        rw [← clock]
        exact Deadline.ofActivity_eq_ok within
      rw [active, ← due]
      exact @redates_startTimer { server with
        table := server.table.set fd ((server.table.vacancy fd).opened peer), kernel,
        shared := server.shared.connectionOpened.record Counters.countAccept } fd sound
          ⟨untimed.unnamed, untimed.absent⟩ generation deadline

end Server

end FileServer
