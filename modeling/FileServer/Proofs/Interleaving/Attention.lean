import FileServer.Proofs.Interleaving.Branches
import FileServer.Proofs.Interleaving.Errands
import FileServer.Proofs.Interleaving.Lawful

/-!
# No connection is forgotten

An event disarms the descriptor that it is for, so each branch of each handler has
to arm it again, hand the connection over, or close it.  A connection is attended
to when the loop has it and it is armed for what it needs, or when it is lent and
silent.  In the middle of a batch there is one exception for each event that is
still to be handled: its descriptor is silent though the loop has the connection.
Such a descriptor is called.

What a connection needs is told by its counters: to send while there is an answer
to send, else to receive into what is left of its buffer.  That the completion of
a worker asks for the right one of these is what errands are about.
-/

namespace FileServer

namespace Connection

/-- What a connection with the loop has to wait for. -/
def awaited (connection : Connection) : Interest :=
  if connection.isAnswering then .writable else .readable

/-- A connection that is to receive has room for it. -/
def Receptive (connection : Connection) : Prop :=
  connection.isAnswering = false → connection.input.used < inputCapacity

theorem awaited_of_answering {connection : Connection} (answering : connection.isAnswering = true) :
    connection.awaited = .writable := by
  simp [awaited, answering]

theorem awaited_of_unanswered {connection : Connection}
    (unanswered : connection.isAnswering = false) : connection.awaited = .readable := by
  simp [awaited, unanswered]

theorem isAnswering_reset (connection : Connection) : connection.reset.isAnswering = false := rfl

theorem receptive_reset (connection : Connection) : connection.reset.Receptive := by
  intro _
  exact Nat.zero_lt_succ _

theorem receptive_of_answering {connection : Connection}
    (answering : connection.isAnswering = true) : connection.Receptive := by
  intro unanswered
  simp [answering] at unanswered

/-- An answer that is to be continued is not complete. -/
theorem Transmission.isAnswering_of_again {before after : Connection} {outcome : Written}
    {taken : Bytes} (sent : Transmission before outcome after taken) (again : outcome = .again)
    (answering : before.isAnswering = true) : after.isAnswering = true := by
  induction sent with
  | again => exact answering
  | gaveUp => cases again
  | @finished connection next outcome taken _ _ advanced =>
      rcases advance_cases connection taken.length with ⟨-, goesOn⟩ | ⟨-, ⟨-, kept⟩ | ⟨-, last⟩⟩
      · cases advanced.symm.trans goesOn
      · cases advanced.symm.trans kept
        cases again
      · cases advanced.symm.trans last
        cases again
  | @goesOn connection next last outcome taken more _ _ advanced _ ih =>
      rcases advance_cases connection taken.length with ⟨short, goesOn⟩ | ⟨-, ⟨-, kept⟩ | ⟨-, ends⟩⟩
      · cases advanced.symm.trans goesOn
        exact ih again (decide_eq_true short)
      · cases advanced.symm.trans kept
      · cases advanced.symm.trans ends

/-- A connection that is kept alive has started over. -/
theorem Transmission.reset_of_keepAlive {before after : Connection} {outcome : Written}
    {taken : Bytes} (sent : Transmission before outcome after taken)
    (kept : outcome = .keepAlive) : ∃ last : Connection, after = last.reset := by
  induction sent with
  | again => cases kept
  | gaveUp => cases kept
  | @finished connection next outcome taken _ _ advanced =>
      rcases advance_cases connection taken.length with ⟨-, goesOn⟩ | ⟨-, ⟨-, ends⟩ | ⟨-, last⟩⟩
      · cases advanced.symm.trans goesOn
      · cases advanced.symm.trans ends
        exact ⟨connection, rfl⟩
      · cases advanced.symm.trans last
        cases kept
  | goesOn _ _ _ _ ih => exact ih kept

/-- After a call that sends, the connection needs what the outcome says. -/
theorem write_outcome {connection next : Connection} {socket after : Socket} {outcome : Written}
    (written : connection.write socket = (outcome, next, after))
    (answering : connection.isAnswering = true) :
    (outcome = .again → next.isAnswering = true) ∧
      (outcome = .keepAlive → ∃ last : Connection, next = last.reset) := by
  have waiting : connection.toSend ≠ 0 := by
    simp only [isAnswering, decide_eq_true_eq] at answering
    omega
  rcases write_cases written with ⟨-, rfl, -⟩ | ⟨idle, -⟩ | ⟨-, -, taken, sent, -⟩
  · constructor <;> intro wrong <;> cases wrong
  · exact (waiting idle).elim
  · exact ⟨fun again => sent.isAnswering_of_again again answering, sent.reset_of_keepAlive⟩

end Connection

namespace Server

variable {server next : Server} {fd : Fd}

/-- The loop waits for what a connection with it needs, and for nothing of a lent
one. -/
structure Attended (server : Server) (fd : Fd) : Prop where
  armed : ∀ slot, server.table.slot? fd = some slot → slot.custody = .loop →
    server.kernel.registrations.find? fd = some (.armed slot.connection.awaited) ∧
      slot.connection.Receptive
  silent : server.table.lent fd ≠ none → server.kernel.registrations.find? fd = some .silent

/-- An event was delivered that is still to be handled.  It tells what the
connection needs, if the loop has one. -/
structure Called (server : Server) (fd : Fd) (readiness : Readiness) : Prop where
  silent : server.kernel.registrations.find? fd = some .silent
  unlent : server.table.lent fd = none
  tells : ∀ slot, server.table.slot? fd = some slot → slot.custody = .loop →
    readiness.tells slot.connection.awaited = true ∧ slot.connection.Receptive

/-! ## Attention -/

theorem attended_of_free (unused : server.table.custody fd = .free) : server.Attended fd where
  armed slot found held := by
    rw [Slots.custody_of_slot? found, held] at unused
    cases unused
  silent lent := (lent (Slots.lent_of_free unused)).elim

theorem attended_of_lent {task : Task} (lent : server.table.lent fd = some task)
    (silent : server.kernel.registrations.find? fd = some .silent) : server.Attended fd where
  armed slot found held := by
    rw [Slots.lent_of_loop ((Slots.custody_of_slot? found).trans held)] at lent
    cases lent
  silent _ := silent

theorem Attended.of_same (attended : server.Attended fd)
    (slot : next.table.slot? fd = server.table.slot? fd)
    (registration : next.kernel.registrations.find? fd = server.kernel.registrations.find? fd) :
    next.Attended fd where
  armed held found custody := by
    rw [registration]
    exact attended.armed held (slot ▸ found) custody
  silent lent := by
    rw [registration]
    apply attended.silent
    rwa [Slots.lent, ← slot]

theorem Called.of_same {readiness : Readiness} (called : server.Called fd readiness)
    (slot : next.table.slot? fd = server.table.slot? fd)
    (registration : next.kernel.registrations.find? fd = server.kernel.registrations.find? fd) :
    next.Called fd readiness where
  silent := registration.trans called.silent
  unlent := by rw [Slots.lent, slot, ← Slots.lent, called.unlent]
  tells held found custody := called.tells held (slot ▸ found) custody

/-- Arming again is attention, also where it fails. -/
theorem attended_rearm {slot : Slot} {interest : Interest}
    (found : server.table.slot? fd = some slot) (receptive : slot.connection.Receptive)
    (awaited : slot.connection.awaited = interest) (held : slot.custody = .loop) :
    (server.rearm fd interest).Attended fd := by
  simp only [rearm]
  split
  · next kernel armed =>
      simp only [Kernel.rearm?] at armed
      split at armed
      · cases armed
      · cases armed
        constructor
        · intro present again _
          cases found.symm.trans again
          rw [awaited]
          exact ⟨FdMap.find?_insert_self _ _ _, receptive⟩
        · intro lent
          exact (lent (Slots.lent_of_loop ((Slots.custody_of_slot? found).trans held))).elim
  · exact attended_of_free (custody_closeNow server fd)

/-- A connection that is closed, now or later, is attended to. -/
theorem Parts.attended (parts : Parts server fd next) (attended : server.Attended fd) :
    next.Attended fd := by
  cases parts with
  | absent => exact attended
  | now => exact attended_of_free (custody_closeNow server fd)
  | @later slot found lent =>
      have before : server.table.lent fd = some ⟨fd, slot.generation⟩ := by
        rcases lent with custody | custody <;> simp [Slots.lent_of_slot? found, Slot.task?, custody]
      have after : (server.putSlot fd { slot with custody := .closing }).table.lent fd =
          some ⟨fd, slot.generation⟩ :=
        Slots.lent_of_slot? (Slots.slot?_set_of_slot? found _)
      exact attended_of_lent after (attended.silent (by simp [before]))

/-! ## Calls -/

variable {readiness : Readiness}

/-- What the loop does not have and what is not lent is not there. -/
theorem Called.custody_free (called : server.Called fd readiness)
    (elsewhere : server.table.custody fd ≠ .loop) : server.table.custody fd = .free := by
  have unlent := called.unlent
  cases found : server.table.slot? fd with
  | none => simp [Slots.custody, found]
  | some slot =>
      rw [Slots.custody_of_slot? found] at elsewhere ⊢
      rw [Slots.lent_of_slot? found] at unlent
      cases custody : slot.custody <;> simp_all [Slot.task?]

/-- A readable connection is not answering. -/
theorem Called.unanswered (called : server.Called fd readiness)
    (readable : readiness.readable = true) {slot : Slot}
    (found : server.table.slot? fd = some slot) (held : slot.custody = .loop) :
    slot.connection.isAnswering = false := by
  have tells := (called.tells slot found held).1
  cases answering : slot.connection.isAnswering with
  | false => rfl
  | true => simp [Readiness.tells, readable, Connection.awaited_of_answering answering] at tells

/-- A writable connection is answering. -/
theorem Called.answering (called : server.Called fd readiness)
    (writable : readiness.writable = true) {slot : Slot}
    (found : server.table.slot? fd = some slot) (held : slot.custody = .loop) :
    slot.connection.isAnswering = true := by
  have tells := (called.tells slot found held).1
  cases answering : slot.connection.isAnswering with
  | true => rfl
  | false => simp [Readiness.tells, writable, Connection.awaited_of_unanswered answering] at tells

/-- Reading lends the connection or closes it. -/
theorem Called.attended_reads (called : server.Called fd readiness) (reads : Reads server fd next) :
    next.Attended fd := by
  cases reads with
  | absent elsewhere => exact attended_of_free (called.custody_free elsewhere)
  | failed => exact attended_of_free (custody_closeNow _ fd)
  | rejected => exact attended_of_free (custody_closeNow _ fd)
  | @lent slot count connection socket refreshed pool found held received timed =>
      obtain ⟨timers, timerIds, rfl⟩ := refreshTimer_eq timed
      have kept := slot?_keep found connection socket
      have lent : (((server.keep fd slot connection socket).putSlot fd
          { slot with connection, custody := .worker }).table).lent fd =
            some ⟨fd, slot.generation⟩ :=
        Slots.lent_of_slot? (Slots.slot?_set_of_slot? kept _)
      exact attended_of_lent lent called.silent

/-- Writing arms the connection again or closes it. -/
theorem Called.attended_writes (called : server.Called fd readiness)
    (writable : readiness.writable = true) (writes : Writes server fd next) :
    next.Attended fd := by
  cases writes with
  | absent elsewhere => exact attended_of_free (called.custody_free elsewhere)
  | close => exact attended_of_free (custody_closeNow _ fd)
  | failed => exact attended_of_free (custody_closeNow _ fd)
  | @again slot connection socket refreshed found held sent timed =>
      have answering := (Connection.write_outcome sent
        (called.answering writable found held)).1 rfl
      obtain ⟨timers, timerIds, rfl⟩ := refreshTimer_eq timed
      exact attended_rearm (slot?_keep found connection socket)
        (Connection.receptive_of_answering answering)
        (Connection.awaited_of_answering answering) held
  | @keepAlive slot connection socket refreshed found held sent timed =>
      obtain ⟨last, rfl⟩ := (Connection.write_outcome sent
        (called.answering writable found held)).2 rfl
      obtain ⟨timers, timerIds, rfl⟩ := refreshTimer_eq timed
      exact attended_rearm (slot?_keep found last.reset socket) last.receptive_reset
        (Connection.awaited_of_unanswered last.isAnswering_reset) held

/-- After its event is handled, a descriptor is attended to. -/
theorem Called.attended (called : server.Called fd readiness)
    (handles : Handles server fd readiness next) : next.Attended fd := by
  cases handles with
  | hangup hung parts =>
      cases parts with
      | absent unused => exact attended_of_free unused
      | now => exact attended_of_free (custody_closeNow server fd)
      | later found lent =>
          have unlent := called.unlent
          rcases lent with custody | custody <;>
            simp [Slots.lent_of_slot? found, Slot.task?, custody] at unlent
  | readable ready reads => exact called.attended_reads reads
  | writable ready writes => exact called.attended_writes ready writes
  | nothing hung unreadable unwritable =>
      apply attended_of_free
      apply called.custody_free
      intro held
      cases found : server.table.slot? fd with
      | none => simp [Slots.custody, found] at held
      | some slot =>
          rw [Slots.custody_of_slot? found] at held
          have tells := (called.tells slot found held).1
          simp [Readiness.tells, hung, unreadable, unwritable] at tells

theorem lent_closeNow (server : Server) (fd : Fd) : (server.closeNow fd).table.lent fd = none :=
  Slots.lent_of_free (custody_closeNow server fd)

theorem lent_rearm {slot : Slot} (found : server.table.slot? fd = some slot)
    (held : slot.custody = .loop) (interest : Interest) :
    (server.rearm fd interest).table.lent fd = none := by
  rcases custody_rearm server fd interest with same | closed
  · exact Slots.lent_of_loop (same.trans ((Slots.custody_of_slot? found).trans held))
  · exact Slots.lent_of_free closed

/-- A connection is handed over after reading alone, and has no answer under way
then. -/
theorem Called.unanswered_of_lent (called : server.Called fd readiness)
    (handles : Handles server fd readiness next) (lent : next.table.lent fd ≠ none) {slot : Slot}
    (found : next.table.slot? fd = some slot) : slot.connection.isAnswering = false := by
  cases handles with
  | nothing => exact (lent called.unlent).elim
  | hangup _ parts =>
      cases parts with
      | absent => exact (lent called.unlent).elim
      | now => exact (lent (lent_closeNow server fd)).elim
      | later present custody =>
          have unlent := called.unlent
          rcases custody with custody | custody <;>
            simp [Slots.lent_of_slot? present, Slot.task?, custody] at unlent
  | writable _ writes =>
      cases writes with
      | absent => exact (lent called.unlent).elim
      | close | failed => exact (lent (lent_closeNow _ fd)).elim
      | again present held _ timed =>
          have kept := (slot?_refreshTimer timed).trans (slot?_keep present _ _)
          exact (lent (lent_rearm kept held .writable)).elim
      | @keepAlive _ connection socket _ present held _ timed =>
          have kept := (slot?_refreshTimer timed).trans (slot?_keep present connection socket)
          exact (lent (lent_rearm kept held .readable)).elim
  | readable ready reads =>
      cases reads with
      | absent => exact (lent called.unlent).elim
      | failed | rejected => exact (lent (lent_closeNow _ fd)).elim
      | @lent held count connection socket refreshed pool present custody received timed =>
          obtain ⟨timers, timerIds, rfl⟩ := refreshTimer_eq timed
          have kept := slot?_keep present connection socket
          have after : ((server.keep fd held connection socket).putSlot fd
              { held with connection, custody := .worker }).table.slot? fd = some slot := found
          rw [putSlot, Slots.slot?_set_of_slot? kept, Option.some.injEq] at after
          have unanswered := called.unanswered ready present custody
          obtain ⟨input, same⟩ := held.connection.read_eq (server.kernel.socket fd)
          rw [received] at same
          dsimp only at same
          rw [← after, same]
          exact unanswered

/-! ## New connections, completions, evictions -/

/-- A new connection waits for its first request. -/
theorem attended_watched {slot : Slot} {peer : Address} {kernel : Kernel}
    (generation deadline : Nat) (found : server.table.slot? fd = some (slot.opened peer))
    (registered : server.kernel.register? fd .readable = some kernel) :
    (server.watched fd generation deadline kernel).Attended fd := by
  simp only [Kernel.register?] at registered
  split at registered
  · cases registered
  · cases registered
    constructor
    · intro present again _
      cases found.symm.trans again
      exact ⟨FdMap.find?_insert_self _ _ _, Connection.receptive_reset _⟩
    · intro lent
      exact (lent (Slots.lent_of_loop (Slots.custody_of_slot? found))).elim

/-- A connection that is taken in is armed. -/
theorem TakesIn.attended {peer : Address} (takesIn : TakesIn server fd peer next)
    (attended : server.Attended fd) : next.Attended fd := by
  cases takesIn with
  | busy | dropped => exact attended.of_same rfl rfl
  | unwatched => exact attended_of_free (custody_release _ fd)
  | watched room opened registered =>
      obtain ⟨inside, -, -, -, rfl⟩ := Slots.open?_cases opened
      exact attended_watched _ _ (Slots.slot?_set_self inside _) registered

/-- No connection is taken in with a number that has an event to be handled, since
that is registered and so has one. -/
theorem TakesIn.called {peer : Address} (takesIn : TakesIn server fd peer next)
    (unregistered : server.table.custody fd = .free → server.kernel.registrations.find? fd = none)
    (called : server.Called fd readiness) : next.Called fd readiness := by
  cases takesIn with
  | busy | dropped => exact called.of_same rfl rfl
  | unwatched opened | watched _ opened =>
      have absent := unregistered (Slots.open?_cases opened).2.1
      cases called.silent.symm.trans absent

/-- A connection that is taken in is not lent; if none is, the table stays as it
was. -/
theorem TakesIn.unlent {peer : Address} (takesIn : TakesIn server fd peer next) :
    next.table.lent fd = none ∨ next.table = server.table := by
  cases takesIn with
  | busy | dropped => exact .inr rfl
  | unwatched => exact .inl (Slots.lent_of_free (custody_release _ fd))
  | watched room opened registered =>
      obtain ⟨inside, -, -, -, rfl⟩ := Slots.open?_cases opened
      have found := Slots.slot?_set_self inside ((server.table.vacancy fd).opened peer)
      exact .inl (Slots.lent_of_loop (Slots.custody_of_slot? found))

/-- A connection that comes back waits for what its completion asks for. -/
theorem Settles.attended {done : Completion} (settles : Settles server done next)
    (fits : ∀ slot, server.table.slot? done.fd = some slot →
      slot.connection.Fits (some done.outcome)) : next.Attended done.fd := by
  cases settles with
  | deferred => exact attended_of_free (custody_closeNow server done.fd)
  | @returned slot found current lent =>
      have fit := fits slot found
      have back := Slots.slot?_set_of_slot? found { slot with custody := .loop }
      cases outcome : done.outcome with
      | close => exact attended_of_free (custody_closeNow _ done.fd)
      | needMore =>
          rw [outcome] at fit
          obtain ⟨unanswered, room⟩ := fit
          exact attended_rearm back (fun _ => room)
            (Connection.awaited_of_unanswered unanswered) rfl
      | respond =>
          rw [outcome] at fit
          exact attended_rearm back (Connection.receptive_of_answering fit)
            (Connection.awaited_of_answering fit) rfl

theorem Evicts.attended {generation : Nat} (evicts : Evicts server fd generation next)
    (attended : server.Attended fd) : next.Attended fd := by
  cases evicts with
  | stale => exact attended.of_same rfl rfl
  | counted found current parts => exact parts.attended (attended.of_same rfl rfl)

end Server

end FileServer
