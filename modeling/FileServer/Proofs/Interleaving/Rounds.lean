import FileServer.Proofs.Interleaving.Passages

/-!
# Calls come round in order

The connection of a descriptor goes through a session: the calls that loop and workers
make on it are the calls of the session.  What a call does in the session depends on the
connection and its socket alone, so the server makes no difference.

The calls also come in the order of the cycle, if the operating system tells only what
it was asked for.  A connection that the loop has waits for what its session is to do
next, and one that is lent is on an errand, whose progress says what is next.
-/

namespace FileServer

/-- The call that the loop makes when its wait is over. -/
def Interest.stroke : Interest → Stroke
  | .readable => .read
  | .writable => .write

/-- The call that is next while an errand is under way. -/
def Stroke.afterErrand : Option Processed → Option Stroke
  | none => some .process
  | some outcome => Stroke.afterProcess outcome

namespace System

variable {system next : System} {fd : Fd} {slot : Slot} {socket : Option Socket}
variable {action : Action} {session : Session}

/-! ## What a connection goes through -/

/-- The kernel hands out numbers that are not in use. -/
def HandsOutUnused : Rule
  | system, .advance => ∀ fd, system.incoming? = some fd → system.server.table.custody fd = .free
  | _, _ => True

/-- The connection of a descriptor is not closed. -/
def StaysOpen (fd : Fd) : Rule
  | system, _ => system.server.table.custody fd ≠ .free

instance decidableHandsOutUnused (system : System) :
    (action : Action) → Decidable (HandsOutUnused system action)
  | .advance => inferInstanceAs (Decidable (∀ fd, system.incoming? = some fd → _))
  | .outside _ | .proceed _ | .perform _ | .report _ | .wake _ | .deliver _ => .isTrue trivial

instance (fd : Fd) (system : System) (action : Action) : Decidable (StaysOpen fd system action) :=
  inferInstanceAs (Decidable (system.server.table.custody fd ≠ .free))

/-- The connection of a descriptor and its socket are those of a session, until the
connection is closed. -/
structure Plays (system : System) (fd : Fd) (session : Session) : Prop where
  socket : system.server.kernel.sockets.find? fd = some session.socket
  connection : system.server.table.custody fd ≠ .free →
    (system.server.table.vacancy fd).connection = session.connection

theorem plays_of_houses {session : Session}
    (houses : next.server.Houses fd slot (some session.socket))
    (connection : slot.custody ≠ .free → slot.connection = session.connection) :
    next.Plays fd session where
  socket := houses.socket
  connection used := by
    rw [houses.slot]
    exact connection (houses.custody ▸ used)

theorem Plays.step? (owned : system.Owned) (plays : system.Plays fd session)
    (used : system.server.table.custody fd ≠ .free) (unused : HandsOutUnused system action)
    (stepped : system.step? action = some next) :
    next.Plays fd (session.follow system.server.tree system.server.settings.docRoot
      (system.stimulus? fd action).toList) := by
  have passes := passes_of_step? owned stepped ⟨rfl, plays.socket⟩
  have same := plays.connection used
  have usedToo := used
  rw [← Slots.custody_vacancy] at usedToo
  generalize system.server.table.vacancy fd = slot at passes same usedToo
  generalize system.stimulus? fd action = stimulus at passes
  cases passes with
  | still houses => exact plays_of_houses houses fun _ => same
  | fed houses => exact plays_of_houses houses fun _ => same
  | handedOut advances incoming =>
      cases advances
      exact (used (unused fd incoming)).elim
  | deferred _ houses => exact plays_of_houses houses fun _ => same
  | returned _ _ _ houses => exact plays_of_houses houses fun _ => same
  | opened _ free => exact (usedToo free).elim
  | unwatched free => exact (usedToo free).elim
  | closed _ houses => exact plays_of_houses houses fun used => (used rfl).elim
  | received _ _ _ received houses =>
      rw [same] at received
      change next.Plays fd session.read
      rw [Session.read_eq received]
      exact plays_of_houses houses fun _ => rfl
  | receivedLast _ _ _ received houses =>
      rw [same] at received
      change next.Plays fd session.read
      rw [Session.read_eq received]
      exact plays_of_houses houses fun used => (used rfl).elim
  | worked _ _ houses =>
      rw [same] at houses
      exact plays_of_houses houses fun _ => rfl
  | sent _ _ _ written _ houses =>
      rw [same] at written
      change next.Plays fd session.write
      rw [Session.write_eq written]
      exact plays_of_houses houses fun _ => rfl
  | sentLast _ _ _ written houses =>
      rw [same] at written
      change next.Plays fd session.write
      rw [Session.write_eq written]
      exact plays_of_houses houses fun used => (used rfl).elim

/-- What is reported of a connection is what its session reports. -/
theorem Plays.outcomes (owned : system.Owned) (plays : system.Plays fd session)
    (used : system.server.table.custody fd ≠ .free) (stepped : system.step? action = some next) :
    (session.follow system.server.tree system.server.settings.docRoot
      (system.stimulus? fd action).toList).outcomes =
        session.outcomes ++ (system.outcome? fd action).toList := by
  have found : system.server.table.slot? fd = some (system.server.table.vacancy fd) :=
    Slots.slot?_of_vacancy rfl (by rwa [Slots.custody_vacancy])
  have same := plays.connection used
  cases action with
  | outside circumstance =>
      cases circumstance with
      | feed about =>
          simp only [stimulus?, outcome?]
          split <;> simp [Session.follow, Session.meet, Session.feed]
      | elapse | arrive | signal => simp [stimulus?, outcome?, Session.follow]
  | proceed | report | wake | deliver => simp [stimulus?, outcome?, Session.follow]
  | perform worker =>
      obtain ⟨task, held, busy, clear, there, -⟩ := perform?_eq_some stepped
      have errand : system.Errand task none := .held busy clear
      obtain ⟨lent, here, unit, -⟩ := Slots.slot?_of_lent (owned.lent_of_mem errand.unit)
      simp only [stimulus?, outcome?, busy, found]
      split
      · next mine =>
          subst mine
          cases found.symm.trans here
          rw [Task.work_eq_processed _ _ (congrArg Task.generation unit).symm, same]
          rfl
      · simp [Session.follow]
  | advance =>
      have leaves : system.stimulus? fd .advance ≠ some (.stroke .process) :=
        stimulus?_ne_process fd system (by simp)
      have socket : system.server.kernel.socket fd = session.socket := by
        rw [Kernel.socket, plays.socket]
        rfl
      simp only [outcome?, found, socket]
      generalize system.stimulus? fd .advance = stimulus at leaves
      cases stimulus with
      | none => exact (List.append_nil _).symm
      | some stimulus =>
          cases stimulus with
          | feed => exact (List.append_nil _).symm
          | stroke stroke =>
              cases stroke with
              | read => exact (List.append_nil _).symm
              | process => exact (leaves rfl).elim
              | write =>
                  dsimp only
                  rw [same]
                  rfl

/-! ## What is next -/

/-- What the server makes of a connection next is what is due in its session. -/
structure InTurn (system : System) (fd : Fd) (session : Session) : Prop where
  held : ∀ slot, system.server.table.slot? fd = some slot → slot.custody = .loop →
    session.due = some slot.connection.awaited.stroke
  lent : ∀ task progress, system.Errand task progress → task.fd = fd →
    session.due = Stroke.afterErrand progress

/-- What an event of the batch says of a descriptor is what was asked for. -/
theorem Attentive.called (attentive : system.Attentive) {readiness : Readiness}
    (asked : readiness ∈ system.calls fd) : system.server.Called fd readiness := by
  rcases attentive.minds fd with ⟨none, -⟩ | ⟨other, one, called⟩
  · rw [none] at asked
    cases asked
  · rw [one, List.mem_singleton] at asked
    rwa [asked]

/-- A call is made when it is due. -/
theorem InTurn.allows (inTurn : system.InTurn fd session) (attentive : system.Attentive)
    (found : system.server.table.slot? fd = some slot) {after : Server} {stimulus : Stimulus}
    (passes : Passes system fd slot socket action after (some stimulus)) :
    session.Allows stimulus := by
  cases passes with
  | fed => trivial
  | received asked ready held | receivedLast asked ready held =>
      have unanswered := (attentive.called asked).unanswered ready found held
      have due := inTurn.held slot found held
      rwa [Connection.awaited_of_unanswered unanswered] at due
  | worked errand => exact inTurn.lent _ _ errand rfl
  | sent asked ready held | sentLast asked ready held =>
      have answering := (attentive.called asked).answering ready found held
      have due := inTurn.held slot found held
      rwa [Connection.awaited_of_answering answering] at due

variable {after : Server} {stimulus : Option Stimulus}

/-- While a connection is lent, only the work on it changes what is next. -/
theorem Passes.due_of_lent (passes : Passes system fd slot socket action after stimulus)
    (lent : slot.custody ≠ .loop) (idle : stimulus ≠ some (.stroke .process)) (tree : FileTree)
    (root : Text) : (session.follow tree root stimulus.toList).due = session.due := by
  cases passes with
  | received _ _ held | receivedLast _ _ held | sent _ _ held | sentLast _ _ held =>
      exact (lent held).elim
  | worked => exact (idle rfl).elim
  | _ => rfl

/-- Where a connection is handed over, the work on it is next. -/
theorem Passes.due_of_handed (passes : Passes system fd slot socket action after stimulus)
    (unlent : slot.task? fd = none) (lent : after.table.lent fd ≠ none)
    (same : slot.connection = session.connection) (sockets : socket = some session.socket)
    (tree : FileTree) (root : Text) :
    (session.follow tree root stimulus.toList).due = some .process := by
  have lentSlot {held : Slot} {other : Option Socket} (houses : after.Houses fd held other) :
      held.task? fd ≠ none := houses.lent ▸ lent
  cases passes with
  | still houses | fed houses | handedOut _ _ houses => exact (lentSlot houses unlent).elim
  | opened _ _ houses => exact (lentSlot houses rfl).elim
  | unwatched _ houses | closed _ houses | receivedLast _ _ _ _ houses | sentLast _ _ _ _ houses =>
      exact (lentSlot houses rfl).elim
  | deferred custody | worked _ custody =>
      rcases custody with custody | custody <;> simp [Slot.task?, custody] at unlent
  | returned _ _ custody => simp [Slot.task?, custody] at unlent
  | sent _ _ held _ _ houses => exact (lentSlot houses (by simp [Slot.task?, held])).elim
  | received _ _ _ received =>
      rw [same, sockets] at received
      change session.read.due = _
      rw [Session.read_eq received]
      rfl

theorem InTurn.step? (inTurn : system.InTurn fd session) (plays : system.Plays fd session)
    (attentive : system.Attentive) (owned : system.Owned) (ownedNext : next.Owned)
    (used : system.server.table.custody fd ≠ .free) (stepped : system.step? action = some next) :
    next.InTurn fd (session.follow system.server.tree system.server.settings.docRoot
      (system.stimulus? fd action).toList) := by
  obtain ⟨slot, houses⟩ : ∃ slot, system.server.Houses fd slot (some session.socket) :=
    ⟨_, rfl, plays.socket⟩
  have usedSlot : slot.custody ≠ .free := houses.custody ▸ used
  have found := houses.found usedSlot
  have same : slot.connection = session.connection := houses.slot ▸ plays.connection used
  have passes := passes_of_step? owned stepped houses
  constructor
  · intro slot' present custody
    generalize system.stimulus? fd action = stimulus at passes
    cases passes with
    | still houses | fed houses | handedOut _ _ houses =>
        cases houses.eq_of_slot? present
        exact inTurn.held slot found custody
    | opened _ free | unwatched free => exact (usedSlot free).elim
    | deferred _ houses | closed _ houses | received _ _ _ _ houses | receivedLast _ _ _ _ houses
    | sentLast _ _ _ _ houses =>
        cases houses.eq_of_slot? present
        cases custody
    | worked _ lent houses =>
        cases houses.eq_of_slot? present
        rcases lent with lent | lent <;> cases lent.symm.trans custody
    | @returned outcome errand goesOn lent houses =>
        cases houses.eq_of_slot? present
        have due := inTurn.lent _ _ errand rfl
        have fits := attentive.faithful _ _ errand slot found
        cases outcome with
        | needMore => exact (Connection.awaited_of_unanswered fits.1).symm ▸ due
        | respond => exact (Connection.awaited_of_answering fits).symm ▸ due
        | close => exact (goesOn rfl).elim
    | sent asked ready held written goesOn houses =>
        cases houses.eq_of_slot? present
        have answering := (attentive.called asked).answering ready found held
        obtain ⟨again, keepAlive⟩ := Connection.write_outcome written answering
        rw [same] at written
        change session.write.due = _
        rw [Session.write_eq written]
        rcases goesOn with rfl | rfl
        · rw [Connection.awaited_of_answering (again rfl)]
          rfl
        · obtain ⟨last, rfl⟩ := keepAlive rfl
          rw [Connection.awaited_of_unanswered last.isAnswering_reset]
          rfl
  · intro task progress errand mine
    subst mine
    rcases errand.of_step? owned stepped with
      ⟨before, idle⟩ | ⟨held, there, rfl, works⟩ | ⟨rfl, unlent⟩
    · have lent := owned.lent_of_mem before.unit
      rw [houses.lent] at lent
      rw [passes.due_of_lent _ idle]
      · exact inTurn.lent task progress before rfl
      · intro held
        simp [Slot.task?, held] at lent
    · cases found.symm.trans there
      rw [works, same]
      rfl
    · have lent := ownedNext.lent_of_mem errand.unit
      exact passes.due_of_handed (houses.lent ▸ unlent) (by simp [lent]) same rfl _ _

end System

end FileServer
