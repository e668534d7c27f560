import FileServer.Proofs.Interleaving.Passages

/-!
# The stop flag and the counters of answers

Three things leave a mark that the server goes by or reports later.  Reading the
notification channel may ask for the end of the loop, work on a connection may make an
answer, and a call that sends may be the last one of an answer.  Nothing else that loop
or workers do touches these marks, in particular no connection that is closed.  And
while they are at it nobody tells the pool to stop.
-/

namespace FileServer

/-- The stop flags of loop and pool, and what is counted of answers. -/
structure Marks where
  stopping : Bool
  poolStopped : Bool
  answers : Tally
  bytesSent : Nat

/-- Counts a number once more, if there is one. -/
def Tally.addAny (tally : Tally) : Option Nat → Tally
  | some number => tally.add number
  | none => tally

/-- The bytes that a call that sends adds to the counter: those of the whole answer if it
was the last call for it. -/
def Connection.completed (connection : Connection) (socket : Socket) : Nat :=
  match (connection.write socket).1 with
  | .keepAlive | .close => connection.toSend
  | .again | .failed => 0

namespace Server

/-- The marks of a server. -/
def marks (server : Server) : Marks where
  stopping := server.stopping
  poolStopped := server.pool.stopped
  answers := server.shared.counters.answers
  bytesSent := server.shared.counters.bytesSent

variable {server next : Server} {fd : Fd}

/-! ## Operations -/

theorem marks_release (server : Server) (fd : Fd) : (server.release fd).marks = server.marks := by
  simp only [release]
  split <;> rfl

theorem marks_closeNow (server : Server) (fd : Fd) : (server.closeNow fd).marks = server.marks := by
  simp only [closeNow]
  split
  · rfl
  · refine (marks_release _ fd).trans ?_
    simp only [dropTimer]
    split <;> rfl

theorem marks_rearm (server : Server) (fd : Fd) (interest : Interest) :
    (server.rearm fd interest).marks = server.marks := by
  simp only [rearm]
  split
  · rfl
  · exact marks_closeNow server fd

theorem marks_refreshTimer {generation : Nat}
    (timed : server.refreshTimer fd generation = .ok next) : next.marks = server.marks := by
  obtain ⟨timers, timerIds, rfl⟩ := refreshTimer_eq timed
  rfl

/-! ## Branches -/

theorem TakesIn.marks {peer : Address} (takesIn : TakesIn server fd peer next) :
    next.marks = server.marks := by
  cases takesIn with
  | busy | dropped | watched => rfl
  | unwatched => exact marks_release _ fd

theorem Parts.marks (parts : Parts server fd next) : next.marks = server.marks := by
  cases parts with
  | absent | later => rfl
  | now => exact marks_closeNow server fd

theorem Reads.marks (reads : Reads server fd next) : next.marks = server.marks := by
  cases reads with
  | absent => rfl
  | failed => exact marks_closeNow _ fd
  | lent found held received timed submitted =>
      have refreshed := marks_refreshTimer timed
      simp only [Pool.submit?] at submitted
      split at submitted
      · cases submitted
      · obtain ⟨queue, -, rfl⟩ := Option.map_eq_some_iff.1 submitted
        exact refreshed
  | rejected found held received timed =>
      have refreshed := marks_refreshTimer timed
      exact (marks_closeNow _ fd).trans refreshed

/-- A call that sends counts bytes if it is the last one of an answer. -/
theorem Writes.marks (writes : Writes server fd next) {slot : Slot}
    (found : server.table.slot? fd = some slot) (held : slot.custody = .loop) :
    next.marks = { server.marks with
      bytesSent := server.marks.bytesSent +
        slot.connection.completed (server.kernel.socket fd) } := by
  cases writes with
  | absent elsewhere => exact (elsewhere ((Slots.custody_of_slot? found).trans held)).elim
  | again present _ sent timed =>
      cases found.symm.trans present
      have refreshed := marks_refreshTimer timed
      simp only [Connection.completed, sent]
      exact (marks_rearm _ fd _).trans refreshed
  | keepAlive present _ sent timed =>
      cases found.symm.trans present
      have refreshed := marks_refreshTimer timed
      simp only [Connection.completed, sent]
      exact (marks_rearm _ fd _).trans refreshed
  | close present _ sent =>
      cases found.symm.trans present
      simp only [Connection.completed, sent]
      exact marks_closeNow _ fd
  | failed present _ sent =>
      cases found.symm.trans present
      simp only [Connection.completed, sent]
      exact marks_closeNow _ fd

theorem Settles.marks {done : Completion} (settles : Settles server done next) :
    next.marks = server.marks := by
  cases settles with
  | deferred => exact marks_closeNow server done.fd
  | returned =>
      cases done.outcome with
      | needMore | respond => exact marks_rearm _ done.fd _
      | close => exact marks_closeNow _ done.fd

theorem Evicts.marks {generation : Nat} (evicts : Evicts server fd generation next) :
    next.marks = server.marks := by
  cases evicts with
  | stale => rfl
  | counted _ _ parts => exact parts.marks

/-- Reading the channel asks for the end of the loop if a stop is among the notices. -/
theorem marks_handleNotices (server : Server) :
    server.handleNotices.2.marks = { server.marks with
      stopping := server.stopping || server.shared.channel.drain.1.contains .stop } := by
  have notices (notices : List Notice) (state : Bool × Server) :
      (notices.foldl handleNotice state).2.marks = { state.2.marks with
        stopping := state.2.stopping || notices.contains .stop } := by
    induction notices generalizing state with
    | nil => simp [marks]
    | cons first rest ih =>
        rw [List.foldl_cons, ih]
        cases first <;> simp [handleNotice, marks, armAlarm]
  exact notices _ _

end Server

namespace System

variable {system next : System}

/-- What a step does to the marks. -/
inductive LeavesMarks (system next : System) : Action → Prop
  /-- Nothing, and no work is done and nothing sent. -/
  | none {action : Action} (same : next.server.marks = system.server.marks)
      (idle : ∀ worker, action ≠ .perform worker)
      (mute : ∀ fd, system.stimulus? fd action ≠ some (.stroke .write)) :
      LeavesMarks system next action
  /-- The loop reads the channel. -/
  | reads {events : List Event} {sweepDue : Bool}
      (position : system.place = .serving (.notices :: events) sweepDue)
      (marks : next.server.marks = { system.server.marks with
        stopping := system.server.stopping ||
          system.server.shared.channel.drain.1.contains .stop }) :
      LeavesMarks system next .advance
  /-- A worker works on a connection. -/
  | works {worker : Nat} {task : Task} {slot : Slot}
      (busy : system.server.pool.workers[worker]? = some (.busy task))
      (found : system.server.table.slot? task.fd = some slot)
      (marks : next.server.marks = { system.server.marks with
        answers := system.server.marks.answers.addAny (Task.answerCode?
          (task.work system.server.tree system.server.settings.docRoot slot).1
          (task.work system.server.tree system.server.settings.docRoot slot).2) }) :
      LeavesMarks system next (.perform worker)
  /-- The loop sends. -/
  | sends {fd : Fd} {readiness : Readiness} {events : List Event} {sweepDue : Bool} {slot : Slot}
      (position : system.place = .serving (.ready fd readiness :: events) sweepDue)
      (asked : system.stimulus? fd .advance = some (.stroke .write))
      (found : system.server.table.slot? fd = some slot) (held : slot.custody = .loop)
      (marks : next.server.marks = { system.server.marks with
        bytesSent := system.server.marks.bytesSent +
          slot.connection.completed (system.server.kernel.socket fd) }) :
      LeavesMarks system next .advance

/-- What an event of a connection leaves behind. -/
theorem leavesMarks_of_handleReady {fd : Fd} {readiness : Readiness} {events : List Event}
    {sweepDue : Bool} {after : Server}
    (position : system.place = .serving (.ready fd readiness :: events) sweepDue)
    (handled : system.server.handleReady fd readiness = .ok after) (same : next.server = after) :
    system.LeavesMarks next .advance := by
  have meaning (other : Fd) : system.stimulus? other .advance =
      if fd = other ∧ system.server.table.custody other = .loop then
        readiness.stroke?.map .stroke
      else none := by
    simp [stimulus?, position]
  -- Where the event does not ask to send, nothing is counted.
  have silent (kept : after.marks = system.server.marks)
      (other : readiness.stroke? ≠ some .write) : system.LeavesMarks next .advance := by
    refine .none (same ▸ kept) (by simp) fun about asked => ?_
    rw [meaning] at asked
    split at asked
    · obtain ⟨stroke, asks, same⟩ := Option.map_eq_some_iff.1 asked
      cases same
      exact other asks
    · cases asked
  simp only [Server.handleReady] at handled
  split at handled
  · next hung =>
      cases handled
      exact silent (Server.closeOrDefer_branch system.server fd).marks
        (by simp [Readiness.stroke?, hung])
  · next hung =>
      split at handled
      · next ready =>
          exact silent (Server.handleReadable_branch handled).marks
            (by simp [Readiness.stroke?, hung, ready])
      · next unreadable =>
          split at handled
          · next ready =>
              have writes := Server.handleWritable_branch handled
              have stroke : readiness.stroke? = some .write := by
                simp [Readiness.stroke?, hung, unreadable, ready]
              by_cases mine : system.server.table.custody fd = .loop
              · obtain ⟨slot, found, held⟩ : ∃ slot, system.server.table.slot? fd = some slot ∧
                    slot.custody = .loop := by
                  cases found : system.server.table.slot? fd with
                  | none => simp [Slots.custody, found] at mine
                  | some slot => exact ⟨slot, rfl, (Slots.custody_of_slot? found) ▸ mine⟩
                exact .sends position (by simp [meaning, mine, stroke]) found held
                  (same ▸ writes.marks found held)
              · have unchanged := same.trans (writes.eq_of_elsewhere mine)
                refine .none (congrArg Server.marks unchanged) (by simp) fun about asked => ?_
                rw [meaning, if_neg] at asked
                · cases asked
                · rintro ⟨rfl, custody⟩
                  exact mine custody
          · next unwritable =>
              cases handled
              exact silent rfl (by simp [Readiness.stroke?, hung, unreadable, unwritable])

theorem leavesMarks_of_advances (owned : system.Owned) (advances : system.Advances next) :
    system.LeavesMarks next .advance := by
  -- The loop sends only where it handles the event of a connection.
  have silent {place : Place} (position : system.place = place)
      (other : ∀ fd readiness events due, place ≠ .serving (.ready fd readiness :: events) due)
      (same : next.server.marks = system.server.marks) : system.LeavesMarks next .advance := by
    refine .none same (by simp) fun fd asked => ?_
    simp only [stimulus?] at asked
    split at asked
    · next about readiness events due here => exact other _ _ _ _ (position.symm.trans here)
    · cases asked
  cases advances with
  | collect position | listen position | acceptNone position | acceptAgain position
  | acceptFails position | beginSweep position | rest position | endSweep position =>
      exact silent position (by simp) rfl
  | @handle event events sweepDue due server position other handled =>
      cases event with
      | arrivals => exact (other rfl).elim
      | notices =>
          obtain rfl : system.server.handleNotices.2 = server :=
            congrArg Prod.snd (Except.ok.inj handled)
          exact .reads position (Server.marks_handleNotices system.server)
      | ready fd readiness =>
          obtain ⟨-, acted⟩ := Server.handleReady_of_handle handled
          exact leavesMarks_of_handleReady position acted rfl
  | accept position waiting taken =>
      exact silent position (by simp) (Server.takeIn_cases taken).marks
  | @settle done rest sweepDue position =>
      have lent := owned.lent_of_settling position
      exact silent position (by simp) (Server.handleCompletion_branch lent).marks
  | @evict expired rest position =>
      exact silent position (by simp) (Server.evict_branch system.server _ _).marks

/-- A worker that works on a connection counts the answer that it has made. -/
theorem leavesMarks_of_perform? {worker : Nat} (stepped : system.perform? worker = some next) :
    system.LeavesMarks next (.perform worker) := by
  obtain ⟨task, slot, busy, clear, found, rfl⟩ := perform?_eq_some stepped
  refine .works busy found ?_
  simp only [Server.marks, Task.perform]
  split
  · next made =>
      simp only [made, Tally.addAny]
      rfl
  · next none =>
      simp only [none, Tally.addAny]
      rfl

/-- Beside the loop only the work on connections leaves marks. -/
theorem leavesMarks_of_other {action : Action} (other : action ≠ .advance)
    (stepped : system.step? action = some next) : system.LeavesMarks next action := by
  cases action with
  | advance => exact (other rfl).elim
  | perform worker => exact leavesMarks_of_perform? stepped
  | outside circumstance =>
      cases stepped
      refine .none ?_ (by simp) fun fd => ?_
      · cases circumstance <;> rfl
      · cases circumstance with
        | feed =>
            simp only [stimulus?]
            split <;> simp
        | elapse | arrive | signal => simp [stimulus?]
  | proceed worker =>
      simp only [step?, proceed?] at stepped
      split at stepped
      · cases stepped
        exact .none rfl (by simp) (by simp [stimulus?])
      · cases stepped
  | report worker =>
      simp only [step?, report?] at stepped
      split at stepped
      · cases stepped
        exact .none rfl (by simp) (by simp [stimulus?])
      · cases stepped
  | wake worker =>
      simp only [step?, wake?] at stepped
      split at stepped
      · cases stepped
        exact .none rfl (by simp) (by simp [stimulus?])
      · cases stepped
  | deliver events =>
      simp only [step?, deliver?] at stepped
      split at stepped
      · cases stepped
        exact .none rfl (by simp) (by simp [stimulus?])
      · cases stepped

theorem leavesMarks_of_step? (owned : system.Owned) {action : Action}
    (stepped : system.step? action = some next) : system.LeavesMarks next action := by
  by_cases loops : action = .advance
  · subst loops
    exact leavesMarks_of_advances owned (.of_advance? stepped)
  · exact leavesMarks_of_other loops stepped

end System

end FileServer
