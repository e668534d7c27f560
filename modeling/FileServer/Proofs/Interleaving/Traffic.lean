import FileServer.Proofs.Interleaving.Progress
import FileServer.Proofs.Report.Tallies
import Mathlib.Algebra.GroupWithZero.Nat
import Mathlib.Data.List.ReduceOption

/-!
# The counters describe the traffic

Workers count answers when they have made them, and the loop counts bytes when it has sent
the last ones.  The journal of a run has the same answers and the same bytes, which it takes
from what the pieces of work end in and from what the sockets take.  An answer that is given
up, by a failure, a hangup, an eviction or the end of the server, stays in the journal with
less than all of its bytes, and these are not counted.
-/

namespace FileServer

/-- All statuses that an answer can have. -/
def Status.all : List Status :=
  [.ok, .badRequest, .forbidden, .notFound, .internalServerError, .serviceUnavailable]

/-- An answer has a status and is not empty, and the first bytes of it were taken. -/
structure Note.Proper (note : Note) : Prop where
  status : ∃ status, note.status = some status
  nonempty : note.whole ≠ []
  front : note.taken <+: note.whole

namespace Journal

variable {journal : Journal}

/-- The codes of all answers. -/
def codes (journal : Journal) : List Nat :=
  (journal.map Note.code?).reduceOption

theorem codes_credit (fd : Fd) (bytes : Bytes) (journal : Journal) :
    (journal.credit fd bytes).codes = journal.codes :=
  congrArg List.reduceOption (map_credit Note.code? fd bytes journal fun _ _ => rfl)

theorem count_codes (journal : Journal) (code : Nat) :
    journal.codes.count code = journal.countP fun note => note.code? = some code := by
  induction journal with
  | nil => rfl
  | cons note rest ih =>
      simp only [codes, List.map_cons, List.countP_cons] at ih ⊢
      cases same : note.code? with
      | none => simpa using ih
      | some found => simp [List.count_cons, ih]

theorem length_codes (proper : ∀ note ∈ journal, note.Proper) :
    journal.codes.length = journal.length := by
  induction journal with
  | nil => rfl
  | cons note rest ih =>
      obtain ⟨here, there⟩ := List.forall_mem_cons.1 proper
      obtain ⟨status, same⟩ := here.status
      simpa [codes, Note.code?, same] using ih there

/-- Each answer is among those with one of the codes. -/
theorem sum_count_codes (proper : ∀ note ∈ journal, note.Proper) :
    (Status.all.map fun status => journal.codes.count status.code).sum = journal.length := by
  induction journal with
  | nil => rfl
  | cons note rest ih =>
      obtain ⟨here, there⟩ := List.forall_mem_cons.1 proper
      obtain ⟨status, same⟩ := here.status
      have others := ih there
      have code : codes (note :: rest) = status.code :: codes rest := by
        simp [codes, Note.code?, same]
      simp only [code, Status.all, List.map_cons, List.map_nil, List.sum_cons, List.sum_nil,
        List.count_cons, List.length_cons] at others ⊢
      cases status <;> simp [Status.code] at others ⊢ <;> omega

end Journal

namespace Task

/-- A piece of work that ends in an answer leaves its status and some bytes to send. -/
theorem work_respond {task : Task} {tree : FileTree} {root : Text} {slot worked : Slot}
    (made : task.work tree root slot = (.respond, worked)) :
    (∃ status, worked.connection.status = some status) ∧ worked.connection.answer ≠ [] := by
  simp only [work] at made
  split at made
  · split at made
    · next outcome connection processed =>
        cases made
        obtain ⟨_, parser, -, ⟨wrong, -⟩ | ⟨reply, -, responded⟩⟩ :=
          Connection.process?_cases processed
        · cases wrong
        · rcases Connection.respond_cases { slot.connection with parser } reply with
            ⟨next, answered, answers⟩ | ⟨next, refused, -⟩
          · cases responded.symm.trans answered
            refine ⟨⟨_, answers.status⟩, ?_⟩
            simp [Connection.answer, answers.head.contents, reply.text_ne_nil]
          · cases responded.symm.trans refused
    · cases made
  · cases made

end Task

/-- The counters tell what the journal has. -/
structure Server.Tells (server : Server) (journal : Journal) : Prop where
  answers : server.marks.answers = Tally.ofNumbers journal.codes
  bytesSent : server.marks.bytesSent = journal.sentBytes
  proper : ∀ note ∈ journal, note.Proper

namespace System

variable {system next : System} {action : Action} {journal : Journal}

/-- A step without work and without sending is not noted. -/
theorem noted_of_mute (idle : ∀ fd, system.stimulus? fd action ≠ some (.stroke .process))
    (mute : ∀ fd, system.stimulus? fd action ≠ some (.stroke .write)) (journal : Journal) :
    system.noted action journal = journal := by
  simp only [noted]
  split
  · next _ _ note made => exact (idle note.fd (stimulus?_of_made? made)).elim
  · next fd bytes _ took => exact (mute fd (stimulus?_of_took? took)).elim
  · rfl

/-- Work on a connection is noted as it is counted. -/
theorem tells_of_works {worker : Nat} {task : Task} {slot : Slot}
    (tells : system.server.Tells journal)
    (busy : system.server.pool.workers[worker]? = some (.busy task))
    (found : system.server.table.slot? task.fd = some slot)
    (marks : next.server.marks = { system.server.marks with
      answers := system.server.marks.answers.addAny (Task.answerCode?
        (task.work system.server.tree system.server.settings.docRoot slot).1
        (task.work system.server.tree system.server.settings.docRoot slot).2) }) :
    next.server.Tells (system.noted (.perform worker) journal) := by
  simp only [noted, made?, busy, found, took?]
  generalize made : task.work system.server.tree system.server.settings.docRoot slot = result
    at marks
  obtain ⟨outcome, worked⟩ := result
  by_cases responds : outcome = .respond
  · subst responds
    obtain ⟨⟨status, same⟩, nonempty⟩ := Task.work_respond made
    simp only [Task.answerCode?, same, Tally.addAny] at marks
    simp only [↓reduceIte]
    refine ⟨?_, ?_, List.forall_mem_cons.2 ⟨⟨⟨status, same⟩, nonempty, List.nil_prefix⟩,
      tells.proper⟩⟩
    · rw [marks]
      dsimp only
      rw [tells.answers]
      simp only [Journal.codes, List.map_cons, Note.code?, same]
      rfl
    · rw [marks, Journal.sentBytes_cons]
      have unsent : (⟨task.fd, worked.connection.status, worked.connection.answer, []⟩ :
          Note).sentBytes = 0 := by
        simp [Note.sentBytes]
      rw [unsent, Nat.zero_add]
      exact tells.bytesSent
  · have uncounted : Task.answerCode? outcome worked = none := by
      cases outcome with
      | respond => exact (responds rfl).elim
      | needMore | close => rfl
    simp only [uncounted, Tally.addAny] at marks
    simp only [responds, ↓reduceIte]
    exact ⟨marks ▸ tells.answers, marks ▸ tells.bytesSent, tells.proper⟩

/-- A call that sends is noted as it is counted, if connection and journal agree. -/
theorem tells_of_sends {fd : Fd} {slot : Slot} (tells : system.server.Tells journal)
    (agrees : slot.connection.Agrees (journal.latest? fd))
    (marks : next.server.marks = { system.server.marks with
      bytesSent := system.server.marks.bytesSent +
        slot.connection.completed (system.server.kernel.socket fd) }) :
    next.server.Tells
      (journal.credit fd (slot.connection.takes (system.server.kernel.socket fd))) := by
  obtain ⟨⟨outcome, connection, after⟩, written⟩ : ∃ result,
      slot.connection.write (system.server.kernel.socket fd) = result := ⟨_, rfl⟩
  have answers : next.server.marks.answers = system.server.marks.answers := by rw [marks]
  have bytesSent : next.server.marks.bytesSent = system.server.marks.bytesSent +
      slot.connection.completed (system.server.kernel.socket fd) := by rw [marks]
  rcases agrees with idle | ⟨note, latest, underway⟩
  · obtain ⟨none, uncounted, -⟩ := Connection.takes_of_idle idle written
    rw [none, Journal.credit_nil]
    exact ⟨answers.trans tells.answers, by rw [bytesSent, uncounted, tells.bytesSent]; rfl,
      tells.proper⟩
  · obtain ⟨front, counted, -⟩ := underway.write written
    refine ⟨?_, ?_, ?_⟩
    · rw [answers, tells.answers, Journal.codes_credit]
    · have credited := Journal.sentBytes_credit latest
        (slot.connection.takes (system.server.kernel.socket fd))
      have before := tells.bytesSent
      omega
    · refine Journal.forall_credit tells.proper fun same here => ?_
      cases latest.symm.trans here
      have proper := tells.proper note (List.mem_of_find?_eq_some latest)
      exact ⟨proper.status, proper.nonempty, front⟩

/-- What a step counts is what it is noted with. -/
theorem LeavesMarks.tells (leaves : system.LeavesMarks next action)
    (tells : system.server.Tells journal)
    (agrees : ∀ fd slot, system.server.table.slot? fd = some slot → slot.custody = .loop →
      system.place ≠ .stopped → slot.connection.Agrees (journal.latest? fd)) :
    next.server.Tells (system.noted action journal) := by
  cases leaves with
  | none same idle mute =>
      rw [noted_of_mute (fun fd => stimulus?_ne_process fd system idle) mute]
      exact ⟨same ▸ tells.answers, same ▸ tells.bytesSent, tells.proper⟩
  | reads position marks =>
      have mute : system.noted .advance journal = journal := by simp [noted, made?, took?, position]
      rw [mute]
      exact ⟨marks ▸ tells.answers, marks ▸ tells.bytesSent, tells.proper⟩
  | works busy found marks => exact tells_of_works tells busy found marks
  | sends position asked found held marks =>
      rw [noted_of_write asked found]
      exact tells_of_sends tells (agrees _ _ found held (by simp [position])) marks

end System

namespace Life

variable {life next last : Life} {action : Action} {actions : List Action} {journal : Journal}

/-- Closing everything counts no answers and no bytes. -/
theorem marks_conclude? (concluded : life.conclude? = some next) :
    next.system.place = life.system.place ∧
      next.system.server.marks.answers = life.system.server.marks.answers ∧
      next.system.server.marks.bytesSent = life.system.server.marks.bytesSent := by
  obtain ⟨place, ⟨closing, same⟩ | ⟨-, -, counters⟩⟩ := conclude?_cases concluded
  · have marks := Server.marks_closeNow life.system.server closing
    rw [same]
    exact ⟨place, congrArg Marks.answers marks, congrArg Marks.bytesSent marks⟩
  · exact ⟨place, congrArg Counters.answers counters, congrArg Counters.bytesSent counters⟩

/-- The counters tell what the journal has, and as long as the loop runs the journal follows
the connections. -/
structure Kept (life : Life) (journal : Journal) : Prop where
  tells : life.system.server.Tells journal
  follows : life.system.place ≠ .stopped →
    System.Reachable life.system ∧ life.system.Follows journal

theorem Kept.step? (kept : life.Kept journal) (stepped : life.step? action = some next) :
    next.Kept (life.system.noted action journal) := by
  cases steps_of_step? stepped with
  | @runs after goesOn moved =>
      by_cases ended : life.system.place = .stopped
      · have other : action ≠ .advance := fun loops => goesOn loops ended
        have leaves := System.leavesMarks_of_other other moved
        have labours := System.labours_of_other (by simp [ended]) other moved
        refine ⟨leaves.tells kept.tells fun _ _ _ _ running => (running ended).elim, ?_⟩
        exact fun running => (running (labours.place.trans ended)).elim
      · obtain ⟨reached, follows⟩ := kept.follows ended
        have leaves := System.leavesMarks_of_step? reached.owned moved
        have later := reached.step moved
        refine ⟨leaves.tells kept.tells fun fd slot found held _ => ?_,
          fun _ => ⟨later, follows.step? reached.owned later.owned moved⟩⟩
        have agrees := follows.held fd ((Slots.custody_of_slot? found).trans held)
        rwa [Slots.vacancy_of_slot? found] at agrees
  | concludes loops ended concluded =>
      subst loops
      have mute : life.system.noted .advance journal = journal := by
        simp [System.noted, System.made?, System.took?, ended]
      obtain ⟨place, answers, bytesSent⟩ := marks_conclude? concluded
      rw [mute]
      exact ⟨⟨answers.trans kept.tells.answers, bytesSent.trans kept.tells.bytesSent,
        kept.tells.proper⟩, fun running => (running (place.trans ended)).elim⟩

theorem Kept.run? (kept : life.Kept journal) (ran : life.run? actions = some last) :
    last.Kept (life.journal actions journal) := by
  induction actions generalizing life journal with
  | nil =>
      obtain rfl := eq_of_run?_nil ran
      exact kept
  | cons action actions ih =>
      obtain ⟨next, stepped, rest⟩ := run?_cons_eq_some.1 ran
      simp only [Life.journal, stepped]
      exact ih (kept.step? stepped) rest

theorem kept_launch {settings : Settings} {tree : FileTree} {now : Nat} {first : System}
    (launched : System.launch? settings tree now = some first) : (ofSystem first).Kept [] := by
  have follows := System.follows_launch launched
  refine ⟨?_, fun _ => ⟨.start launched, follows⟩⟩
  obtain ⟨-, rfl⟩ := System.launch?_eq_some launched
  exact ⟨rfl, rfl, List.forall_mem_nil _⟩

end Life

/-- The counters describe the answers of a journal: the bytes of those whose last byte was
taken, how many have each code, and how many there are. -/
structure Counters.Describe (counters : Counters) (journal : Journal) : Prop where
  bytesSent : counters.bytesSent =
    ((journal.filter fun note => note.taken = note.whole).map fun note => note.taken.length).sum
  answers : ∀ code, counters.answers.count code =
    journal.countP fun note => note.status.map Status.code = some code
  responses : ∀ now, (counters.snapshot now).responses = journal.length
  sum : ∀ now, (counters.snapshot now).responses =
    (Status.all.map fun status => counters.answers.count status.code).sum

namespace Life

variable {last : Life} {actions : List Action}

/-- At every moment of its life, up to the last, a server has counted just what its workers
have answered and what its sockets have taken: each answer by its code when it was made, and
the bytes of an answer once its last byte was taken.  However many calls an answer went out
in, these are the bytes that were taken of it in all of them together. -/
theorem counters_describe_traffic {settings : Settings} {tree : FileTree} {now : Nat}
    {first : System} (launched : System.launch? settings tree now = some first)
    (ran : (ofSystem first).run? actions = some last) :
    last.system.server.shared.counters.Describe ((ofSystem first).journal actions []) ∧
      ∀ note ∈ (ofSystem first).journal actions [], note.Proper := by
  obtain ⟨answers, bytesSent, proper⟩ := ((kept_launch launched).run? ran).tells
  change last.system.server.shared.counters.answers = _ at answers
  refine ⟨⟨bytesSent, fun code => ?_, fun moment => ?_, fun moment => ?_⟩, proper⟩
  · rw [answers, Tally.count_ofNumbers, Journal.count_codes]
    rfl
  · change last.system.server.shared.counters.answers.total = _
    rw [answers, Tally.total_ofNumbers, Journal.length_codes proper]
  · change last.system.server.shared.counters.answers.total = _
    simp only [answers, Tally.total_ofNumbers, Tally.count_ofNumbers]
    rw [Journal.length_codes proper, Journal.sum_count_codes proper]

/-- Two requests are answered.  The first answer goes out in two calls, and the second one
is given up after three bytes. -/
def partialAnswers : List Action :=
  [.outside (.arrive ([7, 8].map fun fd => .connection fd ⟨.short [10, 0, 0, 1], 4000⟩ [] [])),
    .deliver [.arrivals], .advance, .advance, .advance, .advance, .advance, .advance,
    .outside (.feed 7 [.data [71, 10]] [.accept 5, .failure .wouldBlock] []),
    .outside (.feed 8 [.data [71, 10]] [.accept 3, .failure .connectionReset] []),
    .deliver [.ready 7 ⟨true, false, false⟩, .ready 8 ⟨true, false, false⟩], .advance, .advance,
    .proceed 0, .proceed 0, .proceed 0, .perform 0, .report 0, .wake 0,
    .proceed 0, .proceed 0, .proceed 0, .perform 0, .report 0, .wake 0,
    .advance, .advance, .advance, .advance,
    .deliver [.ready 7 ⟨false, true, false⟩, .ready 8 ⟨false, true, false⟩], .advance, .advance,
    .advance, .advance,
    .deliver [.ready 7 ⟨false, true, false⟩], .advance]

/-- Both answers are counted, and the bytes of the first one alone. -/
theorem counters_describe_traffic_partial :
    ∃ last : Life, last.system.server.shared.counters.bytesSent = 160 ∧
      last.system.server.shared.counters.answers.count 400 = 2 ∧
      (last.system.server.shared.counters.snapshot 0).responses = 2 := by
  have evaluated : ((System.launch? {} ⟨0, [], []⟩ 0).bind fun first =>
      ((ofSystem first).run? partialAnswers).map fun _ =>
        let journal := (ofSystem first).journal partialAnswers []
        (journal.map fun note => (note.fd, note.taken.length, note.whole.length),
          journal.sentBytes, journal.countP fun note => note.status.map Status.code = some 400)) =
      some ([(8, 3, 160), (7, 160, 160)], 160, 2) := by decide +kernel
  simp only [Option.bind_eq_some_iff] at evaluated
  obtain ⟨first, launched, tells⟩ := evaluated
  obtain ⟨last, ran, told⟩ := Option.map_eq_some_iff.1 tells
  obtain ⟨lengths, bytes, codes⟩ := by simpa only [Prod.mk.injEq] using told
  obtain ⟨counted, -⟩ := counters_describe_traffic launched ran
  refine ⟨last, counted.bytesSent.trans bytes, (counted.answers 400).trans codes, ?_⟩
  rw [counted.responses, ← List.length_map, lengths]
  rfl

end Life

end FileServer
