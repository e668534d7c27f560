import FileServer.Proofs.Exchange.Resumption
import FileServer.Proofs.Interleaving.Journal

/-!
# How far answers have come

The counter of bytes is moved by what a connection says of an answer when its last byte is
gone, and not by what the socket took: that went out in earlier calls.  A connection and the
journal agree on the answer that is under way, as long as anything is left of it.  Nothing
but the calls of the cycle changes this, and of two sides that could make them only one has
the connection.
-/

namespace FileServer

namespace Connection

/-- A connection has an answer to send of which the journal has taken note, and just the
bytes that it counts were taken. -/
structure Underway (connection : Connection) (note : Note) : Prop where
  begun : ∃ built : Connection, built.Made ∧ built.Sends connection ∧ note.whole = built.answer
  taken : note.taken = note.whole.take connection.haveSent
  unfinished : connection.haveSent < connection.toSend

/-- A connection has nothing to send, or the latest answer is under way. -/
def Agrees (connection : Connection) (latest : Option Note) : Prop :=
  connection.toSend = 0 ∨ ∃ note, latest = some note ∧ connection.Underway note

variable {connection next built : Connection} {note : Note} {latest : Option Note}
variable {socket after : Socket} {outcome : Written} {tree : FileTree} {root : Text}

/-- Receiving and reading on do not touch an answer. -/
theorem Agrees.of_same (agrees : connection.Agrees latest)
    (output : next.output = connection.output) (file : next.file = connection.file)
    (toSend : next.toSend = connection.toSend) (haveSent : next.haveSent = connection.haveSent) :
    next.Agrees latest := by
  rcases agrees with idle | ⟨note, same, ⟨built, made, sends, whole⟩, taken, unfinished⟩
  · exact .inl (toSend.trans idle)
  · refine .inr ⟨note, same, ⟨built, made, ?_, whole⟩, haveSent ▸ taken, ?_⟩
    · exact ⟨output.trans sends.output, toSend.trans sends.toSend, file ▸ sends.file,
        haveSent ▸ sends.bounded⟩
    · rwa [haveSent, toSend]

theorem Agrees.read {result : Except IoErrorKind Nat} (agrees : connection.Agrees latest)
    (received : connection.read socket = (result, next, after)) : next.Agrees latest := by
  obtain ⟨input, same⟩ := connection.read_eq socket
  rw [received] at same
  dsimp only at same
  subst same
  exact agrees.of_same rfl rfl rfl rfl

/-- Work that does not close a connection has come to an end of its own. -/
theorem process?_of_processed {result : Processed} (ended : result ≠ .close)
    (worked : connection.processed tree root = (result, next)) :
    connection.process? tree root = some (result, next) := by
  simp only [Connection.processed] at worked
  cases found : connection.process? tree root with
  | none =>
      rw [found, Option.getD_none] at worked
      exact (ended (congrArg Prod.fst worked).symm).elim
  | some ending =>
      rw [found, Option.getD_some] at worked
      rw [worked]

/-- Work that ends in an answer begins a new one. -/
theorem agrees_of_respond (mapped : connection.Mapped tree root)
    (worked : connection.processed tree root = (.respond, built)) (fd : Fd)
    (status : Option Status) :
    built.Agrees (some ⟨fd, status, built.answer, []⟩) := by
  have processed := process?_of_processed (by simp) worked
  have made := mapped.made processed
  refine .inr ⟨_, rfl, ⟨built, made, ?_, rfl⟩, ?_, ?_⟩
  · exact ⟨rfl, rfl, .inl rfl, by rw [made.haveSent]; exact Nat.zero_le _⟩
  · rw [made.haveSent, List.take_zero]
  · rw [made.haveSent]
    exact made.nonempty

/-- Work that ends for want of more bytes leaves an answer as it was. -/
theorem Agrees.needMore (agrees : connection.Agrees latest)
    (worked : connection.processed tree root = (.needMore, next)) : next.Agrees latest := by
  have processed := process?_of_processed (by simp) worked
  obtain ⟨verdict, parser, -, ⟨-, -, rfl⟩ | ⟨reply, -, responded⟩⟩ := process?_cases processed
  · exact agrees.of_same rfl rfl rfl rfl
  · rcases respond_cases { connection with parser } reply with ⟨_, answered, -⟩ | ⟨_, refused, -⟩
    · cases responded.symm.trans answered
    · cases responded.symm.trans refused

/-- A call that sends for a connection without an answer takes nothing. -/
theorem takes_of_idle (idle : connection.toSend = 0)
    (written : connection.write socket = (outcome, next, after)) :
    connection.takes socket = [] ∧ connection.completed socket = 0 ∧
      (outcome = .again ∨ outcome = .keepAlive → next.toSend = 0) := by
  simp only [takes, completed, written]
  rcases write_cases written with
    ⟨-, rfl, rfl, rfl⟩ | ⟨-, rfl, rfl, rfl⟩ | ⟨-, answering, -⟩
  · exact ⟨List.drop_length, rfl, fun _ => idle⟩
  · exact ⟨List.drop_length, idle, fun _ => rfl⟩
  · exact (answering idle).elim

/-- As long as bytes are missing, an answer does not count. -/
theorem sentBytes_of_short {count : Nat} (taken : note.taken = note.whole.take count)
    (short : count < note.whole.length) : note.sentBytes = 0 := by
  have differ : note.taken ≠ note.whole := by
    intro same
    have lengths := congrArg List.length (taken.symm.trans same)
    rw [List.length_take] at lengths
    omega
  simp [Note.sentBytes, Note.isSent, differ]

/-- A call that sends takes the next bytes of the answer that is under way.  It counts the
answer exactly if all of it is taken then; otherwise the rest stays under way or is given
up. -/
theorem Underway.write (underway : connection.Underway note)
    (written : connection.write socket = (outcome, next, after)) :
    note.taken ++ connection.takes socket <+: note.whole ∧
      connection.completed socket + note.sentBytes =
        { note with taken := note.taken ++ connection.takes socket }.sentBytes ∧
      (outcome = .again ∨ outcome = .keepAlive →
        next.Agrees (some { note with taken := note.taken ++ connection.takes socket })) := by
  obtain ⟨⟨built, made, sends, whole⟩, taken, unfinished⟩ := underway
  have length : note.whole.length = connection.toSend := by
    rw [whole, ← made.toSend, sends.toSend]
  have unsent : note.sentBytes = 0 := sentBytes_of_short taken (by rwa [length])
  rw [unsent, Nat.add_zero]
  rcases write_cases written with
    ⟨-, rfl, rfl, rfl⟩ | ⟨idle, -⟩ | ⟨-, -, bytes, sent, total⟩
  · have none : next.takes after = [] := by simp [takes, written]
    rw [none, List.append_nil]
    refine ⟨taken ▸ List.take_prefix _ _, ?_, by simp⟩
    rw [unsent, completed, written]
  · omega
  · have takes : connection.takes socket = bytes := by
      rw [takes, written, total, List.drop_left]
    obtain ⟨front, stays, finishes⟩ := sent.resumes made sends
    rw [← whole] at front
    have more : note.taken ++ bytes = note.whole.take (connection.haveSent + bytes.length) := by
      rw [taken, take_add_length front]
    have bound := front.length_le
    rw [List.length_drop] at bound
    rw [takes, more]
    rw [← sends.toSend] at finishes
    refine ⟨List.take_prefix _ _, ?_, ?_⟩
    · rw [completed, written]
      by_cases ends : outcome = .keepAlive ∨ outcome = .close
      · have all : connection.haveSent + bytes.length = note.whole.length := by
          rw [length]
          exact (finishes.1 ends).2
        rw [all, List.take_length, Note.sentBytes, if_pos (by simp [Note.isSent]), length]
        rcases ends with rfl | rfl <;> rfl
      · have short : connection.haveSent + bytes.length < note.whole.length := by
          by_contra complete
          exact ends (finishes.2 ⟨unfinished, by omega⟩)
        have nothing := @sentBytes_of_short
          { note with taken := note.whole.take (connection.haveSent + bytes.length) } _ rfl short
        rw [nothing]
        cases outcome with
        | again | failed => rfl
        | keepAlive | close => simp at ends
    · rintro (rfl | rfl)
      · obtain ⟨sendsOn, count⟩ := stays (by simp)
        have answering : next.isAnswering = true :=
          (write_outcome written (by simpa [isAnswering] using unfinished)).1 rfl
        refine .inr ⟨_, rfl, ⟨built, made, sendsOn, whole⟩, by rw [count], ?_⟩
        simpa [isAnswering] using answering
      · obtain ⟨last, rfl⟩ :=
          (write_outcome written (by simpa [isAnswering] using unfinished)).2 rfl
        exact .inl rfl

end Connection

namespace System

variable {system next : System} {action : Action} {journal : Journal} {fd : Fd} {slot : Slot}

/-! ## What a step notes -/

theorem stimulus?_of_made? {note : Note} (made : system.made? action = some note) :
    system.stimulus? note.fd action = some (.stroke .process) := by
  cases action with
  | perform worker =>
      simp only [made?] at made
      split at made
      · next task busy =>
          split at made
          · split at made
            · cases made
              simp [stimulus?, busy]
            · cases made
          · cases made
      · cases made
  | outside | proceed | report | wake | deliver | advance => cases made

theorem stimulus?_of_took? {bytes : Bytes} (took : system.took? action = some (fd, bytes)) :
    system.stimulus? fd action = some (.stroke .write) := by
  cases action with
  | advance =>
      simp only [took?] at took
      split at took
      · split at took
        · next asked =>
            obtain ⟨slot, -, same⟩ := Option.map_eq_some_iff.1 took
            cases same
            exact asked
        · cases took
      · cases took
  | outside | proceed | perform | report | wake | deliver => cases took

/-- A step that does not work on a connection and does not send leaves its latest answer. -/
theorem latest?_noted (idle : system.stimulus? fd action ≠ some (.stroke .process))
    (mute : system.stimulus? fd action ≠ some (.stroke .write)) (journal : Journal) :
    (system.noted action journal).latest? fd = journal.latest? fd := by
  simp only [noted]
  split
  · next _ _ note made =>
      have differ : note.fd ≠ fd := by
        rintro rfl
        exact idle (stimulus?_of_made? made)
      simp [Journal.latest?, differ]
  · next about bytes _ took =>
      refine Journal.latest?_credit_of_ne ?_ bytes journal
      rintro rfl
      exact mute (stimulus?_of_took? took)
  · rfl

/-- A call that sends is noted with what its socket takes. -/
theorem noted_of_write (asked : system.stimulus? fd action = some (.stroke .write))
    (found : system.server.table.slot? fd = some slot) (journal : Journal) :
    system.noted action journal =
      journal.credit fd (slot.connection.takes (system.server.kernel.socket fd)) := by
  cases action with
  | outside circumstance =>
      cases circumstance with
      | feed =>
          simp only [stimulus?] at asked
          split at asked <;> cases asked
      | elapse | arrive | signal => cases asked
  | perform worker =>
      simp only [stimulus?] at asked
      split at asked
      · split at asked <;> cases asked
      · cases asked
  | proceed | report | wake | deliver => cases asked
  | advance =>
      have took : system.took? .advance =
          some (fd, slot.connection.takes (system.server.kernel.socket fd)) := by
        have again := asked
        simp only [stimulus?] at again
        split at again
        · next about readiness events due position =>
            split at again
            · next mine =>
                obtain ⟨rfl, -⟩ := mine
                simp [took?, position, asked, found]
            · cases again
        · cases again
      simp only [noted, took]
      rfl

/-- Work on a connection is noted if it ends in an answer. -/
theorem noted_of_process (owned : system.Owned)
    (asked : system.stimulus? fd action = some (.stroke .process))
    (found : system.server.table.slot? fd = some slot) (journal : Journal) :
    let worked := slot.connection.processed system.server.tree system.server.settings.docRoot
    system.noted action journal =
      if worked.1 = .respond then ⟨fd, worked.2.status, worked.2.answer, []⟩ :: journal
      else journal := by
  cases action with
  | perform worker =>
      simp only [stimulus?] at asked
      split at asked
      · next task busy =>
          split at asked
          · next mine =>
              subst mine
              obtain ⟨current, -⟩ := owned.entrusted.lent busy found
              have work := Task.work_eq_processed system.server.tree system.server.settings.docRoot
                current
              by_cases responds : (slot.connection.processed system.server.tree
                system.server.settings.docRoot).1 = .respond
              · simp [noted, made?, busy, found, work, responds]
              · simp [noted, made?, took?, busy, found, work, responds]
          · cases asked
      · cases asked
  | outside | proceed | report | wake | deliver | advance =>
      exact (stimulus?_ne_process fd system (by simp) asked).elim

/-! ## What a step means to an answer -/

variable {socket : Option Socket} {after : Server}

/-- A file that a connection has stays the one that its request asks for. -/
theorem Passes.mapped {stimulus : Option Stimulus} {tree : FileTree} {root : Text}
    (passes : Passes system fd slot socket action after stimulus)
    (sameTree : system.server.tree = tree) (sameRoot : system.server.settings.docRoot = root)
    (mapped : slot.connection.Mapped tree root) :
    (after.table.vacancy fd).connection.Mapped tree root := by
  subst sameTree sameRoot
  cases passes with
  | still houses | fed houses | handedOut _ _ houses | deferred _ houses
  | returned _ _ _ houses =>
      rw [houses.slot]
      exact mapped
  | opened _ _ houses | unwatched _ houses | closed _ houses | receivedLast _ _ _ _ houses
  | sentLast _ _ _ _ houses =>
      rw [houses.slot]
      exact Connection.mapped_of_none rfl
  | received _ _ _ received houses =>
      rw [houses.slot]
      have keeps := slot.connection.keepsFile_read (socket.getD {})
      rw [received] at keeps
      exact keeps.mapped mapped
  | sent _ _ _ written _ houses =>
      rw [houses.slot]
      have keeps := slot.connection.keepsFile_write (socket.getD {})
      rw [written] at keeps
      exact keeps.mapped mapped
  | worked _ _ houses =>
      rw [houses.slot]
      simp only [Connection.processed]
      cases found : slot.connection.process? system.server.tree system.server.settings.docRoot with
      | none => exact mapped
      | some result => exact mapped.process found

/-- Whatever happens to a connection that agrees with the journal, it agrees with it
afterwards, unless no answer could be made. -/
theorem Passes.agrees (owned : system.Owned) (houses : system.server.Houses fd slot socket)
    (passes : Passes system fd slot socket action after (system.stimulus? fd action))
    (mapped : slot.connection.Mapped system.server.tree system.server.settings.docRoot)
    (agrees : slot.connection.Agrees (journal.latest? fd))
    (answered : system.stimulus? fd action = some (.stroke .process) →
      (slot.connection.processed system.server.tree system.server.settings.docRoot).1 ≠ .close) :
    (after.table.vacancy fd).connection.Agrees ((system.noted action journal).latest? fd) := by
  generalize meaning : system.stimulus? fd action = stimulus at passes
  -- Only work and sending are noted.
  have kept (idle : stimulus ≠ some (.stroke .process)) (mute : stimulus ≠ some (.stroke .write)) :
      slot.connection.Agrees ((system.noted action journal).latest? fd) := by
    rwa [latest?_noted (meaning ▸ idle) (meaning ▸ mute)]
  cases passes with
  | still later | fed later | handedOut _ _ later | deferred _ later | returned _ _ _ later =>
      rw [later.slot]
      exact kept nofun nofun
  | opened _ _ later | unwatched _ later | closed _ later | receivedLast _ _ _ _ later
  | sentLast _ _ _ _ later =>
      rw [later.slot]
      exact .inl rfl
  | received _ _ _ received later =>
      rw [later.slot]
      exact (kept nofun nofun).read received
  | worked _ lent later =>
      have used : slot.custody ≠ .free := by
        rcases lent with custody | custody <;> simp [custody]
      rw [later.slot, noted_of_process owned meaning (houses.found used)]
      have outcome := answered meaning
      generalize worked : slot.connection.processed system.server.tree
        system.server.settings.docRoot = result at outcome
      obtain ⟨result, built⟩ := result
      cases result with
      | respond =>
          simp only [↓reduceIte, Journal.latest?, List.find?_cons, decide_true]
          exact Connection.agrees_of_respond mapped worked fd built.status
      | needMore =>
          simp only [reduceCtorEq, ↓reduceIte]
          exact agrees.needMore worked
      | close => exact (outcome rfl).elim
  | sent _ _ held written goesOn later =>
      have found := houses.found (by simp [held])
      rw [later.slot, noted_of_write meaning found]
      rw [← houses.socket_eq] at written
      rcases agrees with idle | ⟨note, latest, underway⟩
      · exact .inl ((Connection.takes_of_idle idle written).2.2 goesOn)
      · rw [Journal.latest?_credit latest]
        exact (underway.write written).2.2 goesOn

/-! ## All connections -/

/-- The journal follows the connections: each that the loop has, or that a worker may answer
on, agrees with it. -/
structure Follows (system : System) (journal : Journal) : Prop where
  mapped : ∀ fd, (system.server.table.vacancy fd).connection.Mapped system.server.tree
    system.server.settings.docRoot
  held : ∀ fd, system.server.table.custody fd = .loop →
    (system.server.table.vacancy fd).connection.Agrees (journal.latest? fd)
  lent : ∀ task progress, system.Errand task progress → progress ≠ some .close →
    (system.server.table.vacancy task.fd).connection.Agrees (journal.latest? task.fd)

/-- A connection that the loop has after a step agreed with the journal before it, or is
new. -/
theorem Follows.agrees_of_held (follows : system.Follows journal)
    (houses : system.server.Houses fd slot socket)
    (passes : Passes system fd slot socket action after (system.stimulus? fd action))
    (custody : after.table.custody fd = .loop) :
    (slot.connection.Agrees (journal.latest? fd) ∧
        system.stimulus? fd action ≠ some (.stroke .process)) ∨
      (after.table.vacancy fd).connection.toSend = 0 := by
  generalize system.stimulus? fd action = stimulus at passes
  have held (mine : slot.custody = .loop) : slot.connection.Agrees (journal.latest? fd) :=
    houses.slot ▸ follows.held fd (houses.custody.trans mine)
  cases passes with
  | still later | fed later | handedOut _ _ later =>
      exact .inl ⟨held (later.custody.symm.trans custody), nofun⟩
  | opened _ _ later =>
      rw [later.slot]
      exact .inr rfl
  | unwatched _ later | closed _ later | receivedLast _ _ _ _ later | sentLast _ _ _ _ later
  | deferred _ later | received _ _ _ _ later =>
      cases later.custody.symm.trans custody
  | worked _ lent later =>
      rcases lent with lent | lent <;> cases lent.symm.trans (later.custody.symm.trans custody)
  | returned errand goesOn _ later =>
      have agrees := follows.lent _ _ errand (by simpa using goesOn)
      exact .inl ⟨houses.slot ▸ agrees, nofun⟩
  | sent _ _ mine _ _ later => exact .inl ⟨held mine, nofun⟩

/-- A connection that the loop hands over in a step was one that it had. -/
theorem Passes.held_of_handed {stimulus : Option Stimulus}
    (passes : Passes system fd slot socket action after stimulus)
    (unlent : slot.task? fd = none) (lent : after.table.lent fd ≠ none) :
    slot.custody = .loop ∧ stimulus ≠ some (.stroke .process) := by
  have lentSlot {held : Slot} {other : Option Socket} (houses : after.Houses fd held other) :
      held.task? fd ≠ none := houses.lent ▸ lent
  cases passes with
  | still houses | fed houses | handedOut _ _ houses => exact (lentSlot houses unlent).elim
  | opened _ _ houses => exact (lentSlot houses rfl).elim
  | unwatched _ houses | closed _ houses => exact (lentSlot houses rfl).elim
  | deferred custody | worked _ custody =>
      rcases custody with custody | custody <;> simp [Slot.task?, custody] at unlent
  | returned _ _ custody => simp [Slot.task?, custody] at unlent
  | received _ _ held | receivedLast _ _ held | sent _ _ held | sentLast _ _ held =>
      exact ⟨held, (by simp)⟩

theorem Follows.step? (follows : system.Follows journal) (owned : system.Owned)
    (ownedNext : next.Owned) (stepped : system.step? action = some next) :
    next.Follows (system.noted action journal) := by
  have houses (fd : Fd) : system.server.Houses fd _ _ := ⟨rfl, rfl⟩
  have passes (fd : Fd) := passes_of_step? owned stepped (houses fd)
  have same := sameDocuments_step? owned stepped
  constructor
  · intro fd
    exact (passes fd).mapped same.tree.symm (congrArg Settings.docRoot same.settings).symm
      (same.tree ▸ same.settings ▸ follows.mapped fd)
  · intro fd custody
    rcases follows.agrees_of_held (houses fd) (passes fd) custody with ⟨agrees, idle⟩ | new
    · exact (passes fd).agrees owned (houses fd) (follows.mapped fd) agrees
        fun works => (idle works).elim
    · exact .inl new
  · intro task progress errand answered
    have continues (agrees : (system.server.table.vacancy task.fd).connection.Agrees
          (journal.latest? task.fd)) :=
      (passes task.fd).agrees owned (houses task.fd) (follows.mapped task.fd) agrees
    rcases errand.of_step? owned stepped with
      ⟨before, idle⟩ | ⟨slot, found, rfl, works⟩ | ⟨rfl, unlent⟩
    · exact continues (follows.lent task progress before answered) fun works => (idle works).elim
    · have under := passes task.fd
      rw [works] at under
      rw [Slots.vacancy_of_slot? found] at continues under
      cases under with
      | worked before =>
          have agrees := follows.lent _ _ before nofun
          rw [Slots.vacancy_of_slot? found] at agrees
          exact continues agrees fun _ fails => answered (congrArg some fails)
    · have lent : next.server.table.lent task.fd ≠ none := by
        simp [ownedNext.lent_of_mem errand.unit]
      obtain ⟨mine, idle⟩ :=
        (passes task.fd).held_of_handed ((houses task.fd).lent ▸ unlent) lent
      exact continues (follows.held task.fd ((houses task.fd).custody.trans mine))
        fun works => (idle works).elim

theorem follows_launch {settings : Settings} {tree : FileTree} {now : Nat}
    (launched : launch? settings tree now = some system) : system.Follows [] := by
  have owned := owned_launch launched
  obtain ⟨-, rfl⟩ := launch?_eq_some launched
  have fresh (fd : Fd) : (Slots.ofLimit settings.maxFd).vacancy fd = .fresh := by
    rw [Slots.vacancy, Slots.slot?_ofLimit]
    rfl
  have unused (fd : Fd) : (Slots.ofLimit settings.maxFd).custody fd = .free := by
    rw [← Slots.custody_vacancy, fresh]
    rfl
  refine ⟨fun fd => ?_, fun fd held => ?_, fun task progress errand => ?_⟩
  · change ((Slots.ofLimit settings.maxFd).vacancy fd).connection.Mapped tree _
    rw [fresh]
    exact Connection.mapped_of_none rfl
  · cases (unused fd).symm.trans held
  · exact (errand.fd_ne owned (Slots.lent_of_free (unused task.fd)) rfl).elim

end System

end FileServer
