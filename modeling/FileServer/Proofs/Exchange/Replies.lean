import FileServer.Proofs.Exchange.Resumption
import FileServer.Proofs.Exchange.SizeLimit
import FileServer.Proofs.Exchange.Storage
import FileServer.Proofs.Request.Positions
import FileServer.Proofs.Response.Framing
import Mathlib.Data.Nat.Bitwise

/-!
# Every answer is the right one and tells where it ends

Once a connection has taken a socket, working on what it received either waits for
more, which is so only for an incomplete request in a buffer with room, or makes an
answer.  It never fails to: the parser's line starts in front of its cursor whatever
was done before, and no head is longer than the output that every socket gets.

Which answer is owed is said from the outside, by what is found in the tree and by
nothing that the server computes.  What is sent is that answer line by line, cut off
where the counted bytes end: a file of an earlier answer may still be there when an
empty file is served, but it is not counted.
-/

namespace FileServer

/-! ## What is owed -/

/-- Status and body that are owed to a request for a path.  The bit of value four in a
mode lets everyone read. -/
inductive FileTree.Owes (tree : FileTree) (path : Text) : Status → Bytes → Prop
  | missing {kind : IoErrorKind} (absent : tree.find path = .error kind) :
      tree.Owes path .notFound (Response.errorBody .notFound)
  | forbidden {entry : Entry} (found : tree.find path = .ok entry)
      (closed : entry.mode.testBit 2 = false) :
      tree.Owes path .forbidden (Response.errorBody .forbidden)
  | directory {mode : Nat} (found : tree.find path = .ok (.directory mode))
      (readable : mode.testBit 2 = true) :
      tree.Owes path .badRequest (Response.errorBody .badRequest)
  | unopened {stored : File} (found : tree.find path = .ok (.file stored))
      (readable : stored.mode.testBit 2 = true) (nonempty : stored.content ≠ [])
      (barred : tree.isBarred path = true) :
      tree.Owes path .internalServerError (Response.errorBody .internalServerError)
  | served {stored : File} (found : tree.find path = .ok (.file stored))
      (readable : stored.mode.testBit 2 = true)
      (opens : stored.content = [] ∨ tree.isBarred path = false) :
      tree.Owes path .ok stored.content

/-- The bit that lets everyone read. -/
theorem and_readableByAll_eq_zero_iff (mode : Nat) :
    mode &&& readableByAll = 0 ↔ mode.testBit 2 = false := by
  have bit : mode &&& readableByAll = (mode.testBit 2).toNat * 4 := Nat.and_two_pow mode 2
  rw [bit]
  cases mode.testBit 2 <;> simp

/-- The body of an answer, from a file or not. -/
def Reply.content : Reply → Bytes
  | .serve content => content
  | .refuse status => Response.errorBody status

/-- Nothing but what looking up gives is owed. -/
theorem FileTree.Owes.ofPath {tree : FileTree} {root url : Text} {status : Status} {body : Bytes}
    (owes : tree.Owes (documentPath root url) status body) :
    (Reply.ofPath tree root url).status = status ∧ (Reply.ofPath tree root url).content = body := by
  unfold Reply.ofPath FileTree.lookup
  have readableIff := and_readableByAll_eq_zero_iff
  cases owes with
  | missing absent => simp [absent, Reply.status, Reply.content]
  | forbidden found closed =>
      simp [found, (readableIff _).2 closed, Reply.status, Reply.content]
  | directory found readable =>
      simp [found, readableIff, Entry.mode, readable, Reply.status, Reply.content]
  | unopened found readable nonempty barred =>
      simp [found, readableIff, Entry.mode, readable, nonempty, barred, Reply.status, Reply.content]
  | served found readable opens =>
      rcases opens with empty | opened
      · simp [found, readableIff, Entry.mode, readable, empty, Reply.status, Reply.content]
      · simp [found, readableIff, Entry.mode, readable, opened, Reply.status, Reply.content]

namespace Connection

/-- Status and body that are owed to a connection after a call of its parser. -/
inductive Owes (tree : FileTree) (root : Text) (input : Buffer) (parser : Parser) :
    Verdict → Status → Bytes → Prop
  | malformed : Owes tree root input parser .malformed .badRequest (Response.errorBody .badRequest)
  | oversized (full : inputCapacity ≤ input.used) :
      Owes tree root input parser .incomplete .badRequest (Response.errorBody .badRequest)
  | complete {status : Status} {body : Bytes}
      (owes : tree.Owes (documentPath root parser.url) status body) :
      Owes tree root input parser .complete status body

variable {tree : FileTree} {root : Text}

/-- Nothing else is owed. -/
theorem Owes.finalReply {input : Buffer} {parser : Parser} {verdict : Verdict} {status : Status}
    {body : Bytes} (owes : Owes tree root input parser verdict status body) :
    (Connection.finalReply tree root parser.url verdict).status = status ∧
      (Connection.finalReply tree root parser.url verdict).content = body := by
  cases owes with
  | malformed | oversized => exact ⟨rfl, rfl⟩
  | complete owes => exact owes.ofPath

/-- A connection that has taken a socket, and whatever was done with it since.  Receiving
changes the input alone, so any input stands for what was received. -/
inductive Initialised : Connection → Prop
  | opened (peer : Address) : Initialised (fresh.accept peer)
  | accept {connection : Connection} (initialised : Initialised connection) (peer : Address) :
      Initialised (connection.accept peer)
  | reset {connection : Connection} (initialised : Initialised connection) :
      Initialised connection.reset
  | close {connection : Connection} (initialised : Initialised connection) :
      Initialised connection.close
  | receive {connection : Connection} (initialised : Initialised connection) (input : Buffer) :
      Initialised { connection with input }
  | process {connection next : Connection} {tree : FileTree} {root : Text} {outcome : Processed}
      (initialised : Initialised connection)
      (processed : connection.process? tree root = some (outcome, next)) : Initialised next
  | write {connection : Connection} (initialised : Initialised connection) (socket : Socket) :
      Initialised (connection.write socket).2.1

/-- What a connection that has taken a socket is ready with. -/
structure Equipped (connection : Connection) : Prop where
  output : connection.output.capacity = Response.defaultCapacity
  ordered : connection.parser.Ordered

/-- Calls that keep the output and leave the parser alone or let it start over. -/
theorem Equipped.of_keeps {before after : Connection} (equipped : before.Equipped)
    (keeps : before.KeepsSizes after)
    (parser : after.parser = before.parser ∨ after.parser = before.parser.reset) :
    after.Equipped := by
  refine ⟨keeps.output.trans equipped.output, ?_⟩
  rcases parser with same | again
  · rw [same]
    exact equipped.ordered
  · rw [again]
    exact Parser.ordered_fresh before.parser.capacity

theorem parser_advance (connection : Connection) (count : Nat) :
    (connection.advance count).2.parser = connection.parser ∨
      (connection.advance count).2.parser = connection.parser.reset := by
  rcases advance_cases connection count with ⟨-, same⟩ | ⟨-, ⟨-, same⟩ | ⟨-, same⟩⟩
  · rw [same]; exact .inl rfl
  · rw [same]; exact .inr rfl
  · rw [same]; exact .inl rfl

theorem Transmission.equipped {before after : Connection} {outcome : Written} {taken : Bytes}
    (sent : Transmission before outcome after taken) (equipped : before.Equipped) :
    after.Equipped := by
  induction sent with
  | again | gaveUp => exact ⟨equipped.output, equipped.ordered⟩
  | @finished connection _ _ taken _ _ advanced =>
      have stays := equipped.of_keeps (keepsSizes_advance connection taken.length)
        (parser_advance connection taken.length)
      rwa [advanced] at stays
  | @goesOn connection _ _ _ taken _ _ _ advanced _ ih =>
      have stays := equipped.of_keeps (keepsSizes_advance connection taken.length)
        (parser_advance connection taken.length)
      rw [advanced] at stays
      exact ih stays

theorem Equipped.process {before after : Connection} {outcome : Processed}
    (equipped : before.Equipped)
    (processed : before.process? tree root = some (outcome, after)) : after.Equipped := by
  refine ⟨(keepsSizes_process processed).output.trans equipped.output, ?_⟩
  obtain ⟨verdict, parser, advanced, worked⟩ := process?_cases processed
  have ordered := (Parser.Course.of_advance? advanced).ordered equipped.ordered
  rcases worked with ⟨-, -, rfl⟩ | ⟨reply, -, responded⟩
  · exact ordered
  · rcases respond_cases { before with parser } reply with
      ⟨next, answered, answers⟩ | ⟨next, refused, -, same⟩
    · cases responded.symm.trans answered
      rw [answers.parser]
      exact ordered
    · cases responded.symm.trans refused
      rw [same]
      exact ordered

/-- Whatever was done with a connection since it took its first socket, it has room for
every head, and its parser is in place. -/
theorem Initialised.equipped {connection : Connection} (initialised : connection.Initialised) :
    connection.Equipped := by
  induction initialised with
  | opened peer => exact ⟨sized_fresh.capacity_output, Parser.ordered_fresh _⟩
  | @accept connection _ peer ih =>
      refine ⟨?_, Parser.ordered_fresh _⟩
      have sized : Buffer.capacity (if connection.output.capacity = 0 then
          .ofCapacity Response.defaultCapacity else connection.output) =
          Response.defaultCapacity := by
        rw [if_neg (by rw [ih.output]; decide), ih.output]
      exact sized
  | @reset connection _ ih => exact ih.of_keeps (keepsSizes_reset connection) (.inr rfl)
  | @close connection _ ih => exact ih.of_keeps (keepsSizes_close connection) (.inr rfl)
  | receive _ _ ih => exact ⟨ih.output, ih.ordered⟩
  | process _ processed ih => exact ih.process processed
  | @write connection _ socket ih =>
      obtain ⟨⟨outcome, next, after⟩, written⟩ : ∃ result, connection.write socket = result :=
        ⟨_, rfl⟩
      rw [written]
      rcases write_cases written with ⟨-, -, rfl, -⟩ | ⟨-, -, rfl, -⟩ | ⟨-, -, taken, sent, -⟩
      · exact ih
      · exact ih.of_keeps (keepsSizes_reset connection) (.inr rfl)
      · exact sent.equipped ih

/-! ## Answers on the way -/

/-- Sending ends as the answer says, and leaves what the answer says alone before. -/
theorem Transmission.ends {before after : Connection} {outcome : Written} {taken : Bytes}
    (sent : Transmission before outcome after taken) :
    (outcome = .keepAlive ∧ before.keepAlive = true) ∨
      outcome ≠ .keepAlive ∧ (outcome = .close → before.keepAlive = false) ∧
        after.toSend = before.toSend ∧ after.keepAlive = before.keepAlive := by
  induction sent with
  | again | gaveUp => exact .inr ⟨by simp, by simp, rfl, rfl⟩
  | @finished connection _ _ taken _ _ advanced =>
      rcases advance_cases connection taken.length with
        ⟨-, goesOn⟩ | ⟨-, ⟨kept, startsOver⟩ | ⟨unkept, closes⟩⟩
      · cases advanced.symm.trans goesOn
      · cases advanced.symm.trans startsOver
        exact .inl ⟨rfl, kept⟩
      · cases advanced.symm.trans closes
        exact .inr ⟨by simp, fun _ => unkept, rfl, rfl⟩
  | @goesOn connection _ _ _ taken _ _ _ advanced _ ih =>
      rcases advance_cases connection taken.length with
        ⟨-, goesOn⟩ | ⟨-, ⟨-, startsOver⟩ | ⟨-, closes⟩⟩
      · cases advanced.symm.trans goesOn
        exact ih
      · cases advanced.symm.trans startsOver
      · cases advanced.symm.trans closes

/-- Between calls that send an answer its length and what it says stay. -/
theorem Sending.keeps {built connection : Connection} {taken : Bytes} {socket : Socket}
    (sending : Sending built taken connection socket) :
    connection.toSend = built.toSend ∧ connection.keepAlive = built.keepAlive := by
  induction sending with
  | ready => exact ⟨rfl, rfl⟩
  | call _ _ written again ih =>
      rcases write_cases written with ⟨-, -, rfl, -⟩ | ⟨-, wrong, -⟩ | ⟨-, -, more, sent, -⟩
      · exact ih
      · exact (again wrong).elim
      · rcases sent.ends with ⟨wrong, -⟩ | ⟨-, -, toSend, keepAlive⟩
        · exact (again wrong).elim
        · exact ⟨toSend.trans ih.1, keepAlive.trans ih.2⟩

/-- A call that completes an answer keeps the connection exactly if the answer says so. -/
theorem Sending.completes {built connection next : Connection} {taken : Bytes}
    {socket armed after : Socket} {outcome : Written}
    (sending : Sending built taken connection socket) (nonempty : built.toSend ≠ 0)
    (written : connection.write armed = (outcome, next, after))
    (completed : outcome = .keepAlive ∨ outcome = .close) :
    outcome = .keepAlive ↔ built.keepAlive = true := by
  obtain ⟨toSend, keepAlive⟩ := sending.keeps
  rcases write_cases written with ⟨-, rfl, -⟩ | ⟨idle, -⟩ | ⟨-, -, more, sent, -⟩
  · simp at completed
  · exact (nonempty (toSend.symm.trans idle)).elim
  · rcases sent.ends with ⟨kept, told⟩ | ⟨ends, closes, -⟩
    · exact ⟨fun _ => keepAlive.symm.trans told, fun _ => kept⟩
    · have unkept := closes (completed.resolve_left ends)
      rw [keepAlive] at unkept
      simp [ends, unkept]

end Connection

end FileServer
