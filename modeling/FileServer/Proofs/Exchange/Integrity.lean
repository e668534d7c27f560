import FileServer.Proofs.Exchange.Places
import FileServer.Proofs.Exchange.Resumption
import FileServer.Proofs.Exchange.Session
import FileServer.Proofs.Exchange.SizeLimit
import FileServer.Proofs.Exchange.Storage

/-!
# What always holds of a connection

The fields of a connection depend on each other, and a call changes some of them and returns
early at a dozen places.  The invariant here is what all calls together rely on, in any order:
also when received bytes are worked on twice, when sending is tried again after it failed, and
when a closed connection is asked for something.

The counters of an answer outlive it.  When no answer can be made the old ones stay, while the
output holds a part of the new head, which is at most a status line.  No answer is shorter than
that, so what is left in the output is never more than what is counted.
-/

namespace FileServer

/-- The length of a status line, for the status with the shortest reason. -/
def Response.shortest : Nat := (statusLine .ok).flatten.length

/-- No answer is shorter than the shortest status line. -/
theorem Reply.shortest_le (reply : Reply) (keepAlive : Bool) :
    Response.shortest ≤ (reply.text keepAlive).length := by
  have line (status : Status) :
      Response.shortest ≤ (Response.statusLine status).flatten.length := by
    cases status <;> decide +kernel
  have head (status : Status) (bodyLength : Nat) :
      Response.shortest ≤ (Response.head status bodyLength keepAlive).length := by
    rw [Response.head, List.length_append]
    exact Nat.le_add_right_of_le (line status)
  cases reply with
  | serve content => exact head .ok content.length
  | refuse status =>
      rw [text, Response.errorAnswer, List.length_append]
      exact Nat.le_add_right_of_le (head status _)

namespace Buffer

/-- Some more cells are in use, and none outside. -/
structure Grows (before after : Buffer) : Prop where
  capacity : after.capacity = before.capacity
  onward : before.used ≤ after.used
  inside : after.used ≤ after.capacity

theorem Grows.trans {first second third : Buffer} (early : first.Grows second)
    (late : second.Grows third) : first.Grows third :=
  ⟨late.capacity.trans early.capacity, Nat.le_trans early.onward late.onward, late.inside⟩

theorem grows_store {buffer : Buffer} (inside : buffer.used ≤ buffer.capacity) {bytes : Bytes}
    (fits : bytes.length ≤ buffer.room) : buffer.Grows (buffer.store bytes) where
  capacity := capacity_store buffer bytes
  onward := Nat.le_add_right _ _
  inside := by
    rw [capacity_store]
    simp only [room] at fits
    change buffer.used + bytes.length ≤ buffer.capacity
    omega

/-- A refused call leaves the bytes in use alone. -/
theorem Holds.append_false {buffer next : Buffer} {bytes : Bytes} {pieces : List Bytes}
    (holds : buffer.Holds bytes) (refused : buffer.append pieces = (false, next)) :
    next.Holds bytes := by
  rcases Nat.lt_or_ge buffer.capacity (bytes ++ pieces.flatten).length with tooLong | fits
  · obtain ⟨other, again, stays, -⟩ := holds.append_of_overflow tooLong
    cases refused.symm.trans again
    exact stays
  · obtain ⟨other, accepted, -⟩ := holds.append_of_fits fits
    cases refused.symm.trans accepted

/-- Of a refused head at most the status line is left. -/
theorem Holds.appendHead_false {buffer next : Buffer} {bytes : Bytes} {status : Status}
    {bodyLength : Nat} {keepAlive : Bool} (holds : buffer.Holds bytes)
    (refused : buffer.appendHead status bodyLength keepAlive = (false, next)) :
    next.used ≤ (bytes ++ (Response.statusLine status).flatten).length := by
  unfold appendHead appendStatusLine andThen at refused
  split at refused
  · next middle first =>
      exact Nat.le_of_eq ((holds.append_true first).append_false refused).used
  · next middle first =>
      cases refused
      rw [(holds.append_false first).used, List.length_append]
      exact Nat.le_add_right _ _

end Buffer

namespace Connection

variable {tree : FileTree} {root : Text}

/-! ## The invariant -/

/-- A connection that has nothing of a request or an answer. -/
structure Blank (connection : Connection) : Prop where
  parser : connection.parser = .fresh connection.parser.capacity
  input : connection.input.used = 0
  status : connection.status = none
  file : connection.file = none
  toSend : connection.toSend = 0
  haveSent : connection.haveSent = 0

/-- A connection that sends a file behind its head. -/
structure Carries (connection : Connection) (content : Bytes) : Prop where
  status : connection.status = some .ok
  head : connection.output.contents = Response.head .ok content.length connection.keepAlive
  toSend : connection.toSend = connection.output.used + content.length
  unfinished : connection.haveSent < connection.toSend

/-- The sizes of the storage of a connection that has a socket, and that what was received is
inside. -/
structure Furnished (connection : Connection) : Prop where
  input : connection.input.capacity = inputCapacity
  received : connection.input.used ≤ inputCapacity
  output : connection.output.capacity = Response.defaultCapacity

/-- What the calls on a connection rely on. -/
structure Intact (connection : Connection) : Prop where
  ordered : connection.parser.Ordered
  scanned : connection.parser.cursor ≤ connection.input.used
  output : connection.output.used ≤ connection.output.capacity
  sent : connection.haveSent ≤ connection.toSend
  offered : connection.toSend = 0 ∨
    Response.shortest ≤ connection.toSend ∧ connection.answer.length ≤ connection.toSend
  mapped : ∀ content, connection.file = some content → connection.Carries content
  opened : connection.isOpen = true → connection.Furnished
  closed : connection.isOpen = false → connection.Blank

variable {connection before after : Connection}

theorem Furnished.of_same (furnished : before.Furnished) (input : after.input = before.input)
    (output : after.output = before.output) : after.Furnished :=
  ⟨by rw [input]; exact furnished.input, by rw [input]; exact furnished.received,
    by rw [output]; exact furnished.output⟩

/-- What was received, and how far it was looked at, is nothing to the answer. -/
theorem Carries.receiving {content : Bytes} (carries : connection.Carries content)
    (input : Buffer) (parser : Parser) : { connection with input, parser }.Carries content :=
  ⟨carries.status, carries.head, carries.toSend, carries.unfinished⟩

/-- A connection without a request or an answer. -/
theorem Blank.intact (blank : connection.Blank)
    (output : connection.output.used ≤ connection.output.capacity)
    (opened : connection.isOpen = true → connection.Furnished) : connection.Intact where
  ordered := by
    rw [blank.parser]
    exact Parser.ordered_fresh _
  scanned := by
    rw [blank.parser]
    exact Nat.zero_le _
  output := output
  sent := by
    rw [blank.haveSent]
    exact Nat.zero_le _
  offered := .inl blank.toSend
  mapped := by
    intro content found
    cases blank.file.symm.trans found
  opened := opened
  closed _ := blank

/-- What was received lies inside of the cells. -/
theorem Intact.received (intact : connection.Intact) :
    connection.input.used ≤ inputCapacity ∧
      connection.input.used ≤ connection.input.capacity := by
  cases opened : connection.isOpen with
  | true =>
      have furnished := intact.opened opened
      exact ⟨furnished.received, by rw [furnished.input]; exact furnished.received⟩
  | false =>
      rw [(intact.closed opened).input]
      exact ⟨Nat.zero_le _, Nat.zero_le _⟩

theorem Intact.placed (intact : connection.Intact) : connection.parser.Placed := by
  refine ⟨intact.ordered, ?_⟩
  have bound : inputCapacity < Decimal.wordBound := by decide
  exact Nat.lt_of_le_of_lt (Nat.le_trans intact.scanned intact.received.1) bound

/-! ## Taking sockets, starting over, closing -/

theorem blank_reset (connection : Connection) : connection.reset.Blank :=
  ⟨rfl, rfl, rfl, rfl, rfl, rfl⟩

theorem Intact.reset (intact : connection.Intact) : connection.reset.Intact := by
  refine (blank_reset connection).intact (Nat.zero_le _) fun opened => ?_
  have furnished := intact.opened opened
  exact ⟨furnished.input, Nat.zero_le _, furnished.output⟩

theorem Sized.intact_accept (sized : connection.Sized) (peer : Address) :
    (connection.accept peer).Intact := by
  refine (blank_reset _).intact (Nat.zero_le _) fun _ => ⟨?_, Nat.zero_le _, ?_⟩
  · exact capacity_withCapacity connection.input inputCapacity
  · exact sized.capacity_output

theorem intact_close (connection : Connection) : connection.close.Intact := by
  refine Blank.intact ⟨rfl, rfl, rfl, rfl, rfl, rfl⟩ (Nat.zero_le _) fun opened => ?_
  cases opened

/-! ## Receiving -/

theorem receive_grows (answers : List Receive) {buffer : Buffer}
    (inside : buffer.used ≤ buffer.capacity) (total : Nat) :
    buffer.Grows (receive answers buffer total).2.1 := by
  induction answers generalizing buffer total with
  | nil => exact ⟨rfl, Nat.le_refl _, inside⟩
  | cons answer rest ih =>
      have still : buffer.Grows buffer := ⟨rfl, Nat.le_refl _, inside⟩
      simp only [receive]
      split
      · exact still
      · cases answer with
        | endOfStream => exact still
        | failure kind =>
            cases kind with
            | interrupted => exact ih inside total
            | _ => exact still
        | data bytes =>
            dsimp only
            split
            · exact still
            · split
              · next fits =>
                  have stored := Buffer.grows_store inside fits
                  exact stored.trans (ih stored.inside _)
              · apply Buffer.grows_store inside
                rw [List.length_take]
                exact Nat.min_le_left _ _

/-- Receiving changes the input of an open connection, or nothing. -/
theorem read_cases (socket : Socket)
    (inside : connection.input.used ≤ connection.input.capacity) :
    (connection.read socket).2.1 = connection ∨
      connection.isOpen = true ∧ ∃ input, (connection.read socket).2.1 = { connection with input } ∧
        connection.input.Grows input := by
  unfold read
  split
  · exact .inl rfl
  · next opened =>
      split
      · exact .inl rfl
      · exact .inr ⟨by simpa using opened, _, rfl, receive_grows socket.incoming inside 0⟩

theorem Intact.read (intact : connection.Intact) (socket : Socket) :
    (connection.read socket).2.1.Intact := by
  rcases read_cases socket intact.received.2 with same | ⟨opened, input, same, grows⟩
  · rw [same]
    exact intact
  · rw [same]
    have furnished := intact.opened opened
    have size := grows.capacity.trans furnished.input
    exact {
      ordered := intact.ordered
      scanned := Nat.le_trans intact.scanned grows.onward
      output := intact.output
      sent := intact.sent
      offered := intact.offered
      mapped content found := (intact.mapped content found).receiving input connection.parser
      opened _ := ⟨size, size ▸ grows.inside, furnished.output⟩
      closed closed := by cases opened.symm.trans closed }

/-! ## Working on the received bytes -/

/-- When no answer can be made, all that changes is what is in the output and that there is no
file. -/
theorem respond_refused {next : Connection} {reply : Reply}
    (sized : connection.output.capacity = Response.defaultCapacity)
    (refused : connection.respond reply = (.close, next)) :
    next.output.used ≤ Response.shortest ∧
      ∃ output fileSize, next = { connection with output, fileSize, file := none } := by
  cases reply with
  | refuse status =>
      have fits (keepAlive : Bool) :
          ((Reply.refuse status).text keepAlive).length ≤ connection.output.capacity := by
        rw [sized]
        exact Response.length_errorAnswer_le status keepAlive
      obtain ⟨made, responded, -⟩ := respond_of_fits fits
      cases refused.symm.trans responded
  | serve content =>
      obtain ⟨⟨written, output⟩, appended⟩ : ∃ result, connection.output.clear.appendHead .ok
          content.length (Status.ok.allowsKeepAlive && connection.parser.keepAlive) = result :=
        ⟨_, rfl⟩
      cases written with
      | true =>
          simp only [respond, Reply.status, appended, ↓reduceIte] at refused
          cases refused
      | false =>
          simp only [respond, Reply.status, appended, Bool.false_eq_true, ↓reduceIte] at refused
          cases refused
          exact ⟨(Buffer.holds_clear connection.output).appendHead_false appended, output,
            content.length, rfl⟩

/-- Nothing received and nothing asked for: working on it changes nothing. -/
theorem Blank.process? (blank : connection.Blank) (tree : FileTree) (root : Text) :
    connection.process? tree root = some (.needMore, connection) := by
  have waits : connection.parser.advance? connection.input.contents =
      some (.incomplete, connection.parser) := by
    have empty : connection.input.contents = [] := by
      rw [Buffer.contents, blank.input, List.take_zero]
    rw [empty, blank.parser]
    exact Parser.advance?_fresh_nil _
  have room : connection.input.used < inputCapacity := by
    rw [blank.input]
    decide
  exact process?_of_room tree root waits room

/-- The parser stays inside of what was received. -/
theorem Intact.parsed (intact : connection.Intact) (opened : connection.isOpen = true)
    {verdict : Verdict} {parser : Parser}
    (advanced : connection.parser.advance? connection.input.contents = some (verdict, parser)) :
    { connection with parser }.Intact := by
  have course := Parser.Course.of_advance? advanced
  have held := (Buffer.holds_contents intact.received.2).used
  exact {
    ordered := course.ordered intact.ordered
    scanned := held ▸ course.advances.le_length (held ▸ intact.scanned)
    output := intact.output
    sent := intact.sent
    offered := intact.offered
    mapped content found := (intact.mapped content found).receiving connection.input parser
    opened _ := (intact.opened opened).of_same rfl rfl
    closed closed := by cases opened.symm.trans closed }

/-- An answer replaces whatever the connection was sending. -/
theorem Intact.answered {next : Connection} {reply : Reply} {verdict : Verdict}
    (intact : connection.Intact) (opened : connection.isOpen = true)
    (mapped : connection.Mapped tree root)
    (replied : connection.reply? tree root verdict = some reply)
    (responded : connection.respond reply = (.respond, next))
    (answers : connection.Answers next reply) : next.Intact := by
  have kept := respond_keeps connection reply
  have sizes := keepsSizes_respond connection reply
  rw [responded] at kept sizes
  have furnished := intact.opened opened
  have body := answers.file_eq mapped replied
  have counted := answers.toSend
  have text := answers.head.used
  have long := reply.shortest_le next.keepAlive
  exact {
    ordered := by
      rw [answers.parser]
      exact intact.ordered
    scanned := by
      rw [answers.parser, kept.1]
      exact intact.scanned
    output := answers.head.used_le
    sent := by
      rw [answers.haveSent]
      exact Nat.zero_le _
    offered := by
      refine .inr ⟨by omega, ?_⟩
      rw [answer, List.length_append, answers.head.contents, body.1]
      omega
    mapped := by
      intro content found
      have served := body.2 (by rw [found]; exact Option.some_ne_none content)
      cases reply with
      | refuse status => exact (served.2 rfl).elim
      | serve other =>
          cases found.symm.trans served.1
          refine ⟨answers.status, answers.head.contents, counted, ?_⟩
          have := List.length_pos_iff.2 ((Reply.serve other).text_ne_nil next.keepAlive)
          rw [answers.haveSent]
          omega
    opened := fun _ =>
      ⟨by rw [kept.1]; exact furnished.input, by rw [kept.1]; exact furnished.received,
        sizes.output.trans furnished.output⟩
    closed := by
      intro closed
      rw [kept.2.1, opened] at closed
      cases closed }

/-- Without an answer the old counters stay. -/
theorem Intact.refused {next : Connection} {reply : Reply} (intact : connection.Intact)
    (opened : connection.isOpen = true) (responded : connection.respond reply = (.close, next)) :
    next.Intact := by
  have furnished := intact.opened opened
  have sizes := keepsSizes_respond connection reply
  rw [responded] at sizes
  obtain ⟨short, output, fileSize, rfl⟩ := respond_refused furnished.output responded
  have size : output.capacity = Response.defaultCapacity := sizes.output.trans furnished.output
  have roomy : Response.shortest ≤ Response.defaultCapacity := by decide +kernel
  have inside : output.used ≤ output.capacity := by
    rw [size]
    exact Nat.le_trans short roomy
  exact {
    ordered := intact.ordered
    scanned := intact.scanned
    output := inside
    sent := intact.sent
    offered := by
      refine intact.offered.imp_right fun ⟨long, _⟩ => ⟨long, ?_⟩
      rw [answer, Option.getD_none, List.append_nil, ← (Buffer.holds_contents inside).used]
      exact Nat.le_trans short long
    mapped := fun content found => by cases found
    opened := fun _ => ⟨furnished.input, furnished.received, size⟩
    closed := fun closed => by cases opened.symm.trans closed }

theorem Intact.process {outcome : Processed} (intact : before.Intact)
    (mapped : before.Mapped tree root)
    (processed : before.process? tree root = some (outcome, after)) : after.Intact := by
  cases opened : before.isOpen with
  | false =>
      cases processed.symm.trans ((intact.closed opened).process? tree root)
      exact intact
  | true =>
      obtain ⟨verdict, parser, advanced, worked⟩ := process?_cases processed
      have parsed := intact.parsed opened advanced
      rcases worked with ⟨-, -, rfl⟩ | ⟨reply, replied, responded⟩
      · exact parsed
      · rcases respond_cases { before with parser } reply with
          ⟨next, answered, answers⟩ | ⟨next, refused, -⟩
        · cases responded.symm.trans answered
          exact parsed.answered opened (mapped.advance advanced) replied answered answers
        · cases responded.symm.trans refused
          exact parsed.refused opened refused

/-! ## Sending -/

/-- Giving up the file, with some more bytes counted as sent. -/
theorem Intact.stopped (intact : connection.Intact) (opened : connection.isOpen = true)
    {count : Nat} (bounded : count ≤ connection.toSend) :
    { connection with haveSent := count, file := none }.Intact where
  ordered := intact.ordered
  scanned := intact.scanned
  output := intact.output
  sent := bounded
  offered := by
    refine intact.offered.imp_right fun ⟨long, whole⟩ => ⟨long, Nat.le_trans ?_ whole⟩
    rw [answer, answer, Option.getD_none, List.append_nil, List.length_append]
    exact Nat.le_add_right _ _
  mapped content found := by cases found
  opened _ := (intact.opened opened).of_same rfl rfl
  closed closed := by cases opened.symm.trans closed

/-- Some bytes are counted as sent, and there are more. -/
theorem Intact.counted (intact : connection.Intact) (opened : connection.isOpen = true)
    {count : Nat} (unfinished : count < connection.toSend) :
    { connection with haveSent := count }.Intact where
  ordered := intact.ordered
  scanned := intact.scanned
  output := intact.output
  sent := Nat.le_of_lt unfinished
  offered := intact.offered
  mapped content found :=
    let carries := intact.mapped content found
    ⟨carries.status, carries.head, carries.toSend, unfinished⟩
  opened _ := (intact.opened opened).of_same rfl rfl
  closed closed := by cases opened.symm.trans closed

/-- No more is taken than is counted. -/
theorem Intact.taken_le (intact : connection.Intact) (answering : connection.toSend ≠ 0)
    {taken : Bytes} (front : taken <+: connection.unsent) :
    connection.haveSent + taken.length ≤ connection.toSend := by
  obtain idle | ⟨-, whole⟩ := intact.offered
  · exact (answering idle).elim
  · have bound := front.length_le
    have sent := intact.sent
    rw [unsent, List.length_drop] at bound
    omega

theorem Transmission.intact {outcome : Written} {taken : Bytes}
    (sent : Transmission before outcome after taken) (intact : before.Intact)
    (opened : before.isOpen = true) (answering : before.toSend ≠ 0) : after.Intact := by
  induction sent with
  | again => exact intact
  | gaveUp => exact intact.stopped opened intact.sent
  | @finished connection _ _ taken front _ advanced =>
      rcases advance_cases connection taken.length with
        ⟨-, same⟩ | ⟨-, ⟨-, same⟩ | ⟨-, same⟩⟩
      · cases advanced.symm.trans same
      · cases advanced.symm.trans same
        exact intact.reset
      · cases advanced.symm.trans same
        exact intact.stopped opened (intact.taken_le answering front)
  | @goesOn connection _ _ _ taken _ _ _ advanced _ ih =>
      rcases advance_cases connection taken.length with
        ⟨unfinished, same⟩ | ⟨-, ⟨-, same⟩ | ⟨-, same⟩⟩
      · cases advanced.symm.trans same
        exact ih (intact.counted opened unfinished) opened answering
      · cases advanced.symm.trans same
      · cases advanced.symm.trans same

theorem Intact.write (intact : connection.Intact) (socket : Socket) :
    (connection.write socket).2.1.Intact := by
  obtain ⟨⟨outcome, next, after⟩, written⟩ : ∃ result, connection.write socket = result := ⟨_, rfl⟩
  rw [written]
  rcases write_cases written with
    ⟨-, -, rfl, -⟩ | ⟨-, -, rfl, -⟩ | ⟨opened, answering, taken, sent, -⟩
  · exact intact
  · exact intact.reset
  · exact sent.intact intact opened answering

/-! ## Any calls -/

/-- Whatever a new connection has been through, it is intact. -/
theorem History.intact (history : History tree root fresh connection) : connection.Intact := by
  induction history with
  | start =>
      refine Blank.intact ⟨rfl, rfl, rfl, rfl, rfl, rfl⟩ (Nat.le_refl 0) fun opened => ?_
      cases opened
  | accept history peer => exact history.past.sized.intact_accept peer
  | reset _ ih => exact ih.reset
  | close => exact intact_close _
  | read _ socket ih => exact ih.read socket
  | process history processed ih => exact ih.process (history.mapped rfl) processed
  | write _ socket ih => exact ih.write socket

/-- The fields of a connection always fit together.  Let a new connection go through any calls in
any order, whatever its sockets answer.  The parser's cursor is not behind the bytes received,
and these are not more than the input has cells.  Not more is sent than there is to send.  A
connection with a file has the status of a served file and its head, has head and file to send,
and has not sent all of it.  A closed connection has no file, no status, nothing received and
nothing to send.  And receiving, working on what was received, and sending look at no place
outside of the storage: with every place looked up they give the same results. -/
theorem always_consistent (history : History tree root fresh connection) :
    connection.parser.cursor ≤ connection.input.used ∧
      connection.input.used ≤ inputCapacity ∧
      connection.haveSent ≤ connection.toSend ∧
      (∀ content, connection.file = some content →
        connection.status = some .ok ∧
          connection.output.contents = Response.head .ok content.length connection.keepAlive ∧
          connection.toSend = connection.output.used + content.length ∧
          connection.haveSent < connection.toSend) ∧
      (connection.isOpen = false →
        connection.file = none ∧ connection.toSend = 0 ∧ connection.haveSent = 0 ∧
          connection.input.used = 0 ∧ connection.status = none) ∧
      (∀ socket, connection.readAt socket = .ok (connection.read socket)) ∧
      (∃ outcome next, connection.processAt tree root = .ok (outcome, next) ∧
        connection.process? tree root = some (outcome, next)) ∧
      ∀ socket, connection.writeAt socket = .ok (connection.write socket) := by
  have intact := history.intact
  have received := intact.received
  have small : connection.input.used < Decimal.wordBound :=
    Nat.lt_of_le_of_lt received.1 (by decide)
  refine ⟨intact.scanned, received.1, intact.sent, fun content found => ?_, fun closed => ?_,
    readAt_eq received.2, processAt_eq tree root received.2 small intact.placed,
    writeAt_eq intact.output⟩
  · obtain ⟨status, head, toSend, unfinished⟩ := intact.mapped content found
    exact ⟨status, head, toSend, unfinished⟩
  · have blank := intact.closed closed
    exact ⟨blank.file, blank.toSend, blank.haveSent, blank.input, blank.status⟩

/-- A connection that has received the request for the small document. -/
def smallReceived : Connection :=
  ((fresh.accept ⟨.short [127, 0, 0, 1], 4000⟩).read
    ⟨[.data (utf8 "GET /a HTTP/1.1\r\n\r\n")], [], []⟩).2.1

/-- The connection after it has sent five bytes of the answer. -/
def smallBegun : Connection :=
  ((smallReceived.processed smallTree []).2.write ⟨[], [.accept 5, .failure .wouldBlock], []⟩).2.1

theorem always_consistent_begun :
    ∃ connection, History smallTree [] fresh connection ∧ connection.file = some [104, 105] ∧
      connection.haveSent = 5 ∧ connection.status = some .ok ∧
      connection.toSend = connection.output.used + 2 ∧
      ∀ socket, connection.writeAt socket = .ok (connection.write socket) := by
  have processed : smallReceived.process? smallTree [] =
      some (smallReceived.processed smallTree []) := by decide +kernel
  have history : History smallTree [] fresh smallBegun :=
    .write (.process (.read (.accept .start _) _) processed) _
  have file : smallBegun.file = some [104, 105] := by decide +kernel
  obtain ⟨-, -, -, mapped, -, -, -, sends⟩ := always_consistent history
  obtain ⟨status, -, toSend, -⟩ := mapped _ file
  exact ⟨smallBegun, history, file, by decide +kernel, status, toSend, sends⟩

end Connection

end FileServer
