import FileServer.Proofs.Exchange.Streams

/-!
# The limit of a request

Three tests meet at the size of the buffer: a connection receives as long as there is
room, the parser refuses a header whose body would not fit, and a request that is still
incomplete when the buffer is full is refused.  They meet exactly.  However the bytes
of a stream are cut, and however often nothing has arrived, a connection never waits
with a full buffer and never receives into one; a request of just the size of the
buffer is answered as if it were alone, and one that is longer is refused.
-/

namespace FileServer

/-- An answer that brings bytes, or says that nothing has arrived or that the call was
interrupted. -/
def Receive.Calm : Receive → Prop
  | .data bytes => bytes ≠ []
  | .failure kind => kind = .wouldBlock ∨ kind = .interrupted
  | .endOfStream => False

instance : DecidablePred Receive.Calm
  | .data bytes => inferInstanceAs (Decidable (bytes ≠ []))
  | .failure kind => inferInstanceAs (Decidable (kind = .wouldBlock ∨ kind = .interrupted))
  | .endOfStream => inferInstanceAs (Decidable False)

/-- The text of a reply fits in the output of a connection. -/
theorem Reply.length_text_le {reply : Reply} (small : reply.body.length < Decimal.wordBound)
    (keepAlive : Bool) : (reply.text keepAlive).length ≤ Response.defaultCapacity := by
  cases reply with
  | serve content => exact Response.length_head_le small keepAlive
  | refuse status => exact Response.length_errorAnswer_le status keepAlive

namespace Connection

/-- What was done with some answers of a socket: they bring the bytes that were taken and
then what the rest brings.  Unless the buffer is full now, answers were used up. -/
structure Received (answers : List Receive) (buffer : Buffer) (held : Bytes) (next : Buffer)
    (rest : List Receive) (taken : Bytes) : Prop where
  holds : next.Holds (held ++ taken)
  capacity : next.capacity = buffer.capacity
  calm : ∀ answer ∈ rest, answer.Calm
  cut : taken ++ arrived rest = arrived answers
  progress : rest = [] ∨ rest.length < answers.length ∨ (held ++ taken).length = buffer.capacity

/-- An answer was taken before the others. -/
theorem Received.cons {answers rest : List Receive} {answer : Receive} {buffer stored next : Buffer}
    {held taken : Bytes} (received : Received answers stored (held ++ answer.bytes) next rest taken)
    (size : stored.capacity = buffer.capacity) :
    Received (answer :: answers) buffer held next rest (answer.bytes ++ taken) := by
  obtain ⟨holds, capacity, calm, cut, progress⟩ := received
  rw [List.append_assoc] at holds progress
  rw [size] at progress
  refine ⟨holds, capacity.trans size, calm, ?_, ?_⟩
  · rw [List.append_assoc, cut, arrived_cons]
  · exact progress.imp_right (Or.imp_left Nat.lt_succ_of_lt)

/-- The bytes that have no place are left for the next call. -/
theorem Received.of_overflow {bytes : Bytes} {answers : List Receive} {buffer : Buffer}
    {held : Bytes} (calm : ∀ answer ∈ answers, answer.Calm) (holds : buffer.Holds held)
    (tooLong : buffer.room < bytes.length) :
    Received (.data bytes :: answers) buffer held (buffer.store (bytes.take buffer.room))
      (.data (bytes.drop buffer.room) :: answers) (bytes.take buffer.room) := by
  have size : (bytes.take buffer.room).length = buffer.room := by
    rw [List.length_take]
    omega
  have whole := holds.length_add_room
  constructor
  · exact holds.store (Nat.le_of_eq size)
  · exact Buffer.capacity_store _ _
  · refine List.forall_mem_cons.2 ⟨?_, calm⟩
    change bytes.drop buffer.room ≠ []
    rw [ne_eq, List.drop_eq_nil_iff]
    omega
  · rw [arrived_cons, ← List.append_assoc]
    exact congrArg (· ++ arrived answers) (List.take_append_drop buffer.room bytes)
  · refine .inr (.inr ?_)
    rw [List.length_append, size, whole]

/-- Receiving from a socket with calm answers succeeds. -/
theorem receive_of_calm {answers : List Receive} (calm : ∀ answer ∈ answers, answer.Calm)
    {buffer : Buffer} {held : Bytes} (holds : buffer.Holds held) (total : Nat) :
    ∃ count next rest taken, receive answers buffer total = (.ok count, next, rest) ∧
      Received answers buffer held next rest taken := by
  induction answers generalizing buffer held total with
  | nil =>
      exact ⟨total, buffer, [], [], rfl, by rwa [List.append_nil], rfl, calm, rfl, .inl rfl⟩
  | cons answer others ih =>
      obtain ⟨first, later⟩ := List.forall_mem_cons.1 calm
      by_cases full : buffer.room = 0
      · refine ⟨total, buffer, answer :: others, [], by simp only [receive, full, ↓reduceIte],
          by rwa [List.append_nil], rfl, calm, rfl, ?_⟩
        have whole := holds.length_add_room
        rw [List.append_nil]
        exact .inr (.inr (by omega))
      · cases answer with
        | endOfStream => exact first.elim
        | failure kind =>
            rcases first with rfl | rfl
            · refine ⟨total, buffer, others, [], by simp only [receive, full, ↓reduceIte],
                by rwa [List.append_nil], rfl, later, rfl, ?_⟩
              exact .inr (.inl (Nat.lt_succ_self _))
            · obtain ⟨count, next, rest, taken, result, received⟩ :=
                ih later ((List.append_nil held).symm ▸ holds) total
              refine ⟨count, next, rest, taken, ?_, received.cons rfl⟩
              simp only [receive, full, ↓reduceIte, result]
        | data bytes =>
            have some : bytes ≠ [] := first
            have filled : bytes.isEmpty = false := by simpa using some
            rcases Nat.lt_or_ge buffer.room bytes.length with tooLong | fits
            · refine ⟨total + buffer.room, _, _, _, ?_, .of_overflow later holds tooLong⟩
              simp only [receive, full, filled, Nat.not_le.2 tooLong, ↓reduceIte,
                Bool.false_eq_true]
            · obtain ⟨count, next, rest, taken, result, received⟩ :=
                ih later (holds.store fits) (total + bytes.length)
              refine ⟨count, next, rest, bytes ++ taken, ?_,
                received.cons (Buffer.capacity_store _ _)⟩
              simp only [receive, full, filled, fits, ↓reduceIte, Bool.false_eq_true, result]

/-- The reply to a verdict after which nothing more is received. -/
def finalReply (tree : FileTree) (root : Text) (url : Text) : Verdict → Reply
  | .complete => .ofPath tree root url
  | .malformed | .incomplete => .refuse .badRequest

variable {connection : Connection} {verdict : Verdict} {parser : Parser}

/-- A request that is incomplete is waited for while there is room. -/
theorem process?_of_room (tree : FileTree) (root : Text)
    (advanced : connection.parser.advance? connection.input.contents = some (.incomplete, parser))
    (room : connection.input.used < inputCapacity) :
    connection.process? tree root = some (.needMore, { connection with parser }) := by
  simp only [process?, advanced, reply?, room, ↓reduceIte]

/-- What is not incomplete is answered, and so is what is incomplete in a full buffer. -/
theorem process?_of_final (tree : FileTree) (root : Text)
    (advanced : connection.parser.advance? connection.input.contents = some (verdict, parser))
    (final : verdict = .incomplete → inputCapacity ≤ connection.input.used) :
    connection.process? tree root =
      some ({ connection with parser }.respond (finalReply tree root parser.url verdict)) := by
  cases verdict with
  | complete | malformed => simp only [process?, advanced, reply?, finalReply]
  | incomplete =>
      simp only [process?, advanced, reply?, finalReply, Nat.not_lt.2 (final rfl), ↓reduceIte]

/-- No answer asks for more bytes. -/
theorem respond_ne_needMore (connection : Connection) (reply : Reply) :
    (connection.respond reply).1 ≠ .needMore := by
  rcases respond_cases connection reply with ⟨next, answered, -⟩ | ⟨next, refused, -⟩
  · simp [answered]
  · simp [refused]

/-- An answer whose head fits in the output is made. -/
theorem respond_of_fits {reply : Reply}
    (fits : ∀ keepAlive, (reply.text keepAlive).length ≤ connection.output.capacity) :
    ∃ next, connection.respond reply = (.respond, next) ∧ connection.Answers next reply := by
  rcases respond_cases connection reply with made | ⟨next, refused, -⟩
  · exact made
  have empty := Buffer.holds_clear connection.output
  cases reply with
  | serve content =>
      obtain ⟨output, written, -⟩ := empty.appendHead_of_fits
        (fits (Status.ok.allowsKeepAlive && connection.parser.keepAlive))
      simp [respond, Reply.status, written] at refused
  | refuse status =>
      obtain ⟨output, written⟩ := empty.appendError_of_fits
        (fits (status.allowsKeepAlive && connection.parser.keepAlive))
      simp [respond, Reply.status, written] at refused

/-- An answer that was made on a connection without a file is its text and its body. -/
theorem Answers.unsent_eq {before after : Connection} {reply : Reply}
    (answers : before.Answers after reply) (unmapped : before.file = none) :
    after.unsent = reply.text after.keepAlive ++ reply.body := by
  have file : after.file.getD [] = reply.body := by
    rcases answers.file with ⟨served, -⟩ | ⟨⟨status, rfl⟩, none⟩ | ⟨rfl, same⟩
    · rw [served]; rfl
    · rw [none]; rfl
    · rw [same, unmapped]; rfl
  rw [unsent, answer, answers.haveSent, List.drop_zero, answers.head.contents, file]

end Connection

namespace Session

variable {tree : FileTree} {root : Text} {session : Session} {peer : Address}

/-- Receives and works on what was received in turn, as long as more bytes are needed, in
so many calls. -/
def listen (tree : FileTree) (root : Text) : Nat → Session → Session
  | 0, session => session
  | calls + 1, session =>
      if session.due = some .read ∨ session.due = some .process then
        (session.beat tree root).listen tree root calls
      else session

/-- A session that waits for the rest of a request: a part of the stream is held, the
parser waits behind a front part of it, and the socket brings the rest. -/
structure Listens (peer : Address) (stream seen held : Bytes) (parser : Parser)
    (session : Session) : Prop where
  akin : { Connection.fresh.accept peer with parser }.Akin session.connection
  input : session.connection.input.Holds held
  capacity : session.connection.input.capacity = Connection.inputCapacity
  calm : ∀ answer ∈ session.socket.incoming, answer.Calm
  waiting : (Parser.fresh Connection.inputCapacity).advance? seen = some (.incomplete, parser)
  part : seen <+: held
  whole : held ++ arrived session.socket.incoming = stream
  /-- Before receiving there is room, and everything held is worked on. -/
  due : session.due = some .read ∧ seen = held ∧ held.length < Connection.inputCapacity ∨
    session.due = some .process

/-- A session that has worked on a request up to a reply, and made the answer. -/
structure Replied (peer : Address) (parser : Parser) (reply : Reply) (session : Session) :
    Prop where
  due : session.due = Stroke.afterProcess
    (Connection.respond { Connection.fresh.accept peer with parser } reply).1
  akin : (Connection.respond { Connection.fresh.accept peer with parser } reply).2.Akin
    session.connection
  used : session.connection.input.used ≤ Connection.inputCapacity

variable {stream seen held : Bytes} {parser : Parser}

/-- What is held has a place. -/
theorem Listens.length_le (listens : session.Listens peer stream seen held parser) :
    held.length ≤ Connection.inputCapacity := by
  have whole := listens.input.length_add_room
  rw [listens.capacity] at whole
  omega

/-- Receiving does not fail, and brings more of the stream. -/
theorem Listens.receive (tree : FileTree) (root : Text)
    (listens : session.Listens peer stream seen held parser) (due : session.due = some .read) :
    ∃ count input rest taken,
      Connection.receive session.socket.incoming session.connection.input 0 =
        (.ok count, input, rest) ∧
      session.connection.isOpen = true ∧ session.connection.input.room ≠ 0 ∧
      (session.beat tree root).Listens peer stream held (held ++ taken) parser ∧
      (session.beat tree root).due = some .process ∧
      (session.beat tree root).socket.incoming = rest ∧
      (rest = [] ∨ rest.length < session.socket.incoming.length ∨
        (held ++ taken).length = Connection.inputCapacity) := by
  obtain ⟨-, rfl, room⟩ | wrong := listens.due
  · obtain ⟨count, input, rest, taken, received, holds, size, calm, cut, progress⟩ :=
      Connection.receive_of_calm listens.calm listens.input 0
    have opened : session.connection.isOpen = true := congrArg Connection.isOpen listens.akin.eq
    have spacious : session.connection.input.room ≠ 0 := by
      have whole := listens.input.length_add_room
      rw [listens.capacity] at whole
      omega
    rw [listens.capacity] at size progress
    refine ⟨count, input, rest, taken, received, opened, spacious, ?_⟩
    rw [beat_read due opened spacious received]
    refine ⟨⟨listens.akin.receives input, holds, size, calm, listens.waiting,
      List.prefix_append seen taken, ?_, .inr rfl⟩, rfl, rfl, progress⟩
    rw [List.append_assoc, cut, listens.whole]
  · cases due.symm.trans wrong

/-- The parser comes to the verdict that it would come to on everything held at once. -/
theorem Listens.advance?_eq (listens : session.Listens peer stream seen held parser) :
    session.connection.parser.advance? session.connection.input.contents =
      (Parser.fresh Connection.inputCapacity).advance? held := by
  have current : session.connection.parser = parser :=
    congrArg Connection.parser listens.akin.eq
  obtain ⟨more, rfl⟩ := listens.part
  rw [current, listens.input.contents]
  exact Parser.advance?_append_of_incomplete (Parser.inside_fresh _ seen) listens.waiting more

/-- Working on what is held gives the verdict on it.  A request that is incomplete is
waited for unless the buffer is full, and any other verdict gets its reply. -/
theorem Listens.work (tree : FileTree) (root : Text)
    (listens : session.Listens peer stream seen held parser) (due : session.due = some .process) :
    ∃ verdict next, (Parser.fresh Connection.inputCapacity).advance? held = some (verdict, next) ∧
      (verdict = .incomplete ∧ held.length < Connection.inputCapacity ∧
          (session.beat tree root).Listens peer stream held held next ∧
          (session.beat tree root).due = some .read ∧
          (session.beat tree root).socket = session.socket ∨
        (verdict = .incomplete → held.length = Connection.inputCapacity) ∧
          (session.connection.processed tree root).1 ≠ .needMore ∧
          (session.beat tree root).Replied peer next
            (Connection.finalReply tree root next.url verdict)) := by
  have inside := Parser.inside_fresh Connection.inputCapacity held
  obtain ⟨verdict, next, result⟩ := Parser.advance?_isSome inside.ordered held
  refine ⟨verdict, next, result, ?_⟩
  have advanced := listens.advance?_eq.trans result
  have akin := listens.akin.parses next
  have bounded := listens.length_le
  by_cases waits : verdict = .incomplete ∧ held.length < Connection.inputCapacity
  · obtain ⟨rfl, room⟩ := waits
    have processed := Connection.process?_of_room tree root advanced (by rwa [listens.input.used])
    refine .inl ⟨rfl, room, ?_⟩
    rw [beat_process due processed]
    exact ⟨⟨akin, listens.input, listens.capacity, listens.calm, result, List.prefix_refl held,
      listens.whole, .inl ⟨rfl, rfl, room⟩⟩, rfl, rfl⟩
  · have full : verdict = .incomplete → held.length = Connection.inputCapacity := by
      intro incomplete
      have := not_and.1 waits incomplete
      omega
    have processed := Connection.process?_of_final tree root advanced fun incomplete => by
      rw [listens.input.used]
      exact Nat.le_of_eq (full incomplete).symm
    obtain ⟨same, akinToo⟩ := akin.respond (Connection.finalReply tree root next.url verdict)
    have kept := (Connection.respond_keeps { session.connection with parser := next }
      (Connection.finalReply tree root next.url verdict)).1
    refine .inr ⟨full, ?_, ?_⟩
    · rw [Connection.processed, processed]
      exact Connection.respond_ne_needMore _ _
    · rw [beat_process due processed]
      refine ⟨congrArg Stroke.afterProcess same.symm, akinToo, ?_⟩
      refine Nat.le_trans (Nat.le_of_eq (congrArg Buffer.used kept)) ?_
      rwa [listens.input.used]

/-! ## All calls -/

/-- After the answer was made nothing more is received. -/
theorem Replied.ended {reply : Reply} (replied : session.Replied peer parser reply) :
    session.due ≠ some .read ∧ session.due ≠ some .process := by
  rw [replied.due]
  have some := Connection.respond_ne_needMore
    { Connection.fresh.accept peer with parser } reply
  generalize (Connection.respond { Connection.fresh.accept peer with parser } reply).1 = outcome
    at some
  cases outcome with
  | needMore => exact (some rfl).elim
  | respond | close => exact ⟨by simp [Stroke.afterProcess], by simp [Stroke.afterProcess]⟩

theorem listen_of_replied {reply : Reply} (replied : session.Replied peer parser reply)
    (calls : Nat) : session.listen tree root calls = session := by
  cases calls with
  | zero => rfl
  | succ calls =>
      obtain ⟨noRead, noWork⟩ := replied.ended
      rw [listen, if_neg (by simp [noRead, noWork])]

/-- A session that waits for the rest of a stream, or has made an answer. -/
def Follows (peer : Address) (stream : Bytes) (session : Session) : Prop :=
  (∃ seen held parser, session.Listens peer stream seen held parser) ∨
    ∃ parser reply, session.Replied peer parser reply

/-- A call leaves a session following its stream. -/
theorem Listens.beat (listens : session.Listens peer stream seen held parser) :
    (session.beat tree root).Follows peer stream := by
  rcases listens.due with ⟨due, -⟩ | due
  · obtain ⟨_, _, _, taken, -, -, -, more, -⟩ := listens.receive tree root due
    exact .inl ⟨_, _, _, more⟩
  · obtain ⟨verdict, next, -, ⟨-, -, more, -⟩ | ⟨-, -, replied⟩⟩ :=
      listens.work tree root due
    · exact .inl ⟨_, _, _, more⟩
    · exact .inr ⟨_, _, replied⟩

theorem Follows.listen (follows : session.Follows peer stream) (calls : Nat) :
    (session.listen tree root calls).Follows peer stream := by
  induction calls generalizing session with
  | zero => exact follows
  | succ calls ih =>
      rcases follows with ⟨_, _, _, listens⟩ | ⟨parser, reply, replied⟩
      · rw [Session.listen]
        split
        · exact ih listens.beat
        · exact .inl ⟨_, _, _, listens⟩
      · rw [listen_of_replied replied]
        exact .inr ⟨parser, reply, replied⟩

/-- After two calls for each answer of the socket, a front part of the stream that fits in
the buffer was answered, for the verdict on it or because it fills the buffer, or the
whole stream is incomplete and does not fill the buffer. -/
theorem Listens.settles {calls : Nat} (tree : FileTree) (root : Text)
    (listens : session.Listens peer stream held held parser) (due : session.due = some .read)
    (enough : 2 * session.socket.incoming.length ≤ calls) :
    (∃ front verdict next, front <+: stream ∧ front.length ≤ Connection.inputCapacity ∧
        (Parser.fresh Connection.inputCapacity).advance? front = some (verdict, next) ∧
        (verdict = .incomplete → front.length = Connection.inputCapacity) ∧
        (session.listen tree root calls).Replied peer next
          (Connection.finalReply tree root next.url verdict)) ∨
      stream.length < Connection.inputCapacity ∧
        ∃ next, (Parser.fresh Connection.inputCapacity).advance? stream =
          some (.incomplete, next) := by
  induction size : session.socket.incoming.length using Nat.strongRecOn
    generalizing session held parser calls with
  | ind count ih =>
      by_cases spent : session.socket.incoming = []
      · have whole := listens.whole
        rw [spent] at whole
        obtain ⟨-, -, room⟩ | wrong := listens.due
        · have all : held = stream := (List.append_nil held).symm.trans whole
          subst all
          exact .inr ⟨room, parser, listens.waiting⟩
        · cases due.symm.trans wrong
      · have some := List.length_pos_iff.2 spent
        obtain ⟨rounds, rfl⟩ := Nat.exists_eq_add_of_le (show 2 ≤ calls by omega)
        obtain ⟨_, _, rest, taken, -, -, -, more, works, left, progress⟩ :=
          listens.receive tree root due
        obtain ⟨verdict, next, result, goesOn⟩ := more.work tree root works
        have twice : session.listen tree root (2 + rounds) =
            ((session.beat tree root).beat tree root).listen tree root rounds := by
          rw [Nat.add_comm, listen, if_pos (.inl due), listen, if_pos (.inr works)]
        rw [twice]
        rcases goesOn with ⟨rfl, room, again, dueAgain, socket⟩ | ⟨full, -, replied⟩
        · have fewer : rest.length < session.socket.incoming.length := by
            rcases progress with none | fewer | filled
            · rwa [none]
            · exact fewer
            · omega
          have now : ((session.beat tree root).beat tree root).socket.incoming = rest := by
            rw [socket, left]
          exact ih rest.length (size ▸ fewer) again dueAgain (by rw [now]; omega) (by rw [now])
        · refine .inl ⟨held ++ taken, verdict, next, ?_, more.length_le, result, full, ?_⟩
          · exact ⟨_, more.whole⟩
          · rwa [listen_of_replied replied]

/-! ## From the start -/

/-- What a client is sent for a reply is made, and is going to be sent. -/
structure Ready (reply : Reply) (keepAlive : Bool) (session : Session) : Prop where
  due : session.due = some .write
  status : session.connection.status = some reply.status
  unsent : session.connection.unsent = reply.text keepAlive ++ reply.body
  keepAlive : session.connection.keepAlive = keepAlive

/-- On a new connection, a reply with a body of machine size gets its answer. -/
theorem Replied.ready {reply : Reply} (replied : session.Replied peer parser reply)
    (small : reply.body.length < Decimal.wordBound) :
    session.Ready reply (reply.status.allowsKeepAlive && parser.keepAlive) := by
  obtain ⟨due, akin, -⟩ := replied
  have size : { Connection.fresh.accept peer with parser }.output.capacity =
      Response.defaultCapacity := Connection.sized_fresh.capacity_output
  obtain ⟨next, responded, answers⟩ := Connection.respond_of_fits fun keepAlive =>
    Nat.le_trans (reply.length_text_le small keepAlive) (Nat.le_of_eq size.symm)
  rw [responded] at due akin
  have keepAlive := answers.keepAlive
  have same := akin.eq
  constructor
  · exact due
  · exact (congrArg Connection.status same).trans answers.status
  · rw [← akin.unsent_eq, answers.unsent_eq rfl, keepAlive]
  · exact (congrArg Connection.keepAlive same).trans keepAlive

/-- While a session follows its stream, receiving succeeds, and more bytes are only asked
for while there is room. -/
theorem Follows.roomy (follows : session.Follows peer stream) :
    session.connection.input.used ≤ Connection.inputCapacity ∧
      (session.due = some .read → ∃ count,
        (session.connection.read session.socket).1 = .ok count) ∧
      (session.due = some .process → (session.connection.processed tree root).1 = .needMore →
        session.connection.input.used < Connection.inputCapacity) := by
  rcases follows with ⟨seen, held, parser, listens⟩ | ⟨parser, reply, replied⟩
  · have used := listens.input.used
    refine ⟨used ▸ listens.length_le, fun due => ?_, fun due asks => ?_⟩
    · obtain ⟨count, _, _, _, received, opened, spacious, -⟩ :=
        listens.receive tree root due
      refine ⟨count, ?_⟩
      simp only [Connection.read, opened, spacious, received, Bool.not_true, Bool.false_eq_true,
        ↓reduceIte]
    · obtain ⟨_, _, -, ⟨-, room, -⟩ | ⟨-, ends, -⟩⟩ := listens.work tree root due
      · rwa [used]
      · exact (ends asks).elim
  · obtain ⟨noRead, noWork⟩ := replied.ended
    exact ⟨replied.used, fun due => (noRead due).elim, fun due => (noWork due).elim⟩

/-- A request that fits in the buffer is answered with its own answer, whatever is behind
it in the stream. -/
theorem Listens.answers {calls : Nat} {request : Bytes} {url : Text} {lines : List Bytes}
    (listens : session.Listens peer stream held held parser) (due : session.due = some .read)
    (enough : 2 * session.socket.incoming.length ≤ calls)
    (whole : Grammar.Whole request url lines) (fits : request.length ≤ Connection.inputCapacity)
    (begins : request <+: stream)
    (small : (Reply.ofPath tree root url).body.length < Decimal.wordBound) :
    (session.listen tree root calls).Ready (.ofPath tree root url)
      ((Reply.ofPath tree root url).status.allowsKeepAlive &&
        (Grammar.Request.of url lines).keepAlive) := by
  obtain ⟨last, known, complete⟩ := whole.complete fits
  have wholeStream : (Parser.fresh Connection.inputCapacity).advance? stream =
      some (.complete, last) := by
    obtain ⟨more, rfl⟩ := begins
    exact complete more
  rcases listens.settles tree root due enough with
    ⟨front, verdict, next, part, inside, result, full, replied⟩ | ⟨-, next, waits⟩
  · -- What is answered has arrived whole: a shorter front part would not fill the buffer.
    have arrived : request <+: front := by
      refine List.prefix_of_prefix_length_le begins part (Nat.le_of_not_lt fun shorter => ?_)
      have inFront := List.prefix_of_prefix_length_le part begins (Nat.le_of_lt shorter)
      obtain ⟨other, waits⟩ := whole.incomplete fits inFront shorter
      cases result.symm.trans waits
      have := full rfl
      omega
    obtain ⟨more, rfl⟩ := arrived
    cases result.symm.trans (complete more)
    have sameUrl : last.url = url := congrArg Grammar.Request.url known
    have sameKeepAlive : last.keepAlive = (Grammar.Request.of url lines).keepAlive :=
      congrArg Grammar.Request.keepAlive known
    rw [Connection.finalReply, sameUrl] at replied
    rw [← sameKeepAlive]
    exact replied.ready small
  · cases wholeStream.symm.trans waits

/-- A stream that begins with nothing that fits in the buffer is refused. -/
theorem Listens.refuses {calls : Nat} (listens : session.Listens peer stream held held parser)
    (due : session.due = some .read) (enough : 2 * session.socket.incoming.length ≤ calls)
    (oversized : Grammar.Oversized Connection.inputCapacity stream) :
    (session.listen tree root calls).Ready (.refuse .badRequest) false := by
  rcases listens.settles tree root due enough with
    ⟨front, verdict, next, ⟨more, rfl⟩, inside, result, -, replied⟩ | ⟨room, next, waits⟩
  · have incomplete : verdict ≠ .complete := by
      rintro rfl
      have within := (Parser.Course.of_advance? result).cursor_le (Parser.inside_fresh _ front)
      have beyond := oversized.cursor_gt
        (Parser.advance?_append_of_decided (Parser.inside_fresh _ front) result (by simp) more)
      omega
    have refused : Connection.finalReply tree root next.url verdict = .refuse .badRequest := by
      cases verdict with
      | complete => exact (incomplete rfl).elim
      | malformed | incomplete => rfl
    rw [refused] at replied
    exact replied.ready (by decide)
  · have := oversized.limit_le waits
    omega

end Session

end FileServer
