import FileServer.Proofs.Exchange.Delivery
import FileServer.Proofs.Request.Whole
import Mathlib.Data.List.Forall2

/-!
# Streams of requests

A client that keeps its connection sends one request after the other.  The session
answers them in order, however the bytes are cut into reads, and whatever the socket
takes at a time, with one condition: each request has to begin a read of its own.
An answer that is sent makes the connection start over, and what was read behind the
end of its request is forgotten then.  So of two requests that arrive in one read
the second is lost.
-/

namespace FileServer

namespace Session

/-- Makes the call that is due. -/
def beat (tree : FileTree) (root : Text) (session : Session) : Session :=
  match session.due with
  | some stroke => session.make tree root stroke
  | none => session

/-- Goes on in the cycle until something is to be received, for at most so many
calls. -/
def goOn (tree : FileTree) (root : Text) : Nat → Session → Session
  | 0, session => session
  | calls + 1, session =>
      if session.due = some .read then session
      else (session.beat tree root).goOn tree root calls

/-- What a call that receives finds is received and worked on, and an answer is
sent.  Each call that sends, but for the last one, takes an answer of the socket. -/
def deliver (tree : FileTree) (root : Text) (session : Session) (answers : List Receive) :
    Session :=
  let fed := session.feed answers []
  (fed.beat tree root).goOn tree root (fed.socket.outgoing.length + 2)

/-- The number of answers that were sent whole, with the connection left open. -/
def answered (session : Session) : Nat :=
  session.outcomes.count (.written .keepAlive)

/-- What was sent between two moments of a session, in how many answers. -/
structure Sends (before after : Session) (bytes : Bytes) (answers : Nat) : Prop where
  sent : after.socket.sent = before.socket.sent ++ bytes
  answered : after.answered = before.answered + answers

variable {tree : FileTree} {root : Text} {session : Session}

theorem Sends.trans {first second third : Session} {bytes more : Bytes} {answers others : Nat}
    (early : first.Sends second bytes answers) (late : second.Sends third more others) :
    first.Sends third (bytes ++ more) (answers + others) where
  sent := by rw [late.sent, early.sent, List.append_assoc]
  answered := by rw [late.answered, early.answered, Nat.add_assoc]

theorem goOn_of_read (waiting : session.due = some .read) (calls : Nat) :
    session.goOn tree root calls = session := by
  cases calls with
  | zero => rfl
  | succ calls => rw [goOn, if_pos waiting]

/-- A call that receives, where there is room. -/
theorem beat_read {result : Except IoErrorKind Nat} {input : Buffer} {rest : List Receive}
    (due : session.due = some .read) (opened : session.connection.isOpen = true)
    (spacious : session.connection.input.room ≠ 0)
    (received : Connection.receive session.socket.incoming session.connection.input 0 =
      (result, input, rest)) :
    session.beat tree root = { session with
      connection := { session.connection with input }
      socket := { session.socket with incoming := rest }
      due := Stroke.afterRead result } := by
  simp only [beat, due, make, read, Connection.read, opened, spacious, received, Bool.not_true,
    Bool.false_eq_true, ↓reduceIte]

/-- A call that works on what was received. -/
theorem beat_process {outcome : Processed} {connection : Connection}
    (due : session.due = some .process)
    (processed : session.connection.process? tree root = some (outcome, connection)) :
    session.beat tree root = { session with
      connection
      due := Stroke.afterProcess outcome
      outcomes := session.outcomes ++ [.processed outcome] } := by
  simp only [beat, due, make, process, Connection.processed, processed, Option.getD_some]

/-! ## Sending an answer -/

/-- A session in the middle of an answer, with a socket that takes bytes. -/
structure Answers (session : Session) : Prop where
  due : session.due = some .write
  answering : session.connection.Answering
  willing : ∀ answer ∈ session.socket.outgoing, answer.Willing

/-- A call that sends leaves less of the answer and fewer answers of the socket, or
it sends the rest, and the connection has started over. -/
theorem Answers.beat (answers : session.Answers) :
    ∃ next, session.beat tree root = next ∧ next.socket.incoming = session.socket.incoming ∧
      ((∃ taken, next.Answers ∧ next.connection.reset = session.connection.reset ∧
          next.socket.outgoing.length < session.socket.outgoing.length ∧
          session.Sends next taken 0 ∧
          session.connection.unsent = taken ++ next.connection.unsent) ∨
        next.due = some .read ∧ next.connection = session.connection.reset ∧
          (∀ answer ∈ next.socket.outgoing, answer.Willing) ∧
          session.Sends next session.connection.unsent 1) := by
  obtain ⟨due, answering, willing⟩ := answers
  obtain ⟨outcome, next, taken, rest, sent, willingToo, ends⟩ := answering.transmit willing
  have nonzero : session.connection.toSend ≠ 0 := by
    have := answering.unfinished
    omega
  have beaten : session.beat tree root = { session with
      connection := next
      socket := { session.socket with outgoing := rest, sent := session.socket.sent ++ taken }
      due := Stroke.afterWrite outcome
      outcomes := session.outcomes ++ [.written outcome] } := by
    simp only [Session.beat, due, make, write, Connection.write, answering.isOpen, nonzero, sent,
      Bool.not_true, Bool.false_eq_true, ↓reduceIte]
  refine ⟨_, beaten, rfl, ?_⟩
  rcases ends with ⟨rfl, fewer, more, same, cut⟩ | ⟨rfl, rfl, cut⟩
  · exact .inl ⟨taken, ⟨rfl, more, willingToo⟩, same, fewer, ⟨rfl, by simp [answered]⟩, cut⟩
  · exact .inr ⟨rfl, rfl, willingToo, by rw [cut], by simp [answered]⟩

/-- An answer is sent whole in as many calls as the socket wants. -/
theorem Answers.goOn {calls : Nat} (answers : session.Answers)
    (enough : session.socket.outgoing.length < calls) :
    (session.goOn tree root calls).due = some .read ∧
      (session.goOn tree root calls).connection = session.connection.reset ∧
      (session.goOn tree root calls).socket.incoming = session.socket.incoming ∧
      (∀ answer ∈ (session.goOn tree root calls).socket.outgoing, answer.Willing) ∧
      session.Sends (session.goOn tree root calls) session.connection.unsent 1 := by
  induction calls generalizing session with
  | zero => omega
  | succ calls ih =>
      obtain ⟨next, beaten, incoming, ends⟩ := @Answers.beat tree root session answers
      rw [Session.goOn, if_neg (by simp [answers.due]), beaten]
      rcases ends with ⟨taken, more, same, fewer, gained, cut⟩ | ⟨due, anew, willing, gained⟩
      · obtain ⟨due, anew, incomingToo, willing, rest⟩ := ih more (by omega)
        refine ⟨due, anew.trans same, incomingToo.trans incoming, willing, ?_⟩
        rw [cut]
        exact gained.trans rest
      · rw [goOn_of_read due]
        exact ⟨due, anew, incoming, willing, gained⟩

/-! ## Waiting for a request -/

/-- A session in the middle of a request: its parser has come so far, some bytes are
received, and a call is due.  The socket has nothing to bring, and takes what it is
sent. -/
structure Engaged (peer : Address) (parser : Parser) (held : Bytes) (stroke : Stroke)
    (session : Session) : Prop where
  akin : { Connection.fresh.accept peer with parser }.Akin session.connection
  parser : parser.capacity = Connection.inputCapacity
  input : session.connection.input.Holds held
  capacity : session.connection.input.capacity = Connection.inputCapacity
  due : session.due = some stroke
  quiet : ∀ answer ∈ session.socket.incoming, answer.Brings
  nothing : arrived session.socket.incoming = []
  willing : ∀ answer ∈ session.socket.outgoing, answer.Willing

variable {peer : Address} {parser : Parser} {held : Bytes}

/-- A session at its start waits for its first request. -/
theorem engaged_start {outgoing : List Transmit}
    (willing : ∀ answer ∈ outgoing, answer.Willing) :
    (start peer outgoing).Engaged peer (.fresh Connection.inputCapacity) [] .read where
  akin := .mk (Buffer.holds_clear _).refl
  parser := rfl
  input := Buffer.holds_clear _
  capacity := Connection.capacity_withCapacity _ _
  due := rfl
  quiet := by simp [start, opened]
  nothing := rfl
  willing := willing

/-- What arrives is received behind the bytes that are held. -/
theorem Engaged.read (engaged : session.Engaged peer parser held .read) {answers : List Receive}
    (brings : ∀ answer ∈ answers, answer.Brings)
    (fits : (held ++ arrived answers).length ≤ Connection.inputCapacity)
    (room : held.length < Connection.inputCapacity) :
    ∃ next, (session.feed answers []).beat tree root = next ∧
      next.Engaged peer parser (held ++ arrived answers) .process ∧ session.Sends next [] 0 ∧
      next.socket.outgoing = session.socket.outgoing := by
  have all : arrived (session.socket.incoming ++ answers) = arrived answers := by
    rw [arrived_append, engaged.nothing, List.nil_append]
  have size := engaged.capacity
  obtain ⟨count, input, rest, received, holds, capacity, quiet, nothing⟩ :=
    Connection.receive_of_brings (List.forall_mem_append.2 ⟨engaged.quiet, brings⟩) engaged.input
      (by rwa [all, size]) 0
  have spacious : session.connection.input.room ≠ 0 := by
    have whole := engaged.input.length_add_room
    omega
  have opened : session.connection.isOpen = true := congrArg Connection.isOpen engaged.akin.eq
  refine ⟨_, beat_read engaged.due opened spacious received, ?_, ?_, ?_⟩
  · rw [← all]
    refine ⟨engaged.akin.receives input, engaged.parser, holds, capacity.trans size, rfl, quiet,
      nothing, ?_⟩
    exact List.forall_mem_append.2 ⟨engaged.willing, by simp⟩
  · exact ⟨(List.append_nil _).symm, rfl⟩
  · exact List.append_nil _

/-- A request that has not arrived whole is waited for. -/
theorem Engaged.needMore (engaged : session.Engaged peer parser held .process) {next : Parser}
    (advanced : parser.advance? held = some (.incomplete, next))
    (room : held.length < Connection.inputCapacity) :
    ∃ last, session.beat tree root = last ∧ last.Engaged peer next held .read ∧
      session.Sends last [] 0 := by
  have current : session.connection.parser = parser :=
    congrArg Connection.parser engaged.akin.eq
  have small : session.connection.input.used < Connection.inputCapacity := by
    rwa [engaged.input.used]
  have processed : session.connection.process? tree root =
      some (.needMore, { session.connection with parser := next }) := by
    simp only [Connection.process?, current, engaged.input.contents, advanced, Connection.reply?,
      small, ↓reduceIte]
  refine ⟨_, beat_process engaged.due processed, ?_, ?_⟩
  · have size := (Parser.Course.of_advance? advanced).capacity_eq
    exact ⟨engaged.akin.parses next, size.trans engaged.parser, engaged.input, engaged.capacity,
      rfl, engaged.quiet, engaged.nothing, engaged.willing⟩
  · exact ⟨(List.append_nil _).symm, by simp [answered]⟩

end Session

/-! ## Requests -/

/-- A new connection that has received some bytes. -/
def Connection.holding (peer : Address) (bytes : Bytes) : Connection :=
  let accepted := Connection.fresh.accept peer
  { accepted with input := accepted.input.store bytes }

/-- A whole request that fits and asks to keep the connection open.  On its own it
is answered with a document, or with the answer that there is none or that it is
forbidden. -/
structure Proper (tree : FileTree) (root : Text) (peer : Address) (request : Bytes) : Prop where
  whole : ∃ url lines, Grammar.Whole request url lines ∧
    (Grammar.Request.of url lines).keepAlive = true
  fits : request.length ≤ Connection.inputCapacity
  resolved : ∃ built,
    (Connection.holding peer request).process? tree root = some (.respond, built) ∧
    (built.status = some .ok ∨ built.status = some .forbidden ∨ built.status = some .notFound)

namespace Connection

variable {tree : FileTree} {root : Text} {peer : Address} {request : Bytes}

theorem allowsKeepAlive_of_status {status : Status}
    (resolved : some status = some .ok ∨ some status = some .forbidden ∨
      some status = some .notFound) : status.allowsKeepAlive = true := by
  rcases resolved with same | same | same <;> cases same <;> rfl

/-- A connection that starts over is like a new one that takes the same socket. -/
theorem akin_reset {connection : Connection} (opened : connection.isOpen = true)
    (samePeer : connection.peer = some peer)
    (parser : connection.parser.capacity = inputCapacity)
    (output : connection.output.capacity = Response.defaultCapacity) :
    Akin { fresh.accept peer with parser := .fresh inputCapacity } connection.reset := by
  have same : connection.reset = { fresh.accept peer with
      parser := .fresh inputCapacity
      input := connection.input.clear
      output := connection.output.clear } := by
    simp only [Connection.reset, opened, samePeer, Parser.reset, parser]
    rfl
  rw [same]
  apply Akin.mk
  apply Buffer.alike_clear
  rw [output]
  exact Buffer.capacity_ofCapacity _

/-- The answer that is made for a request: what the parser concludes, whatever is
received behind the request, and the connection with the answer. -/
structure Answerable (tree : FileTree) (root : Text) (peer : Address) (request : Bytes)
    (parser : Parser) (built : Connection) : Prop where
  complete : ∀ more, (Parser.fresh inputCapacity).advance? (request ++ more) =
    some (.complete, parser)
  responded : respond { holding peer request with parser } (.ofPath tree root parser.url) =
    (.respond, built)
  keepsAlive : ((Reply.ofPath tree root parser.url).status.allowsKeepAlive &&
    parser.keepAlive) = true

end Connection

section

open Connection

variable {tree : FileTree} {root : Text} {peer : Address} {request : Bytes}

/-- A proper request has an answer, which leaves the connection open. -/
theorem Proper.answerable (proper : Proper tree root peer request) :
    ∃ parser built, Answerable tree root peer request parser built := by
  obtain ⟨⟨url, lines, whole, asked⟩, fits, built, processed, resolved⟩ := proper
  obtain ⟨parser, known, complete⟩ := whole.complete fits
  have room : request.length ≤ (fresh.accept peer).input.room := by
    change request.length ≤ (withCapacity fresh.input inputCapacity).capacity - 0
    rwa [capacity_withCapacity]
  have holds : (holding peer request).input.Holds request := (Buffer.holds_clear _).store room
  have advanced := complete []
  rw [List.append_nil] at advanced
  have responded : respond { holding peer request with parser } (.ofPath tree root parser.url) =
      (.respond, built) := by
    have current : (holding peer request).parser = .fresh inputCapacity := rfl
    simp only [process?, holds.contents, current, advanced, reply?, Option.some.injEq] at processed
    exact processed
  refine ⟨parser, built, complete, responded, ?_⟩
  rcases respond_cases { holding peer request with parser } (.ofPath tree root parser.url) with
    ⟨next, answered, answers⟩ | ⟨next, refused, -⟩
  · cases responded.symm.trans answered
    rw [answers.status] at resolved
    have keeps : parser.keepAlive = true :=
      (congrArg Grammar.Request.keepAlive known).trans asked
    rw [allowsKeepAlive_of_status resolved, keeps]
    rfl
  · cases responded.symm.trans refused

end

namespace Session

variable {tree : FileTree} {root : Text} {peer : Address} {request held : Bytes}
variable {session : Session} {earlier parser : Parser} {built : Connection}

/-- A request that has arrived whole is answered. -/
theorem Engaged.respond (engaged : session.Engaged peer earlier held .process)
    (advanced : earlier.advance? held = some (.complete, parser))
    (answerable : Connection.Answerable tree root peer request parser built) :
    ∃ next, session.beat tree root = next ∧ next.Answers ∧ built.Akin next.connection ∧
      session.Sends next [] 0 ∧ next.socket = session.socket ∧
      Connection.Akin { Connection.fresh.accept peer with
        parser := .fresh Connection.inputCapacity } next.connection.reset ∧
      next.connection.input.capacity = Connection.inputCapacity := by
  have akin : Connection.Akin { Connection.holding peer request with parser }
      { session.connection with parser } :=
    (engaged.akin.parses parser).received (Connection.holding peer request).input
  obtain ⟨outcome, akinToo⟩ := akin.respond (.ofPath tree root parser.url)
  obtain ⟨⟨result, next⟩, responded⟩ : ∃ result, Connection.respond
      { session.connection with parser } (.ofPath tree root parser.url) = result := ⟨_, rfl⟩
  rw [answerable.responded, responded] at outcome akinToo
  cases outcome
  have accepted := engaged.akin.eq
  have processed : session.connection.process? tree root = some (.respond, next) := by
    have current : session.connection.parser = earlier := congrArg Connection.parser accepted
    simp only [Connection.process?, current, engaged.input.contents, advanced, Connection.reply?,
      responded]
  have unmapped : session.connection.Mapped tree root :=
    Connection.mapped_of_none (congrArg Connection.file accepted)
  have made := unmapped.made processed
  obtain ⟨input, opened, samePeer⟩ := Connection.respond_keeps
    { session.connection with parser } (.ofPath tree root parser.url)
  have sizes := Connection.keepsSizes_process processed
  rw [responded] at input opened samePeer
  have isOpen : next.isOpen = true := opened.trans (congrArg Connection.isOpen accepted)
  have keepAlive : next.keepAlive = true := by
    rcases Connection.respond_cases { session.connection with parser }
      (.ofPath tree root parser.url) with ⟨other, answered, answers⟩ | ⟨other, refused, -⟩
    · cases responded.symm.trans answered
      exact answers.keepAlive.trans answerable.keepsAlive
    · cases responded.symm.trans refused
  refine ⟨_, beat_process engaged.due processed, ?_, akinToo, ?_, rfl, ?_, ?_⟩
  · refine ⟨rfl, ⟨isOpen, keepAlive, made.toSend, ?_⟩, engaged.willing⟩
    rw [made.haveSent]
    exact made.nonempty
  · exact ⟨(List.append_nil _).symm, by simp [answered]⟩
  · apply Connection.akin_reset isOpen (samePeer.trans (congrArg Connection.peer accepted))
    · rw [sizes.parser, accepted]
      exact engaged.parser
    · rw [sizes.output, ← engaged.akin.output_eq.capacity]
      exact Connection.sized_fresh.capacity_output
  · exact (congrArg Buffer.capacity input).trans engaged.capacity

/-- A read that does not bring the end of the request is followed by another. -/
theorem Engaged.wait (engaged : session.Engaged peer earlier held .read) {answers : List Receive}
    (brings : ∀ answer ∈ answers, answer.Brings)
    (room : (held ++ arrived answers).length < Connection.inputCapacity)
    (advanced : earlier.advance? (held ++ arrived answers) = some (.incomplete, parser)) :
    (session.deliver tree root answers).Engaged peer parser (held ++ arrived answers) .read ∧
      session.Sends (session.deliver tree root answers) [] 0 := by
  have roomBefore : held.length < Connection.inputCapacity := by
    rw [List.length_append] at room
    omega
  obtain ⟨middle, received, holds, nothing, -⟩ :=
    @Engaged.read tree root _ _ _ _ engaged _ brings (Nat.le_of_lt room) roomBefore
  obtain ⟨last, worked, waits, nothingToo⟩ := @Engaged.needMore tree root _ _ _ _ holds _ advanced
    room
  have delivered : session.deliver tree root answers = last := by
    simp only [deliver]
    rw [received, Session.goOn, if_neg (by simp [holds.due]), worked, goOn_of_read waits.due]
  rw [delivered]
  exact ⟨waits, nothing.trans nothingToo⟩

/-- The read that brings the end of the request is followed by the answer. -/
theorem Engaged.finish (engaged : session.Engaged peer earlier held .read)
    {answers : List Receive} (brings : ∀ answer ∈ answers, answer.Brings)
    (fits : (held ++ arrived answers).length ≤ Connection.inputCapacity)
    (room : held.length < Connection.inputCapacity)
    (advanced : earlier.advance? (held ++ arrived answers) = some (.complete, parser))
    (answerable : Connection.Answerable tree root peer request parser built) :
    (session.deliver tree root answers).Engaged peer (.fresh Connection.inputCapacity) [] .read ∧
      session.Sends (session.deliver tree root answers) built.unsent 1 := by
  obtain ⟨middle, received, holds, nothing, outgoing⟩ :=
    @Engaged.read tree root _ _ _ _ engaged _ brings fits room
  obtain ⟨next, worked, answering, akin, nothingToo, socket, anew, capacity⟩ :=
    holds.respond advanced answerable
  obtain ⟨due, connection, incoming, willing, sent⟩ :=
    @Answers.goOn tree root next (session.socket.outgoing.length + 1) answering
      (by rw [socket, outgoing]; exact Nat.lt_succ_self _)
  have delivered : session.deliver tree root answers =
      next.goOn tree root (session.socket.outgoing.length + 1) := by
    simp only [deliver]
    rw [received, Session.goOn, if_neg (by simp [holds.due]), worked]
    simp [feed, Socket.script]
  rw [delivered]
  constructor
  · rw [socket] at incoming
    refine ⟨?_, rfl, ?_, ?_, due, ?_, ?_, willing⟩
    · rw [connection]
      exact anew
    · rw [connection]
      exact Buffer.holds_clear _
    · rw [connection]
      exact capacity
    · rw [incoming]
      exact holds.quiet
    · rw [incoming]
      exact holds.nothing
  · rw [akin.unsent_eq]
    exact (nothing.trans nothingToo).trans sent

end Session

/-- Some reads bring the rest of a request, of which a part is held.  The last of them
brings the end of the request, and it may bring more; all of it fits. -/
structure Delivers (held request : Bytes) (reads : List (List Receive)) : Prop where
  brings : ∀ answers ∈ reads, ∀ answer ∈ answers, answer.Brings
  whole : request <+: held ++ arrived reads.flatten
  fits : (held ++ arrived reads.flatten).length ≤ Connection.inputCapacity
  short : (held ++ arrived reads.dropLast.flatten).length < request.length

namespace Session

variable {tree : FileTree} {root : Text} {peer : Address} {request held : Bytes}
variable {session : Session} {earlier parser : Parser} {built : Connection}

/-- However a request is cut into reads, it is answered, and the session waits for the
next request as it did for this one. -/
theorem Engaged.exchange {url : Text} {lines : List Bytes} {reads : List (List Receive)}
    (engaged : session.Engaged peer earlier held .read)
    (waiting : (Parser.fresh Connection.inputCapacity).advance? held = some (.incomplete, earlier))
    (whole : Grammar.Whole request url lines) (small : request.length ≤ Connection.inputCapacity)
    (answerable : Connection.Answerable tree root peer request parser built)
    (delivers : Delivers held request reads) :
    (reads.foldl (deliver tree root) session).Engaged peer (.fresh Connection.inputCapacity) []
        .read ∧
      session.Sends (reads.foldl (deliver tree root) session) built.unsent 1 := by
  have goesOn (more : Bytes) : earlier.advance? (held ++ more) =
      (Parser.fresh Connection.inputCapacity).advance? (held ++ more) :=
    Parser.advance?_append_of_incomplete (Parser.inside_fresh _ held) waiting more
  induction reads generalizing session held earlier with
  | nil =>
      have front := delivers.whole.length_le
      have short := delivers.short
      simp only [List.flatten_nil, List.dropLast_nil] at front short
      omega
  | cons answers rest ih =>
      obtain ⟨first, others⟩ := List.forall_mem_cons.1 delivers.brings
      cases rest with
      | nil =>
          obtain ⟨extra, equal⟩ := delivers.whole
          have fits := delivers.fits
          have short := delivers.short
          simp only [List.flatten_cons, List.flatten_nil, List.append_nil, List.dropLast_singleton]
            at equal fits short
          apply engaged.finish first fits _ _ answerable
          · have nothing : arrived [] = [] := rfl
            rw [nothing, List.append_nil] at short
            omega
          · rw [goesOn, ← equal]
            exact answerable.complete extra
      | cons second more =>
          -- The read brings no more than a front part of the request.
          have short := delivers.short
          simp only [List.dropLast_cons_cons, List.flatten_cons, arrived_append,
            ← List.append_assoc] at short
          have shorter : (held ++ arrived answers).length < request.length := by
            rw [List.length_append] at short
            omega
          have front : held ++ arrived answers <+: request := by
            apply List.prefix_of_prefix_length_le _ delivers.whole (Nat.le_of_lt shorter)
            rw [List.flatten_cons, arrived_append, ← List.append_assoc]
            exact List.prefix_append _ _
          obtain ⟨next, stops⟩ := whole.incomplete small front shorter
          obtain ⟨waits, nothing⟩ := engaged.wait first (by omega) ((goesOn _).trans stops)
          have later : Delivers (held ++ arrived answers) request (second :: more) := by
            refine ⟨others, ?_, ?_, short⟩
            · simpa only [List.flatten_cons, arrived_append, List.append_assoc] using delivers.whole
            · simpa only [List.flatten_cons, arrived_append, List.append_assoc] using delivers.fits
          obtain ⟨free, sent⟩ := ih waits stops later fun more =>
            Parser.advance?_append_of_incomplete (Parser.inside_fresh _ _) stops more
          exact ⟨free, nothing.trans sent⟩

/-- What is sent to a client that sends one request, all of it at once, to a socket that
takes everything. -/
def alone (tree : FileTree) (root : Text) (peer : Address) (request : Bytes) : Bytes :=
  ((start peer []).deliver tree root [.data request]).socket.sent

/-- The answer that is made for a request is the one that the request gets alone. -/
theorem alone_eq {url : Text} {lines : List Bytes}
    (whole : Grammar.Whole request url lines) (small : request.length ≤ Connection.inputCapacity)
    (answerable : Connection.Answerable tree root peer request parser built) :
    alone tree root peer request = built.unsent := by
  have some : request ≠ [] := by
    rintro rfl
    cases (answerable.complete []).symm.trans (Parser.advance?_fresh_nil _)
  have brought : arrived [.data request] = request := List.append_nil request
  have atOnce : Delivers [] request [[.data request]] := by
    constructor
    · simpa [Receive.Brings] using some
    · simp [brought]
    · simpa [brought] using small
    · simpa [arrived] using List.length_pos_iff.2 some
  have started : (start peer []).Engaged peer (.fresh Connection.inputCapacity) [] .read :=
    engaged_start (by simp)
  obtain ⟨-, sent⟩ := started.exchange (Parser.advance?_fresh_nil _) whole small answerable atOnce
  have noneBefore : (start peer []).socket.sent = [] := rfl
  have all := sent.sent
  rw [noneBefore, List.nil_append, List.foldl_cons, List.foldl_nil] at all
  exact all

/-- Requests that each begin a read of their own are answered one after the other. -/
theorem Engaged.stream {requests : List Bytes} {groups : List (List (List Receive))}
    (engaged : session.Engaged peer (.fresh Connection.inputCapacity) [] .read)
    (proper : ∀ request ∈ requests, Proper tree root peer request)
    (delivers : List.Forall₂ (Delivers []) requests groups) :
    (groups.flatten.foldl (deliver tree root) session).Engaged peer
        (.fresh Connection.inputCapacity) [] .read ∧
      session.Sends (groups.flatten.foldl (deliver tree root) session)
        (requests.map (alone tree root peer)).flatten requests.length := by
  induction delivers generalizing session with
  | nil => exact ⟨engaged, (List.append_nil _).symm, rfl⟩
  | @cons request reads requests groups first others ih =>
      obtain ⟨good, goodToo⟩ := List.forall_mem_cons.1 proper
      obtain ⟨url, lines, whole, -⟩ := good.whole
      obtain ⟨parser, built, answerable⟩ := good.answerable
      obtain ⟨free, sent⟩ :=
        engaged.exchange (Parser.advance?_fresh_nil _) whole good.fits answerable first
      obtain ⟨last, rest⟩ := ih free goodToo
      rw [List.flatten_cons, List.foldl_append, List.map_cons, List.flatten_cons,
        List.length_cons, Nat.add_comm, alone_eq whole good.fits answerable]
      exact ⟨last, sent.trans rest⟩

/-- The requests of a stream are answered in order, each with the answer that it gets
alone, if each of them begins a read of its own, however it is cut into reads and whatever
the socket takes at a time. -/
theorem stream_answered {requests : List Bytes} {groups : List (List (List Receive))}
    {outgoing : List Transmit} (proper : ∀ request ∈ requests, Proper tree root peer request)
    (delivers : List.Forall₂ (Delivers []) requests groups)
    (willing : ∀ answer ∈ outgoing, answer.Willing) :
    ∃ last, groups.flatten.foldl (deliver tree root) (start peer outgoing) = last ∧
      last.socket.sent = (requests.map (alone tree root peer)).flatten ∧
      last.answered = requests.length ∧ last.due = some .read := by
  obtain ⟨free, sent⟩ := (engaged_start willing).stream proper delivers
  exact ⟨_, rfl, sent.sent.trans (List.nil_append _), sent.answered.trans (Nat.zero_add _),
    free.due⟩

/-- A request for a document of two bytes. -/
def documentRequest : Bytes :=
  utf8 "GET /a HTTP/1.1\r\nConnection: keep-alive\r\n\r\n"

/-- A request with a body, for a document that is not there. -/
def bodyRequest : Bytes :=
  utf8 "GET /b HTTP/1.1\nConnection: Keep-Alive\nContent-Length: 2\n\nhi"

/-- One request after the other. -/
def smallRequests : List Bytes :=
  [documentRequest, bodyRequest]

/-- A client on another machine. -/
def smallPeer : Address := ⟨.short [10, 0, 0, 1], 4000⟩

theorem proper_smallRequests :
    ∀ request ∈ smallRequests, Proper Connection.smallTree [] smallPeer request := by
  have fits : ∀ request ∈ smallRequests, request.length ≤ Connection.inputCapacity := by
    decide +kernel
  have advanced : ∀ request ∈ smallRequests,
      (((Parser.fresh Connection.inputCapacity).advance? request).any fun result =>
        result.1 = .complete ∧ result.2.cursor = request.length ∧ result.2.keepAlive) = true := by
    decide +kernel
  have answered : ∀ request ∈ smallRequests,
      (((Connection.holding smallPeer request).process? Connection.smallTree []).any
        fun result => result.1 = .respond ∧ (result.2.status = some .ok ∨
          result.2.status = some .forbidden ∨ result.2.status = some .notFound)) = true := by
    decide +kernel
  intro request member
  obtain ⟨⟨verdict, parser⟩, found, ends⟩ := Option.any_eq_true _ _ |>.1 (advanced request member)
  obtain ⟨⟨outcome, built⟩, made, resolved⟩ :=
    Option.any_eq_true _ _ |>.1 (answered request member)
  simp only [decide_eq_true_eq] at ends resolved
  obtain ⟨rfl, ending, keeps⟩ := ends
  obtain ⟨rfl, status⟩ := resolved
  obtain ⟨url, lines, whole, known⟩ := Grammar.whole_of_advance? found ending
  constructor
  · exact ⟨url, lines, whole, (congrArg Grammar.Request.keepAlive known).symm.trans keeps⟩
  · exact fits request member
  · exact ⟨built, made, status⟩

/-- The first request arrives in three reads, with an interruption and a read that finds
nothing, and the second in two, with some bytes behind it. -/
def smallReads : List (List (List Receive)) :=
  [[[.data (utf8 "GET /a HT")], [],
      [.failure .interrupted, .data (utf8 "TP/1.1\r\nConnection: keep-alive\r\n\r\n")]],
    [[.data (utf8 "GET /b HTTP/1.1\nConnection: Keep-Alive\nContent-Length: 2\n")],
      [.data (utf8 "\n"), .data (utf8 "hi, and more")]]]

/-- Both requests are answered, by a socket that takes five bytes, then no more for a
while, and then the rest. -/
theorem stream_answered_small :
    List.Forall₂ (Delivers []) smallRequests smallReads ∧
      ∃ last, smallReads.flatten.foldl (deliver Connection.smallTree [])
          (start smallPeer [.accept 5, .failure .wouldBlock, .failure .interrupted]) = last ∧
        last.socket.sent = (smallRequests.map (alone Connection.smallTree [] smallPeer)).flatten ∧
        last.answered = smallRequests.length ∧ last.due = some .read := by
  have delivers : List.Forall₂ (Delivers []) smallRequests smallReads := by
    apply List.Forall₂.cons
    · exact ⟨by decide +kernel, by decide +kernel, by decide +kernel, by decide +kernel⟩
    apply List.Forall₂.cons
    · exact ⟨by decide +kernel, by decide +kernel, by decide +kernel, by decide +kernel⟩
    exact .nil
  exact ⟨delivers, stream_answered proper_smallRequests delivers (by decide)⟩

/-- Calls that find nothing to receive change nothing that a client notices. -/
theorem Engaged.idle (engaged : session.Engaged peer (.fresh Connection.inputCapacity) [] .read)
    (waits : Nat) :
    ((List.replicate waits []).foldl (deliver tree root) session).Engaged peer
        (.fresh Connection.inputCapacity) [] .read ∧
      session.Sends ((List.replicate waits []).foldl (deliver tree root) session) [] 0 := by
  induction waits generalizing session with
  | zero => exact ⟨engaged, (List.append_nil _).symm, rfl⟩
  | succ waits ih =>
      obtain ⟨still, nothing⟩ := @Engaged.wait tree root _ _ _ _ _ engaged [] (by simp)
        (by simp [arrived, Connection.inputCapacity]) (Parser.advance?_fresh_nil _)
      obtain ⟨last, rest⟩ := ih still
      exact ⟨last, nothing.trans rest⟩

/-- What a read brings behind the end of its request is never answered. -/
theorem rest_lost {reads : List (List Receive)} (proper : Proper tree root peer request)
    (delivers : Delivers [] request reads) (waits : Nat) :
    ∃ last, (reads ++ List.replicate waits []).foldl (deliver tree root) (start peer []) = last ∧
      last.socket.sent = alone tree root peer request ∧ last.answered = 1 := by
  have started : (start peer []).Engaged peer (.fresh Connection.inputCapacity) [] .read :=
    engaged_start (by simp)
  obtain ⟨url, lines, whole, -⟩ := proper.whole
  obtain ⟨parser, built, answerable⟩ := proper.answerable
  obtain ⟨free, sent⟩ :=
    started.exchange (Parser.advance?_fresh_nil _) whole proper.fits answerable delivers
  obtain ⟨-, nothing⟩ := @Engaged.idle tree root _ _ free waits
  have all := sent.trans nothing
  rw [List.append_nil, ← alone_eq whole proper.fits answerable, ← List.foldl_append] at all
  exact ⟨_, rfl, all.sent.trans (List.nil_append _), all.answered⟩

/-- Of two requests that arrive in one read the second is not answered, however long the
client waits. -/
theorem second_request_lost :
    (∀ request ∈ smallRequests, Proper Connection.smallTree [] smallPeer request) ∧
      ∀ waits, ∃ last, ([[Receive.data smallRequests.flatten]] ++ List.replicate waits []).foldl
          (deliver Connection.smallTree []) (start smallPeer []) = last ∧
        last.socket.sent ≠
          (smallRequests.map (alone Connection.smallTree [] smallPeer)).flatten ∧
        last.answered ≠ smallRequests.length := by
  refine ⟨proper_smallRequests, fun waits => ?_⟩
  obtain ⟨first, -⟩ := List.forall_mem_cons.1 proper_smallRequests
  have together : Delivers [] documentRequest [[.data smallRequests.flatten]] :=
    ⟨by decide +kernel, by decide +kernel, by decide +kernel, by decide +kernel⟩
  obtain ⟨last, reached, sent, answered⟩ := rest_lost first together waits
  refine ⟨last, reached, ?_, ?_⟩
  · have more : alone Connection.smallTree [] smallPeer documentRequest ≠
        (smallRequests.map (alone Connection.smallTree [] smallPeer)).flatten := by
      decide +kernel
    rwa [sent]
  · rw [answered]
    decide

end Session

end FileServer
