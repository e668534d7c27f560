import FileServer.Exchange.Answering
import FileServer.Exchange.Reading
import FileServer.Proofs.Exchange.Transmission
import FileServer.Proofs.Request.Course
import FileServer.Proofs.Response.Appending

/-!
# What a connection has been through

A connection is used by calls in any order: it takes sockets, receives, works on
what it received, sends, starts over and closes.  The documents do not change
while one of them is in use, so a history is told for one tree and one root.

An answer leaves the file that it is sent from with the connection.  Serving an
empty file opens none and leaves the old one where it is, which would be wrong
if there were one.  There is none: behind the request line the url of a request
stays what it is, so the old file would be the empty one.
-/

namespace FileServer

namespace Reply

/-- The bytes that an answer starts with: the head, or a whole error answer. -/
def text (reply : Reply) (keepAlive : Bool) : Bytes :=
  match reply with
  | .serve content => Response.head .ok content.length keepAlive
  | .refuse status => Response.errorAnswer status keepAlive

/-- The bytes that are sent from a file. -/
def body : Reply → Bytes
  | .serve content => content
  | .refuse _ => []

/-- Every answer has a head. -/
theorem text_ne_nil (reply : Reply) (keepAlive : Bool) : reply.text keepAlive ≠ [] := by
  have start : ∃ rest, utf8 "HTTP/1.1 " = 72 :: rest := ⟨_, rfl⟩
  obtain ⟨rest, start⟩ := start
  cases reply with
  | serve content => simp [text, Response.head, Response.statusLine, start]
  | refuse status => simp [text, Response.errorAnswer, Response.head, Response.statusLine, start]

end Reply

namespace Connection

/-- The calls on a connection, in any order. -/
inductive History (tree : FileTree) (root : Text) (start : Connection) : Connection → Prop
  | start : History tree root start start
  | accept {connection : Connection} (history : History tree root start connection)
      (peer : Address) : History tree root start (connection.accept peer)
  | reset {connection : Connection} (history : History tree root start connection) :
      History tree root start connection.reset
  | close {connection : Connection} (history : History tree root start connection) :
      History tree root start connection.close
  | read {connection : Connection} (history : History tree root start connection)
      (socket : Socket) : History tree root start (connection.read socket).2.1
  | process {connection next : Connection} {outcome : Processed}
      (history : History tree root start connection)
      (processed : connection.process? tree root = some (outcome, next)) :
      History tree root start next
  | write {connection : Connection} (history : History tree root start connection)
      (socket : Socket) : History tree root start (connection.write socket).2.1

/-! ## Answers -/

/-- An answer was made from a reply: its head is in the output, and counters and
file are set for it.  The file is left alone when the content is empty. -/
structure Answers (before after : Connection) (reply : Reply) : Prop where
  head : after.output.Holds (reply.text after.keepAlive)
  keepAlive : after.keepAlive = (reply.status.allowsKeepAlive && before.parser.keepAlive)
  status : after.status = some reply.status
  fileSize : after.fileSize = reply.body.length
  toSend : after.toSend = after.output.used + reply.body.length
  haveSent : after.haveSent = 0
  parser : after.parser = before.parser
  isOpen : after.isOpen = before.isOpen
  file : after.file = some reply.body ∧ reply.body ≠ [] ∨
    (∃ status, reply = .refuse status) ∧ after.file = none ∨
    reply = .serve [] ∧ after.file = before.file

/-- An answer is made, or the connection is to be closed and has no file. -/
theorem respond_cases (connection : Connection) (reply : Reply) :
    (∃ next, connection.respond reply = (.respond, next) ∧ connection.Answers next reply) ∨
      ∃ next, connection.respond reply = (.close, next) ∧ next.file = none ∧
        next.parser = connection.parser := by
  have clear := Buffer.holds_clear connection.output
  cases reply with
  | serve content =>
      obtain ⟨⟨written, output⟩, appended⟩ : ∃ result, connection.output.clear.appendHead .ok
          content.length (Status.ok.allowsKeepAlive && connection.parser.keepAlive) = result :=
        ⟨_, rfl⟩
      cases written with
      | false =>
          right
          apply Exists.intro
          constructor
          · simp only [respond, Reply.status, appended, Bool.false_eq_true, ↓reduceIte]
            rfl
          · exact ⟨rfl, rfl⟩
      | true =>
          left
          apply Exists.intro
          constructor
          · simp only [respond, Reply.status, appended, ↓reduceIte]
            rfl
          · refine ⟨clear.appendHead_true appended, rfl, rfl, rfl, rfl, rfl, rfl, rfl, ?_⟩
            cases content with
            | nil => exact .inr (.inr ⟨rfl, rfl⟩)
            | cons byte rest => exact .inl ⟨rfl, List.cons_ne_nil byte rest⟩
  | refuse status =>
      obtain ⟨⟨written, output⟩, appended⟩ : ∃ result, connection.output.clear.appendError
          status (status.allowsKeepAlive && connection.parser.keepAlive) = result :=
        ⟨_, rfl⟩
      cases written with
      | false =>
          right
          apply Exists.intro
          constructor
          · simp only [respond, Reply.status, appended, Bool.false_eq_true, ↓reduceIte]
            rfl
          · exact ⟨rfl, rfl⟩
      | true =>
          left
          apply Exists.intro
          constructor
          · simp only [respond, Reply.status, appended, ↓reduceIte]
            rfl
          · exact ⟨clear.appendError_true appended, rfl, rfl, rfl, rfl, rfl, rfl, rfl,
              .inr (.inl ⟨⟨status, rfl⟩, rfl⟩)⟩

/-- What working on the received bytes does: more bytes are needed, or a reply is
answered. -/
theorem process?_cases {before after : Connection} {tree : FileTree} {root : Text}
    {outcome : Processed} (processed : before.process? tree root = some (outcome, after)) :
    ∃ verdict parser, before.parser.advance? before.input.contents = some (verdict, parser) ∧
      (outcome = .needMore ∧ verdict = .incomplete ∧ after = { before with parser } ∨
        ∃ reply, { before with parser }.reply? tree root verdict = some reply ∧
          { before with parser }.respond reply = (outcome, after)) := by
  unfold process? at processed
  split at processed
  · cases processed
  · next verdict parser advanced =>
      refine ⟨verdict, parser, advanced, ?_⟩
      dsimp only at processed
      split at processed
      · next waiting =>
          cases processed
          refine .inl ⟨rfl, ?_, rfl⟩
          cases verdict with
          | incomplete => rfl
          | complete | malformed => cases waiting
      · next reply found => exact .inr ⟨reply, found, Option.some.inj processed⟩

/-! ## The file of a connection -/

/-- A file that a connection has is the document that its request asks for, and
it is not empty. -/
def Mapped (tree : FileTree) (root : Text) (connection : Connection) : Prop :=
  ∀ content, connection.file = some content →
    content ≠ [] ∧ connection.parser.phase ≠ .requestLine ∧
      Reply.ofPath tree root connection.parser.url = .serve content

variable {tree : FileTree} {root : Text}

theorem mapped_of_none {connection : Connection} (none : connection.file = none) :
    connection.Mapped tree root := by
  intro content found
  cases none.symm.trans found

/-- More of the request does not change which document it asks for. -/
theorem Mapped.advance {connection : Connection} (mapped : connection.Mapped tree root)
    {parser : Parser} {verdict : Verdict}
    (advanced : connection.parser.advance? connection.input.contents = some (verdict, parser)) :
    { connection with parser }.Mapped tree root := by
  intro content found
  obtain ⟨filled, behind, asked⟩ := mapped content found
  obtain ⟨behindStill, sameUrl⟩ := (Parser.Course.of_advance? advanced).behind_requestLine behind
  exact ⟨filled, behindStill, by rwa [sameUrl]⟩

/-- A served document is the one that a complete request asks for. -/
theorem reply?_serve {connection : Connection} {verdict : Verdict} {content : Bytes}
    (replied : connection.reply? tree root verdict = some (.serve content)) :
    verdict = .complete ∧ Reply.ofPath tree root connection.parser.url = .serve content := by
  cases verdict with
  | complete => exact ⟨rfl, Option.some.inj replied⟩
  | malformed => cases replied
  | incomplete =>
      simp only [reply?] at replied
      split at replied <;> cases replied

/-- Where the file is known, an answer has the file that its reply asks for. -/
theorem Answers.file_eq {before after : Connection} {reply : Reply} {verdict : Verdict}
    (answers : before.Answers after reply) (mapped : before.Mapped tree root)
    (replied : before.reply? tree root verdict = some reply) :
    after.file.getD [] = reply.body ∧ (after.file ≠ none → after.file = some reply.body ∧
      reply.body ≠ []) := by
  rcases answers.file with ⟨served, filled⟩ | ⟨⟨status, rfl⟩, unmapped⟩ | ⟨rfl, kept⟩
  · rw [served]
    exact ⟨rfl, fun _ => ⟨rfl, filled⟩⟩
  · rw [unmapped]
    exact ⟨rfl, fun absent => (absent rfl).elim⟩
  · cases old : before.file with
    | none =>
        rw [kept, old]
        exact ⟨rfl, fun absent => (absent rfl).elim⟩
    | some content =>
        obtain ⟨filled, -, asked⟩ := mapped content old
        cases asked.symm.trans (reply?_serve replied).2
        exact (filled rfl).elim

/-- A call either leaves file and request alone or gives up the file. -/
def KeepsFile (before after : Connection) : Prop :=
  after.file = none ∨ after.file = before.file ∧ after.parser = before.parser

theorem KeepsFile.trans {before middle after : Connection} (first : before.KeepsFile middle)
    (second : middle.KeepsFile after) : before.KeepsFile after := by
  rcases second with gone | ⟨sameFile, sameParser⟩
  · exact .inl gone
  · rcases first with gone | ⟨middleFile, middleParser⟩
    · exact .inl (sameFile.trans gone)
    · exact .inr ⟨sameFile.trans middleFile, sameParser.trans middleParser⟩

theorem KeepsFile.mapped {before after : Connection} (keeps : before.KeepsFile after)
    (mapped : before.Mapped tree root) : after.Mapped tree root := by
  rcases keeps with gone | ⟨sameFile, sameParser⟩
  · exact mapped_of_none gone
  · intro content found
    rw [sameParser]
    exact mapped content (sameFile.symm.trans found)

/-- Receiving changes the input alone. -/
theorem read_eq (connection : Connection) (socket : Socket) :
    ∃ input, (connection.read socket).2.1 = { connection with input } := by
  unfold read
  split
  · exact ⟨connection.input, rfl⟩
  · split
    · exact ⟨connection.input, rfl⟩
    · exact ⟨_, rfl⟩

theorem keepsFile_read (connection : Connection) (socket : Socket) :
    connection.KeepsFile (connection.read socket).2.1 := by
  unfold read
  split
  · exact .inr ⟨rfl, rfl⟩
  · split
    · exact .inr ⟨rfl, rfl⟩
    · exact .inr ⟨rfl, rfl⟩

theorem keepsFile_advance (connection : Connection) (count : Nat) :
    connection.KeepsFile (connection.advance count).2 := by
  unfold advance
  dsimp only
  split
  · exact .inr ⟨rfl, rfl⟩
  · split
    · exact .inl rfl
    · exact .inl rfl

theorem Transmission.keepsFile {before after : Connection} {outcome : Written} {taken : Bytes}
    (sent : Transmission before outcome after taken) : before.KeepsFile after := by
  induction sent with
  | again => exact .inr ⟨rfl, rfl⟩
  | gaveUp => exact .inl rfl
  | @finished connection _ _ taken _ _ advanced =>
      have keeps := keepsFile_advance connection taken.length
      rwa [advanced] at keeps
  | @goesOn connection _ _ _ taken _ _ _ advanced _ ih =>
      have keeps := keepsFile_advance connection taken.length
      rw [advanced] at keeps
      exact keeps.trans ih

theorem keepsFile_write (connection : Connection) (socket : Socket) :
    connection.KeepsFile (connection.write socket).2.1 := by
  obtain ⟨⟨outcome, next, after⟩, written⟩ : ∃ result, connection.write socket = result :=
    ⟨_, rfl⟩
  rw [written]
  rcases write_cases written with
    ⟨-, -, rfl, -⟩ | ⟨-, -, rfl, -⟩ | ⟨-, -, taken, sent, -⟩
  · exact .inr ⟨rfl, rfl⟩
  · exact .inl rfl
  · exact sent.keepsFile

/-- Working on the received bytes leaves a known file behind, or none. -/
theorem Mapped.process {before after : Connection} {outcome : Processed}
    (mapped : before.Mapped tree root)
    (processed : before.process? tree root = some (outcome, after)) :
    after.Mapped tree root := by
  obtain ⟨verdict, parser, advanced, worked⟩ := process?_cases processed
  have parsed := mapped.advance advanced
  rcases worked with ⟨-, -, rfl⟩ | ⟨reply, replied, responded⟩
  · exact parsed
  · rcases respond_cases { before with parser } reply with
      ⟨next, answered, answers⟩ | ⟨next, refused, none, -⟩
    · cases responded.symm.trans answered
      intro content found
      obtain ⟨served, filled⟩ := (answers.file_eq parsed replied).2 (by simp [found])
      cases reply with
      | refuse status => exact (filled rfl).elim
      | serve body =>
          cases found.symm.trans served
          obtain ⟨rfl, asked⟩ := reply?_serve replied
          refine ⟨filled, ?_, ?_⟩
          · rw [answers.parser]
            exact (Parser.Course.of_advance? advanced).complete_behind
          · rw [answers.parser]
            exact asked
    · cases responded.symm.trans refused
      exact mapped_of_none none

/-- Whatever a connection that began without a file has been through, its file is
the document that its request asks for. -/
theorem History.mapped {start connection : Connection}
    (history : History tree root start connection) (unmapped : start.file = none) :
    connection.Mapped tree root := by
  induction history with
  | start => exact mapped_of_none unmapped
  | accept => exact mapped_of_none rfl
  | reset => exact mapped_of_none rfl
  | close => exact mapped_of_none rfl
  | @read connection _ socket ih => exact (keepsFile_read connection socket).mapped ih
  | process _ processed ih => exact ih.process processed
  | @write connection _ socket ih => exact (keepsFile_write connection socket).mapped ih

end Connection

end FileServer
