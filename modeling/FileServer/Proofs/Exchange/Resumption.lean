import FileServer.Proofs.Exchange.History

/-!
# Resumed sending

An answer goes out in as many calls as the socket wants.  Between two calls a
connection keeps one number, how many bytes are sent; where to go on in the head
and in the file follows from it.

The invariant compares the connection with the one the answer was made on: the
head is the same, the file is the same or given up, and the socket has taken the
first bytes of the answer, as many as are counted.  A file that was given up
makes the rest of the answer shorter, so the socket still takes a front part of
what is left, and the answer is never counted as finished by it.
-/

namespace FileServer.Connection

variable {tree : FileTree} {root : Text}

/-- The first bytes of a list together with some that follow are the first bytes. -/
theorem take_add_length {whole more : Bytes} {count : Nat} (front : more <+: whole.drop count) :
    whole.take (count + more.length) = whole.take count ++ more := by
  obtain ⟨tail, equal⟩ := front
  rw [List.take_add, ← equal, List.take_left]

/-- An answer that was just made: the bytes to send are counted, there are some,
and none is sent. -/
structure Made (built : Connection) : Prop where
  toSend : built.toSend = built.answer.length
  nonempty : 0 < built.toSend
  haveSent : built.haveSent = 0

/-- Where the file is known, an answer that a connection makes is counted right. -/
theorem Mapped.made {before built : Connection} (mapped : before.Mapped tree root)
    (processed : before.process? tree root = some (.respond, built)) : built.Made := by
  obtain ⟨verdict, parser, advanced, worked⟩ := process?_cases processed
  have parsed := mapped.advance advanced
  rcases worked with ⟨wrong, -⟩ | ⟨reply, replied, responded⟩
  · cases wrong
  · rcases respond_cases { before with parser } reply with
      ⟨next, answered, answers⟩ | ⟨next, refused, -⟩
    · cases responded.symm.trans answered
      have body := (answers.file_eq parsed replied).1
      have head : built.output.used = built.output.contents.length := by
        rw [answers.head.used, answers.head.contents]
      have whole : built.toSend = built.answer.length := by
        rw [answers.toSend, answer, List.length_append, body, head]
      refine ⟨whole, ?_, answers.haveSent⟩
      rw [answers.toSend, answers.head.used]
      have := List.length_pos_iff.2 (reply.text_ne_nil built.keepAlive)
      omega
    · cases responded.symm.trans refused

/-- An answer that a connection makes is counted right, whatever the connection
has been through. -/
theorem History.made {start before built : Connection}
    (history : History tree root start before) (unmapped : start.file = none)
    (processed : before.process? tree root = some (.respond, built)) : built.Made :=
  (history.mapped unmapped).made processed

/-- A connection in the course of sending an answer. -/
structure Sends (built connection : Connection) : Prop where
  output : connection.output = built.output
  toSend : connection.toSend = built.toSend
  file : connection.file = built.file ∨ connection.file = none
  bounded : connection.haveSent ≤ built.toSend

/-- What is left to send is a front part of the rest of the answer. -/
theorem Sends.unsent_prefix {built connection : Connection} (sends : built.Sends connection) :
    connection.unsent <+: built.answer.drop connection.haveSent := by
  rw [unsent, answer, answer, sends.output]
  rcases sends.file with kept | gone
  · simp only [kept, List.prefix_rfl]
  · rw [gone, Option.getD_none, List.append_nil, List.drop_append]
    exact List.prefix_append _ _

/-- Counting a front part of the rest of the answer stays within the answer. -/
theorem Sends.count_le {built connection : Connection} (sends : built.Sends connection)
    (made : built.Made) {taken : Bytes} (front : taken <+: connection.unsent) :
    connection.haveSent + taken.length ≤ built.toSend := by
  have short := (front.trans sends.unsent_prefix).length_le
  have := sends.bounded
  rw [List.length_drop, ← made.toSend] at short
  omega

/-- Sending takes the next bytes of the answer and counts them, and it finishes
the answer exactly with its last byte. -/
theorem Transmission.resumes {built before after : Connection} {outcome : Written}
    {taken : Bytes} (sent : Transmission before outcome after taken) (made : built.Made)
    (sends : built.Sends before) :
    taken <+: built.answer.drop before.haveSent ∧
      (outcome ≠ .keepAlive →
        built.Sends after ∧ after.haveSent = before.haveSent + taken.length) ∧
      (outcome = .keepAlive ∨ outcome = .close ↔
        before.haveSent < built.toSend ∧ before.haveSent + taken.length = built.toSend) := by
  induction sent with
  | again =>
      refine ⟨List.nil_prefix, fun _ => ⟨sends, rfl⟩, ?_⟩
      simp only [reduceCtorEq, or_self, List.length_nil, false_iff]
      omega
  | @gaveUp connection =>
      refine ⟨List.nil_prefix, fun _ => ⟨?_, rfl⟩, ?_⟩
      · exact ⟨sends.output, sends.toSend, .inr rfl, sends.bounded⟩
      · simp only [reduceCtorEq, or_self, List.length_nil, false_iff]
        omega
  | @finished connection next outcome taken front nonempty advanced =>
      have bound := sends.count_le made front
      have positive := List.length_pos_iff.2 nonempty
      have total := sends.toSend
      refine ⟨front.trans sends.unsent_prefix, ?_⟩
      rcases advance_cases connection taken.length with ⟨-, goesOn⟩ | ⟨enough, final⟩
      · cases advanced.symm.trans goesOn
      · have last : connection.haveSent < built.toSend ∧
            connection.haveSent + taken.length = built.toSend := by omega
        rcases final with ⟨-, startsOver⟩ | ⟨-, closes⟩
        · cases advanced.symm.trans startsOver
          exact ⟨fun other => (other rfl).elim, fun _ => last, fun _ => .inl rfl⟩
        · cases advanced.symm.trans closes
          exact ⟨fun _ => ⟨⟨sends.output, sends.toSend, .inr rfl, bound⟩, rfl⟩,
            fun _ => last, fun _ => .inr rfl⟩
  | @goesOn connection next last outcome taken more front nonempty advanced rest ih =>
      have bound := sends.count_le made front
      have positive := List.length_pos_iff.2 nonempty
      have total := sends.toSend
      rcases advance_cases connection taken.length with ⟨unfinished, goesOn⟩ | ⟨-, final⟩
      · cases advanced.symm.trans goesOn
        obtain ⟨frontMore, stays, finishes⟩ :=
          ih ⟨sends.output, sends.toSend, sends.file, bound⟩
        dsimp only at frontMore stays finishes
        rw [List.length_append, ← Nat.add_assoc]
        refine ⟨?_, stays, finishes.trans ?_⟩
        · obtain ⟨tail, whole⟩ := front.trans sends.unsent_prefix
          rw [← List.drop_drop, ← whole, List.drop_left] at frontMore
          rw [← whole]
          exact (List.prefix_append_right_inj taken).2 frontMore
        · omega
      · rcases final with ⟨-, startsOver⟩ | ⟨-, closes⟩
        · cases advanced.symm.trans startsOver
        · cases advanced.symm.trans closes

/-- Any number of calls that send an answer.  Between two calls the socket may
get any answers ready; a call after which the connection has started over is not
followed by another. -/
inductive Sending (built : Connection) (taken : Bytes) : Connection → Socket → Prop
  | ready {socket : Socket} (before : socket.sent = taken) : Sending built taken built socket
  | call {connection next : Connection} {socket armed after : Socket} {outcome : Written}
      (sending : Sending built taken connection socket) (same : armed.sent = socket.sent)
      (written : connection.write armed = (outcome, next, after))
      (again : outcome ≠ .keepAlive) : Sending built taken next after

/-- The socket has taken the bytes of the answer that are counted. -/
theorem Sending.sent {built connection : Connection} {taken : Bytes} {socket : Socket}
    (sending : Sending built taken connection socket) (made : built.Made) :
    built.Sends connection ∧
      socket.sent = taken ++ built.answer.take connection.haveSent := by
  induction sending with
  | ready before =>
      refine ⟨⟨rfl, rfl, .inl rfl, ?_⟩, ?_⟩
      · rw [made.haveSent]
        exact Nat.zero_le built.toSend
      · rw [made.haveSent, List.take_zero, List.append_nil, before]
  | @call connection next socket armed after outcome _ same written again ih =>
      obtain ⟨sends, counted⟩ := ih
      rcases write_cases written with
        ⟨-, -, rfl, rfl⟩ | ⟨-, wrong, -⟩ | ⟨-, -, more, sent, total⟩
      · exact ⟨sends, same.trans counted⟩
      · exact (again wrong).elim
      · obtain ⟨front, stays, -⟩ := sent.resumes made sends
        obtain ⟨sendsOn, count⟩ := stays again
        refine ⟨sendsOn, ?_⟩
        rw [total, same, counted, count, take_add_length front, List.append_assoc]

/-- Sending resumes exactly where it stopped.  Let a connection that began without
a file make an answer, and let it be sent by any number of calls, whatever the
socket answers them.  The socket has taken the first bytes of head and file, as
many as the connection counts, and never more than there are to send.  A further
call reports the answer as sent exactly if the socket has taken its last byte in
it. -/
theorem exact_resumption {start before built connection : Connection} {taken : Bytes}
    {socket : Socket} (history : History tree root start before)
    (unmapped : start.file = none)
    (processed : before.process? tree root = some (.respond, built))
    (sending : Sending built taken connection socket) :
    connection.toSend = built.answer.length ∧ connection.haveSent ≤ connection.toSend ∧
      socket.sent = taken ++ built.answer.take connection.haveSent ∧
      ∀ armed next after outcome, armed.sent = socket.sent →
        connection.write armed = (outcome, next, after) →
        (outcome = .keepAlive ∨ outcome = .close ↔
          connection.haveSent < connection.toSend ∧ after.sent = taken ++ built.answer) := by
  have made := history.made unmapped processed
  obtain ⟨sends, counted⟩ := sending.sent made
  have total := sends.toSend.trans made.toSend
  refine ⟨total, sends.toSend ▸ sends.bounded, counted, ?_⟩
  intro armed next after outcome same written
  have short : ∀ count, count < built.answer.length →
      taken ++ built.answer.take count ≠ taken ++ built.answer := by
    intro count fewer equal
    have lengths := congrArg List.length (List.append_cancel_left equal)
    rw [List.length_take] at lengths
    omega
  rcases write_cases written with
    ⟨-, rfl, rfl, rfl⟩ | ⟨idle, -⟩ | ⟨-, -, more, sent, grown⟩
  · simp only [reduceCtorEq, or_self, false_iff, not_and]
    intro unfinished
    rw [same, counted]
    exact short next.haveSent (by omega)
  · have := made.nonempty
    have := sends.toSend
    omega
  · obtain ⟨front, -, finishes⟩ := sent.resumes made sends
    have reached : after.sent =
        taken ++ built.answer.take (connection.haveSent + more.length) := by
      rw [grown, same, counted, List.append_assoc, take_add_length front]
    rw [finishes, sends.toSend, reached]
    constructor
    · rintro ⟨unfinished, all⟩
      exact ⟨unfinished, by rw [all, made.toSend, List.take_length]⟩
    · rintro ⟨unfinished, all⟩
      refine ⟨unfinished, ?_⟩
      have bound := front.length_le
      rw [List.length_drop, ← made.toSend] at bound
      have enough : ¬connection.haveSent + more.length < built.answer.length :=
        fun fewer => short (connection.haveSent + more.length) fewer all
      have := made.toSend
      omega

/-- A request for a file of two bytes that was received whole. -/
def smallRequest : Connection :=
  { fresh with
    isOpen := true
    input := ⟨utf8 "GET /a HTTP/1.1\r\n\r\n", 19⟩
    output := .ofCapacity 128 }

/-- The parser behind the small request. -/
def smallParser : Parser :=
  { smallRequest.parser with
    phase := .headers, cursor := 19, lineStart := 19
    url := "/a".toList, version := protocolVersion }

/-- A document of two bytes. -/
def smallTree : FileTree :=
  { rootMode := 0o755, entries := [(["a".toList], .file ⟨[104, 105], 0o644, none⟩)] }

/-- The answer to the small request. -/
def smallAnswer : Connection :=
  ({ smallRequest with parser := smallParser }.respond (.serve [104, 105])).2

theorem advance?_smallRequest :
    smallRequest.parser.advance? smallRequest.input.contents = some (.complete, smallParser) := by
  apply Parser.Course.advance?_eq
  apply Parser.Course.goOn (by decide) rfl rfl rfl
  exact Parser.Course.decide (by decide) rfl rfl rfl (by decide)

theorem process?_smallRequest :
    smallRequest.process? smallTree [] = some (.respond, smallAnswer) := by
  rw [process?, advance?_smallRequest]
  decide +kernel

/-- Five bytes of an answer are sent with an interruption in between, before the
socket is full; the next call sends the rest. -/
theorem exact_resumption_small :
    ∃ connection next socket after,
      Sending smallAnswer [] connection socket ∧ connection.haveSent = 5 ∧
      socket.sent = smallAnswer.answer.take 5 ∧
      connection.write socket = (.close, next, after) ∧ after.sent = smallAnswer.answer := by
  have first : smallAnswer.write
      ⟨[], [.accept 3, .failure .interrupted, .accept 2, .failure .wouldBlock], []⟩ =
      (.again, { smallAnswer with haveSent := 5 }, ⟨[], [], smallAnswer.answer.take 5⟩) := by
    decide +kernel
  have second : ({ smallAnswer with haveSent := 5 } : Connection).write
      ⟨[], [], smallAnswer.answer.take 5⟩ =
      (.close, { smallAnswer with haveSent := smallAnswer.toSend, file := none },
        ⟨[], [], smallAnswer.answer⟩) := by
    decide +kernel
  have sending : Sending smallAnswer [] { smallAnswer with haveSent := 5 }
      ⟨[], [], smallAnswer.answer.take 5⟩ :=
    .call (.ready rfl) rfl first (by decide)
  obtain ⟨-, -, sent, finishes⟩ :=
    exact_resumption .start rfl process?_smallRequest sending
  rw [List.nil_append] at sent
  have sentAll := ((finishes _ _ _ _ rfl second).1 (.inr rfl)).2
  rw [List.nil_append] at sentAll
  exact ⟨_, _, _, _, sending, rfl, sent, second, sentAll⟩

end FileServer.Connection
