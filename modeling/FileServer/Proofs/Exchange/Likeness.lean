import FileServer.Proofs.Exchange.History

/-!
# Connections that differ out of sight

A connection keeps its buffers from one socket to the next, and clearing a buffer
does not erase its cells.  So what an earlier request, or an earlier client, has
left is still there.  Two connections are alike when they agree in everything but
the cells out of use.  No call looks at these cells: alike connections give the
same results on the same socket and stay alike.
-/

namespace FileServer

namespace Buffer

/-- The same bytes are in use, in blocks of the same size. -/
structure Alike (left right : Buffer) : Prop where
  capacity : left.capacity = right.capacity
  holds : ∃ bytes, left.Holds bytes ∧ right.Holds bytes

variable {left right : Buffer}

theorem Holds.alike {bytes : Bytes} (inLeft : left.Holds bytes) (inRight : right.Holds bytes)
    (capacity : left.capacity = right.capacity) : left.Alike right :=
  ⟨capacity, bytes, inLeft, inRight⟩

theorem Holds.refl {bytes : Bytes} (holds : left.Holds bytes) : left.Alike left :=
  holds.alike holds rfl

theorem alike_clear (capacity : left.capacity = right.capacity) : left.clear.Alike right.clear :=
  (holds_clear left).alike (holds_clear right) capacity

theorem Alike.contents_eq (alike : left.Alike right) : left.contents = right.contents := by
  obtain ⟨bytes, inLeft, inRight⟩ := alike.holds
  exact inLeft.contents.trans inRight.contents.symm

theorem Alike.used_eq (alike : left.Alike right) : left.used = right.used := by
  obtain ⟨bytes, inLeft, inRight⟩ := alike.holds
  exact inLeft.used.trans inRight.used.symm

theorem Alike.room_eq (alike : left.Alike right) : left.room = right.room := by
  rw [room, room, alike.capacity, alike.used_eq]

/-- What fits is behind the bytes in use. -/
theorem Holds.store {buffer : Buffer} {bytes more : Bytes} (holds : buffer.Holds bytes)
    (fits : more.length ≤ buffer.room) : (buffer.store more).Holds (bytes ++ more) where
  contents := by
    have inside := holds.used_le
    rw [contents_store, holds.contents]
    simp only [room] at fits
    omega
  used := by
    rw [Buffer.store, List.length_append, holds.used]

theorem Alike.store (alike : left.Alike right) {more : Bytes} (fits : more.length ≤ left.room) :
    (left.store more).Alike (right.store more) := by
  obtain ⟨bytes, inLeft, inRight⟩ := alike.holds
  apply (inLeft.store fits).alike (inRight.store (alike.room_eq ▸ fits))
  rw [capacity_store, capacity_store, alike.capacity]

/-! ## Appending -/

/-- Both calls were accepted, or both were refused, and the buffers stay alike. -/
def AlikeResults (left right : Bool × Buffer) : Prop :=
  left.1 = right.1 ∧ left.2.Alike right.2

theorem Alike.append (alike : left.Alike right) (pieces : List Bytes) :
    AlikeResults (left.append pieces) (right.append pieces) := by
  obtain ⟨capacity, bytes, inLeft, inRight⟩ := alike
  rcases Nat.lt_or_ge left.capacity (bytes ++ pieces.flatten).length with tooLong | fits
  · obtain ⟨next, refused, holds, size⟩ := inLeft.append_of_overflow tooLong
    obtain ⟨other, refusedToo, holdsToo, sizeToo⟩ := inRight.append_of_overflow (capacity ▸ tooLong)
    rw [refused, refusedToo]
    exact ⟨rfl, holds.alike holdsToo (by rw [size, sizeToo, capacity])⟩
  · obtain ⟨next, accepted, holds, size⟩ := inLeft.append_of_fits fits
    obtain ⟨other, acceptedToo, holdsToo, sizeToo⟩ := inRight.append_of_fits (capacity ▸ fits)
    rw [accepted, acceptedToo]
    exact ⟨rfl, holds.alike holdsToo (by rw [size, sizeToo, capacity])⟩

theorem AlikeResults.andThen {first other : Bool × Buffer} {second : Buffer → Bool × Buffer}
    (alike : AlikeResults first other)
    (rest : ∀ left right : Buffer, left.Alike right → AlikeResults (second left) (second right)) :
    AlikeResults (andThen first second) (andThen other second) := by
  obtain ⟨accepted, buffer⟩ := first
  obtain ⟨acceptedToo, bufferToo⟩ := other
  obtain ⟨same, buffers⟩ := alike
  cases same
  cases accepted with
  | true => exact rest buffer bufferToo buffers
  | false => exact ⟨rfl, buffers⟩

theorem Alike.appendHead (alike : left.Alike right) (status : Status) (bodyLength : Nat)
    (keepAlive : Bool) :
    AlikeResults (left.appendHead status bodyLength keepAlive)
      (right.appendHead status bodyLength keepAlive) :=
  (alike.append (Response.statusLine status)).andThen fun _ _ between =>
    between.append (Response.headers bodyLength keepAlive)

theorem Alike.appendError (alike : left.Alike right) (status : Status) (keepAlive : Bool) :
    AlikeResults (left.appendError status keepAlive) (right.appendError status keepAlive) :=
  (alike.appendHead status _ keepAlive).andThen fun _ _ between =>
    between.append [Response.errorBody status]

end Buffer

namespace Connection

/-- Two connections with the same answer.  What they have received may differ. -/
inductive Akin (left : Connection) : Connection → Prop
  | mk {input output : Buffer} (written : left.output.Alike output) :
      Akin left { left with input, output }

/-- Two connections that differ in cells out of use alone. -/
inductive Alike (left : Connection) : Connection → Prop
  | mk {input output : Buffer} (received : left.input.Alike input)
      (written : left.output.Alike output) : Alike left { left with input, output }

variable {left right : Connection}

theorem Alike.akin (alike : left.Alike right) : left.Akin right := by
  cases alike with
  | mk _ written => exact .mk written

theorem Akin.alike (akin : left.Akin right) (inputs : left.input.Alike right.input) :
    left.Alike right := by
  cases akin with
  | mk written => exact .mk inputs written

theorem Alike.input_eq (alike : left.Alike right) : left.input.Alike right.input := by
  cases alike
  assumption

theorem Akin.eq (akin : left.Akin right) :
    right = { left with input := right.input, output := right.output } := by
  cases akin
  rfl

/-- Whatever else is received. -/
theorem Akin.receives (akin : left.Akin right) (input : Buffer) :
    left.Akin { right with input } := by
  cases akin with
  | mk written => exact .mk written

theorem Akin.received (akin : left.Akin right) (input : Buffer) :
    Akin { left with input } right := by
  cases akin with
  | mk written => exact .mk written

theorem Akin.output_eq (akin : left.Akin right) : left.output.Alike right.output := by
  cases akin
  assumption

theorem Akin.parses (akin : left.Akin right) (parser : Parser) :
    Akin { left with parser } { right with parser } := by
  cases akin with
  | mk written => exact .mk written

/-- The same bytes are left to send. -/
theorem Akin.unsent_eq (akin : left.Akin right) : left.unsent = right.unsent := by
  cases akin with
  | mk written => rw [unsent, unsent, answer, answer, written.contents_eq]

/-- Starting over forgets what was received. -/
theorem Akin.reset (akin : left.Akin right) (sizes : left.input.capacity = right.input.capacity) :
    left.reset.Alike right.reset := by
  cases akin with
  | mk written => exact .mk (Buffer.alike_clear sizes) (Buffer.alike_clear written.capacity)

theorem Alike.reset (alike : left.Alike right) : left.reset.Alike right.reset :=
  alike.akin.reset alike.input_eq.capacity

/-! ## Calls -/

/-- Two calls with the same result, which do the same to the socket and leave alike
connections. -/
structure Agree {α : Type} (left right : α × Connection × Socket) : Prop where
  result : left.1 = right.1
  connection : left.2.1.Alike right.2.1
  socket : left.2.2 = right.2.2

theorem receive_alike (answers : List Receive) {left right : Buffer} (alike : left.Alike right)
    (total : Nat) :
    (receive answers left total).1 = (receive answers right total).1 ∧
      (receive answers left total).2.1.Alike (receive answers right total).2.1 ∧
      (receive answers left total).2.2 = (receive answers right total).2.2 := by
  induction answers generalizing left right total with
  | nil => exact ⟨rfl, alike, rfl⟩
  | cons answer rest ih =>
      have room := alike.room_eq
      simp only [receive, ← room]
      split
      · exact ⟨rfl, alike, rfl⟩
      · cases answer with
        | endOfStream => exact ⟨rfl, alike, rfl⟩
        | failure kind =>
            cases kind with
            | interrupted => exact ih alike total
            | _ => exact ⟨rfl, alike, rfl⟩
        | data bytes =>
            dsimp only
            split
            · exact ⟨rfl, alike, rfl⟩
            · split
              · next fits => exact ih (alike.store fits) (total + bytes.length)
              · refine ⟨rfl, alike.store ?_, rfl⟩
                rw [List.length_take]
                exact Nat.min_le_left _ _

theorem Alike.read (alike : left.Alike right) (socket : Socket) :
    Agree (left.read socket) (right.read socket) := by
  cases alike with
  | @mk input output received written =>
      have room := received.room_eq
      obtain ⟨result, buffers, answers⟩ := receive_alike socket.incoming received 0
      simp only [Connection.read, ← room]
      split
      · exact ⟨rfl, .mk received written, rfl⟩
      · split
        · exact ⟨rfl, .mk received written, rfl⟩
        · exact ⟨result, .mk buffers written, by rw [answers]⟩

/-- The same answer is made, or none, whatever was received. -/
theorem Akin.respond (akin : left.Akin right) (reply : Reply) :
    (left.respond reply).1 = (right.respond reply).1 ∧
      (left.respond reply).2.Akin (right.respond reply).2 := by
  cases akin with
  | @mk input output written =>
      have cleared := Buffer.alike_clear written.capacity
      cases reply with
      | serve content =>
          obtain ⟨same, buffers⟩ := cleared.appendHead .ok content.length
            (Status.ok.allowsKeepAlive && left.parser.keepAlive)
          simp only [Connection.respond, Reply.status, ready, ← same, buffers.used_eq]
          by_cases accepted : (left.output.clear.appendHead .ok content.length
              (Status.ok.allowsKeepAlive && left.parser.keepAlive)).1 = true
          · simp only [accepted, ↓reduceIte, true_and]
            exact .mk buffers
          · simp only [accepted, Bool.false_eq_true, ↓reduceIte, true_and]
            exact .mk buffers
      | refuse status =>
          obtain ⟨same, buffers⟩ := cleared.appendError status
            (status.allowsKeepAlive && left.parser.keepAlive)
          simp only [Connection.respond, Reply.status, ready, ← same, buffers.used_eq]
          by_cases accepted : (left.output.clear.appendError status
              (status.allowsKeepAlive && left.parser.keepAlive)).1 = true
          · simp only [accepted, ↓reduceIte, true_and]
            exact .mk buffers
          · simp only [accepted, Bool.false_eq_true, ↓reduceIte, true_and]
            exact .mk buffers

/-- An answer leaves the socket and the bytes received where they are. -/
theorem respond_keeps (connection : Connection) (reply : Reply) :
    (connection.respond reply).2.input = connection.input ∧
      (connection.respond reply).2.isOpen = connection.isOpen ∧
      (connection.respond reply).2.peer = connection.peer := by
  cases reply <;> simp only [respond] <;> split <;> exact ⟨rfl, rfl, rfl⟩

theorem Alike.respond (alike : left.Alike right) (reply : Reply) :
    (left.respond reply).1 = (right.respond reply).1 ∧
      (left.respond reply).2.Alike (right.respond reply).2 := by
  obtain ⟨same, akin⟩ := alike.akin.respond reply
  apply And.intro same
  apply akin.alike
  rw [(respond_keeps left reply).1, (respond_keeps right reply).1]
  exact alike.input_eq

theorem Alike.reply?_eq (alike : left.Alike right) (tree : FileTree) (root : Text)
    (verdict : Verdict) : left.reply? tree root verdict = right.reply? tree root verdict := by
  cases alike with
  | mk received => simp only [reply?, received.used_eq]

theorem Alike.process? (alike : left.Alike right) (tree : FileTree) (root : Text) :
    Option.Rel (fun mine other => mine.1 = other.1 ∧ mine.2.Alike other.2)
      (left.process? tree root) (right.process? tree root) := by
  cases alike with
  | @mk input output received written =>
      simp only [Connection.process?, ← received.contents_eq]
      cases left.parser.advance? left.input.contents with
      | none => exact .none
      | some result =>
          obtain ⟨verdict, parser⟩ := result
          have parsed : Alike { left with parser } { left with parser, input, output } :=
            .mk received written
          dsimp only
          rw [← parsed.reply?_eq]
          cases Connection.reply? { left with parser } tree root verdict with
          | none => exact .some ⟨rfl, parsed⟩
          | some reply => exact .some (parsed.respond reply)

theorem Alike.advance (alike : left.Alike right) (count : Nat) :
    (left.advance count).1 = (right.advance count).1 ∧
      (left.advance count).2.Alike (right.advance count).2 := by
  cases alike with
  | mk received written =>
      simp only [Connection.advance]
      split
      · exact ⟨rfl, .mk received written⟩
      · split
        · exact ⟨rfl, .reset (.mk received written)⟩
        · exact ⟨rfl, .mk received written⟩

theorem Alike.abandon (alike : left.Alike right) : left.abandon.2.Alike right.abandon.2 := by
  cases alike with
  | mk received written => exact .mk received written

/-- Sending goes the same way, and the same bytes are taken. -/
theorem Alike.transmit (answers : List Transmit) {left right : Connection}
    (alike : left.Alike right) :
    (transmit answers left).1 = (transmit answers right).1 ∧
      (transmit answers left).2.1.Alike (transmit answers right).2.1 ∧
      (transmit answers left).2.2 = (transmit answers right).2.2 := by
  induction answers generalizing left right with
  | nil =>
      obtain ⟨same, connections⟩ := alike.advance left.unsent.length
      simp only [Connection.transmit, ← alike.akin.unsent_eq]
      split
      · exact ⟨rfl, alike.abandon, rfl⟩
      · generalize left.advance left.unsent.length = mine at same connections
        generalize right.advance left.unsent.length = other at same connections
        obtain ⟨outcome?, next⟩ := mine
        obtain ⟨outcome?, nextToo⟩ := other
        cases same
        cases outcome? with
        | none => exact ⟨rfl, connections.abandon, rfl⟩
        | some outcome => exact ⟨rfl, connections, rfl⟩
  | cons answer rest ih =>
      cases answer with
      | failure kind =>
          cases kind with
          | interrupted => exact ih alike
          | wouldBlock => exact ⟨rfl, alike, rfl⟩
          | _ => exact ⟨rfl, alike.abandon, rfl⟩
      | accept count =>
          obtain ⟨same, connections⟩ := alike.advance (left.unsent.take count).length
          simp only [Connection.transmit, ← alike.akin.unsent_eq]
          split
          · exact ⟨rfl, alike.abandon, rfl⟩
          · generalize left.advance (left.unsent.take count).length = mine at same connections
            generalize right.advance (left.unsent.take count).length = other at same connections
            obtain ⟨outcome?, next⟩ := mine
            obtain ⟨outcome?, nextToo⟩ := other
            cases same
            cases outcome? with
            | some outcome => exact ⟨rfl, connections, rfl⟩
            | none =>
                obtain ⟨outcomes, last, remaining⟩ := ih connections
                exact ⟨outcomes, last, congrArg (fun sent : Bytes × List Transmit =>
                  (left.unsent.take count ++ sent.1, sent.2)) remaining⟩

theorem Alike.write (alike : left.Alike right) (socket : Socket) :
    Agree (left.write socket) (right.write socket) := by
  obtain ⟨outcomes, connections, answers⟩ := alike.transmit socket.outgoing
  have started := alike.reset
  cases alike with
  | mk received written =>
      simp only [Connection.write]
      split
      · exact ⟨rfl, .mk received written, rfl⟩
      · split
        · exact ⟨rfl, started, rfl⟩
        · exact ⟨outcomes, connections, congrArg (fun sent : Bytes × List Transmit =>
            { socket with outgoing := sent.2, sent := socket.sent ++ sent.1 }) answers⟩

end Connection

end FileServer
