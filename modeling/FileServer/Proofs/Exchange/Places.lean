import FileServer.Proofs.Exchange.History
import FileServer.Proofs.Request.Safety

/-!
# Places in the storage of a connection

The calls of a connection as a machine carries them out: it receives into the window behind the
bytes in use, writes an answer into such a window piece by piece, hands the parser what lies in
front of it, and offers a socket the rest of the head and the rest of the file, each cut at a
place that is worked out from the number of bytes sent.  Each cut may fail here.

In a buffer whose bytes in use lie inside of its cells none does, and the calls are the ones
over lists.
-/

namespace FileServer

open Access

namespace Buffer

/-- The bytes in use, cut out of the cells. -/
def contentsAt (buffer : Buffer) : Except Fault Bytes :=
  part buffer.cells 0 buffer.used

/-- The window behind the bytes in use, cut out of the cells. -/
def windowAt (buffer : Buffer) : Except Fault Bytes :=
  part buffer.cells buffer.used buffer.capacity

/-- The buffer behind a change of its window, of which some more cells are in use from now on. -/
def widen (buffer : Buffer) (window : Bytes) (count : Nat) : Buffer where
  cells := buffer.cells.take buffer.used ++ window
  used := buffer.used + count

/-- `append` by way of the window. -/
def appendAt (buffer : Buffer) (pieces : List Bytes) : Except Fault (Bool × Buffer) := do
  match fill (← buffer.windowAt) 0 pieces with
  | (window, some count) => return (true, buffer.widen window count)
  | (window, none) => return (false, buffer.widen window 0)

/-- Goes on with a second part when the first part was accepted. -/
def andThenAt (first : Except Fault (Bool × Buffer))
    (second : Buffer → Except Fault (Bool × Buffer)) : Except Fault (Bool × Buffer) := do
  match ← first with
  | (true, buffer) => second buffer
  | (false, buffer) => return (false, buffer)

/-- `appendHead` by way of windows. -/
def appendHeadAt (buffer : Buffer) (status : Status) (bodyLength : Nat) (keepAlive : Bool) :
    Except Fault (Bool × Buffer) :=
  andThenAt (buffer.appendAt (Response.statusLine status)) fun buffer =>
    buffer.appendAt (Response.headers bodyLength keepAlive)

/-- `appendError` by way of windows. -/
def appendErrorAt (buffer : Buffer) (status : Status) (keepAlive : Bool) :
    Except Fault (Bool × Buffer) :=
  andThenAt (buffer.appendHeadAt status (Response.errorBody status).length keepAlive)
    fun buffer => buffer.appendAt [Response.errorBody status]

/-! ## Windows -/

theorem holds_contents {buffer : Buffer} (inside : buffer.used ≤ buffer.capacity) :
    buffer.Holds buffer.contents where
  contents := rfl
  used := by
    rw [contents, List.length_take]
    exact (Nat.min_eq_left inside).symm

theorem contentsAt_eq {buffer : Buffer} (inside : buffer.used ≤ buffer.capacity) :
    buffer.contentsAt = .ok buffer.contents := by
  rw [contentsAt, part_of_le (Nat.zero_le _) inside, List.drop_zero]
  rfl

theorem windowAt_eq {buffer : Buffer} (inside : buffer.used ≤ buffer.capacity) :
    buffer.windowAt = .ok (buffer.cells.drop buffer.used) := by
  rw [windowAt, part_of_le inside (Nat.le_refl buffer.cells.length)]
  exact congrArg Except.ok (List.take_of_length_le (Nat.le_of_eq List.length_drop))

/-- Writing behind the front writes into what follows it. -/
theorem overwrite_append (front window bytes : Bytes) (offset : Nat) :
    overwrite (front ++ window) (front.length + offset) bytes =
      front ++ overwrite window offset bytes := by
  rw [overwrite, overwrite, List.take_append, Nat.add_assoc, List.drop_append, List.length_append,
    Nat.add_sub_add_left, Nat.add_sub_cancel_left, Nat.add_sub_cancel_left,
    List.take_of_length_le (Nat.le_add_right _ _), List.drop_eq_nil_of_le (Nat.le_add_right _ _),
    List.nil_append, List.append_assoc, List.append_assoc, List.append_assoc]

theorem fill_append (front window : Bytes) (offset : Nat) (pieces : List Bytes) :
    fill (front ++ window) (front.length + offset) pieces =
      (front ++ (fill window offset pieces).1,
        (fill window offset pieces).2.map (front.length + ·)) := by
  induction pieces generalizing window offset with
  | nil => rfl
  | cons piece rest ih =>
      have sameTest : front.length + offset + piece.length ≤ (front ++ window).length ↔
          offset + piece.length ≤ window.length := by
        rw [List.length_append]
        omega
      simp only [fill, overwrite_append, sameTest]
      split
      · rw [Nat.add_assoc]
        exact ih (overwrite window offset piece) (offset + piece.length)
      · rfl

/-- The cells are those in use and those of the window. -/
theorem length_inUse {buffer : Buffer} (inside : buffer.used ≤ buffer.capacity) :
    (buffer.cells.take buffer.used).length = buffer.used := by
  rw [List.length_take]
  exact Nat.min_eq_left inside

/-- Storing is writing into the window. -/
theorem widen_overwrite {buffer : Buffer} (inside : buffer.used ≤ buffer.capacity)
    (bytes : Bytes) :
    buffer.widen (overwrite (buffer.cells.drop buffer.used) 0 bytes) bytes.length =
      buffer.store bytes := by
  have written := overwrite_append (buffer.cells.take buffer.used)
    (buffer.cells.drop buffer.used) bytes 0
  rw [List.take_append_drop, length_inUse inside, Nat.add_zero] at written
  rw [widen, store, written]

theorem appendAt_eq {buffer : Buffer} (inside : buffer.used ≤ buffer.capacity)
    (pieces : List Bytes) : buffer.appendAt pieces = .ok (buffer.append pieces) := by
  have filled := fill_append (buffer.cells.take buffer.used) (buffer.cells.drop buffer.used) 0
    pieces
  rw [List.take_append_drop, length_inUse inside, Nat.add_zero] at filled
  simp only [appendAt, append, windowAt_eq inside, filled, bind, Except.bind]
  generalize fill (buffer.cells.drop buffer.used) 0 pieces = result
  obtain ⟨window, count?⟩ := result
  cases count? <;> rfl

/-- Whatever is appended, the bytes in use stay inside of the cells. -/
theorem append_inside {buffer : Buffer} (inside : buffer.used ≤ buffer.capacity)
    (pieces : List Bytes) : (buffer.append pieces).2.used ≤ (buffer.append pieces).2.capacity := by
  have holds := holds_contents inside
  rcases Nat.lt_or_ge buffer.capacity (buffer.contents ++ pieces.flatten).length with
    tooLong | fits
  · obtain ⟨next, refused, stays, -⟩ := holds.append_of_overflow tooLong
    rw [refused]
    exact stays.used_le
  · obtain ⟨next, accepted, stays, -⟩ := holds.append_of_fits fits
    rw [accepted]
    exact stays.used_le

/-- Two parts by way of windows are two parts. -/
theorem andThenAt_eq {first : Bool × Buffer} {secondAt : Buffer → Except Fault (Bool × Buffer)}
    {second : Buffer → Bool × Buffer} (inside : first.2.used ≤ first.2.capacity)
    (same : ∀ {buffer : Buffer}, buffer.used ≤ buffer.capacity →
      secondAt buffer = .ok (second buffer)) :
    andThenAt (.ok first) secondAt = .ok (andThen first second) := by
  obtain ⟨accepted, buffer⟩ := first
  cases accepted with
  | true => exact same inside
  | false => rfl

theorem andThen_inside {first : Bool × Buffer} {second : Buffer → Bool × Buffer}
    (inside : first.2.used ≤ first.2.capacity)
    (stays : ∀ {buffer : Buffer}, buffer.used ≤ buffer.capacity →
      (second buffer).2.used ≤ (second buffer).2.capacity) :
    (andThen first second).2.used ≤ (andThen first second).2.capacity := by
  obtain ⟨accepted, buffer⟩ := first
  cases accepted with
  | true => exact stays inside
  | false => exact inside

section

variable {buffer : Buffer} (inside : buffer.used ≤ buffer.capacity) (status : Status)
  (bodyLength : Nat) (keepAlive : Bool)

include inside

theorem appendHeadAt_eq : buffer.appendHeadAt status bodyLength keepAlive =
    .ok (buffer.appendHead status bodyLength keepAlive) := by
  rw [appendHeadAt, appendAt_eq inside]
  exact andThenAt_eq (append_inside inside _) fun within => appendAt_eq within _

theorem appendHead_inside : (buffer.appendHead status bodyLength keepAlive).2.used ≤
    (buffer.appendHead status bodyLength keepAlive).2.capacity :=
  andThen_inside (append_inside inside _) fun within => append_inside within _

theorem appendErrorAt_eq :
    buffer.appendErrorAt status keepAlive = .ok (buffer.appendError status keepAlive) := by
  rw [appendErrorAt, appendHeadAt_eq inside]
  exact andThenAt_eq (appendHead_inside inside _ _ _) fun within => appendAt_eq within _

end

end Buffer

namespace Connection

/-! ## Receiving -/

/-- `receive` by way of windows. -/
def receiveAt (answers : List Receive) (buffer : Buffer) (total : Nat) :
    Except Fault (Except IoErrorKind Nat × Buffer × List Receive) :=
  if buffer.used < buffer.capacity then
    match buffer.windowAt with
    | .error fault => .error fault
    | .ok window =>
        match answers with
        | [] => .ok (.ok total, buffer, [])
        | .endOfStream :: rest => .ok (.error .unexpectedEof, buffer, rest)
        | .failure .wouldBlock :: rest => .ok (.ok total, buffer, rest)
        | .failure .interrupted :: rest => receiveAt rest buffer total
        | .failure kind :: rest => .ok (.error kind, buffer, rest)
        | .data bytes :: rest =>
            if bytes.isEmpty then
              .ok (.error .unexpectedEof, buffer, rest)
            else if bytes.length ≤ window.length then
              receiveAt rest (buffer.widen (Buffer.overwrite window 0 bytes) bytes.length)
                (total + bytes.length)
            else
              .ok (.ok (total + window.length),
                buffer.widen (Buffer.overwrite window 0 (bytes.take window.length)) window.length,
                .data (bytes.drop window.length) :: rest)
  else
    .ok (.ok total, buffer, answers)

/-- `read` by way of windows. -/
def readAt (connection : Connection) (socket : Socket) :
    Except Fault (Except IoErrorKind Nat × Connection × Socket) :=
  if !connection.isOpen then
    .ok (.error .notConnected, connection, socket)
  else if connection.input.capacity ≤ connection.input.used then
    .ok (.error .outOfMemory, connection, socket)
  else do
    let (result, input, incoming) ← receiveAt socket.incoming connection.input 0
    return (result, { connection with input }, { socket with incoming })

theorem receiveAt_eq (answers : List Receive) {buffer : Buffer}
    (inside : buffer.used ≤ buffer.capacity) (total : Nat) :
    receiveAt answers buffer total = .ok (receive answers buffer total) := by
  induction answers generalizing buffer total with
  | nil =>
      rw [receiveAt, Buffer.windowAt_eq inside]
      split <;> rfl
  | cons answer rest ih =>
      have size : (buffer.cells.drop buffer.used).length = buffer.room := List.length_drop
      by_cases full : buffer.room = 0
      · have noMore : ¬buffer.used < buffer.capacity := by
          simp only [Buffer.room] at full
          omega
        rw [receiveAt, if_neg noMore]
        simp only [receive, if_pos full]
      · have more : buffer.used < buffer.capacity := by
          simp only [Buffer.room] at full
          omega
        rw [receiveAt, if_pos more, Buffer.windowAt_eq inside]
        simp only [receive, if_neg full]
        cases answer with
        | endOfStream => rfl
        | failure kind =>
            cases kind with
            | interrupted => exact ih inside total
            | _ => rfl
        | data bytes =>
            dsimp only
            rw [size]
            split
            · rfl
            · split
              · next fits =>
                  rw [Buffer.widen_overwrite inside]
                  apply ih
                  rw [Buffer.capacity_store]
                  simp only [Buffer.room] at fits
                  change buffer.used + bytes.length ≤ buffer.capacity
                  omega
              · next tooLong =>
                  have taken : (bytes.take buffer.room).length = buffer.room :=
                    List.length_take_of_le (Nat.le_of_not_le tooLong)
                  have stored := Buffer.widen_overwrite inside (bytes.take buffer.room)
                  rw [taken] at stored
                  rw [stored]

theorem readAt_eq {connection : Connection}
    (inside : connection.input.used ≤ connection.input.capacity) (socket : Socket) :
    connection.readAt socket = .ok (connection.read socket) := by
  have full : connection.input.capacity ≤ connection.input.used ↔ connection.input.room = 0 := by
    rw [Buffer.room]
    omega
  simp only [readAt, read, full, receiveAt_eq socket.incoming inside]
  split
  · rfl
  · split <;> rfl

/-! ## Working on the received bytes -/

/-- `respond` by way of windows. -/
def respondAt (connection : Connection) (reply : Reply) :
    Except Fault (Processed × Connection) := do
  let status := reply.status
  let keepAlive := status.allowsKeepAlive && connection.parser.keepAlive
  let prepared : Connection :=
    match reply with
    | .serve content =>
        { connection with
          fileSize := content.length
          file := if content.isEmpty then connection.file else some content }
    | .refuse _ => { connection with fileSize := 0, file := none }
  let (written, output) ←
    match reply with
    | .serve content => prepared.output.clear.appendHeadAt status content.length keepAlive
    | .refuse _ => prepared.output.clear.appendErrorAt status keepAlive
  if written then
    return (.respond, prepared.ready output status keepAlive)
  else
    return (.close, { prepared with output, file := none })

/-- `process?` with every place looked up. -/
def processAt (connection : Connection) (tree : FileTree) (root : Text) :
    Except Fault (Processed × Connection) := do
  let received ← connection.input.contentsAt
  let (verdict, parser) ← connection.parser.advanceAt received
  let parsed := { connection with parser }
  match parsed.reply? tree root verdict with
  | none => return (.needMore, parsed)
  | some reply => parsed.respondAt reply

theorem respondAt_eq (connection : Connection) (reply : Reply) :
    connection.respondAt reply = .ok (connection.respond reply) := by
  have cleared : connection.output.clear.used ≤ connection.output.clear.capacity := Nat.zero_le _
  cases reply with
  | serve content =>
      simp only [respondAt, respond, Buffer.appendHeadAt_eq cleared, bind, Except.bind]
      split <;> rfl
  | refuse status =>
      simp only [respondAt, respond, Buffer.appendErrorAt_eq cleared, bind, Except.bind]
      split <;> rfl

/-- Working on the received bytes looks at no place outside, where they lie inside of the cells
and the parser is in place. -/
theorem processAt_eq {connection : Connection} (tree : FileTree) (root : Text)
    (inside : connection.input.used ≤ connection.input.capacity)
    (small : connection.input.used < Decimal.wordBound) (placed : connection.parser.Placed) :
    ∃ outcome next, connection.processAt tree root = .ok (outcome, next) ∧
      connection.process? tree root = some (outcome, next) := by
  have held : connection.input.contents.length < Decimal.wordBound := by
    rwa [← (Buffer.holds_contents inside).used]
  obtain ⟨verdict, parser, result⟩ :=
    Parser.advance?_isSome placed.ordered connection.input.contents
  have course := Parser.Course.of_advance? result
  simp only [processAt, process?, Buffer.contentsAt_eq inside, bind, Except.bind, result,
    course.advanceAt_eq held placed.cursor, respondAt_eq]
  cases Connection.reply? { connection with parser } tree root verdict with
  | none => exact ⟨_, _, rfl, rfl⟩
  | some reply => exact ⟨_, _, rfl, rfl⟩

/-! ## Sending -/

/-- The blocks that are offered to the socket: what is left of the head, and what is left of the
file. -/
def blocksAt (connection : Connection) : Except Fault (Bytes × Bytes) := do
  let head ← connection.output.contentsAt
  let body := connection.file.getD []
  if connection.haveSent < head.length then
    return (← part head connection.haveSent head.length, body)
  else
    let offset := min (connection.haveSent - head.length) body.length
    return (← part head head.length head.length, ← part body offset body.length)

/-- `transmit` by way of blocks. -/
def transmitAt (answers : List Transmit) (connection : Connection) :
    Except Fault (Written × Connection × Bytes × List Transmit) :=
  match connection.blocksAt with
  | .error fault => .error fault
  | .ok (head, body) =>
      match answers with
      | [] =>
          let taken := head ++ body
          if taken.isEmpty then
            let (outcome, stopped) := connection.abandon
            .ok (outcome, stopped, [], [])
          else
            match connection.advance taken.length with
            | (some outcome, next) => .ok (outcome, next, taken, [])
            | (none, next) => do
                let _ ← next.blocksAt
                let (outcome, stopped) := next.abandon
                return (outcome, stopped, taken, [])
      | .failure .wouldBlock :: rest => .ok (.again, connection, [], rest)
      | .failure .interrupted :: rest => transmitAt rest connection
      | .failure _ :: rest =>
          let (outcome, stopped) := connection.abandon
          .ok (outcome, stopped, [], rest)
      | .accept count :: rest =>
          let taken := (head ++ body).take count
          if taken.isEmpty then
            let (outcome, stopped) := connection.abandon
            .ok (outcome, stopped, [], rest)
          else
            match connection.advance taken.length with
            | (some outcome, next) => .ok (outcome, next, taken, rest)
            | (none, next) => do
                let (outcome, last, more, left) ← transmitAt rest next
                return (outcome, last, taken ++ more, left)

/-- `write` by way of blocks. -/
def writeAt (connection : Connection) (socket : Socket) :
    Except Fault (Written × Connection × Socket) :=
  if !connection.isOpen then
    .ok (.failed, connection, socket)
  else if connection.toSend = 0 then
    .ok (.keepAlive, connection.reset, socket)
  else do
    let (outcome, next, taken, outgoing) ← transmitAt socket.outgoing connection
    return (outcome, next, { socket with outgoing, sent := socket.sent ++ taken })

/-- The blocks are what is not sent yet, cut where the file begins. -/
theorem blocksAt_eq {connection : Connection}
    (inside : connection.output.used ≤ connection.output.capacity) :
    ∃ head body, connection.blocksAt = .ok (head, body) ∧ head ++ body = connection.unsent := by
  simp only [blocksAt, Buffer.contentsAt_eq inside, bind, Except.bind, unsent, answer]
  generalize connection.output.contents = head
  generalize connection.file.getD [] = body
  split
  · next inHead =>
      have within := Nat.le_of_lt inHead
      rw [part_of_le within (Nat.le_refl head.length)]
      refine ⟨_, _, rfl, ?_⟩
      rw [List.drop_append_of_le_length within,
        List.take_of_length_le (Nat.le_of_eq List.length_drop)]
  · next behind =>
      have cut : min (connection.haveSent - head.length) body.length ≤ body.length :=
        Nat.min_le_right _ _
      rw [part_of_le (Nat.le_refl _) (Nat.le_refl head.length), part_of_le cut (Nat.le_refl _)]
      refine ⟨_, _, rfl, ?_⟩
      rw [Nat.sub_self, List.take_zero, List.nil_append,
        List.take_of_length_le (Nat.le_of_eq List.length_drop), List.drop_append,
        List.drop_eq_nil_of_le (Nat.le_of_not_lt behind), List.nil_append]
      exact List.drop_eq_drop_min.symm

/-- Counting bytes as sent keeps the bytes in use inside of the cells. -/
theorem advance_inside {connection : Connection}
    (inside : connection.output.used ≤ connection.output.capacity) (count : Nat) :
    (connection.advance count).2.output.used ≤ (connection.advance count).2.output.capacity := by
  rcases advance_cases connection count with ⟨-, same⟩ | ⟨-, ⟨-, same⟩ | ⟨-, same⟩⟩
  · rw [same]; exact inside
  · rw [same]; exact Nat.zero_le _
  · rw [same]; exact inside

theorem transmitAt_eq (answers : List Transmit) {connection : Connection}
    (inside : connection.output.used ≤ connection.output.capacity) :
    transmitAt answers connection = .ok (transmit answers connection) := by
  induction answers generalizing connection with
  | nil =>
      obtain ⟨head, body, blocks, whole⟩ := blocksAt_eq inside
      have stays := advance_inside inside connection.unsent.length
      simp only [transmitAt, transmit, blocks, whole]
      split
      · rfl
      · generalize connection.advance connection.unsent.length = result at stays
        obtain ⟨outcome?, next⟩ := result
        cases outcome? with
        | some outcome => rfl
        | none =>
            obtain ⟨headToo, bodyToo, blocksToo, -⟩ := blocksAt_eq stays
            simp only [blocksToo]
            rfl
  | cons answer rest ih =>
      obtain ⟨head, body, blocks, whole⟩ := blocksAt_eq inside
      rw [transmitAt, blocks]
      cases answer with
      | failure kind =>
          cases kind with
          | interrupted => exact ih inside
          | _ => rfl
      | accept count =>
          have stays := advance_inside inside (connection.unsent.take count).length
          simp only [transmit, whole]
          split
          · rfl
          · generalize connection.advance (connection.unsent.take count).length = result at stays
            obtain ⟨outcome?, next⟩ := result
            cases outcome? with
            | some outcome => rfl
            | none =>
                simp only [ih stays]
                rfl

theorem writeAt_eq {connection : Connection}
    (inside : connection.output.used ≤ connection.output.capacity) (socket : Socket) :
    connection.writeAt socket = .ok (connection.write socket) := by
  simp only [writeAt, write, transmitAt_eq socket.outgoing inside]
  split
  · rfl
  · split <;> rfl

end Connection

end FileServer
