import FileServer.Proofs.Exchange.Likeness

/-!
# The storage of a connection

A connection sets its storage aside when it gets its first socket, in fixed sizes,
and keeps it from then on.  No call changes the sizes, and only taking a socket and
closing change which socket it has.  So taking a socket makes any connection, whatever
it has been through, like a new one that takes the socket: nothing of an earlier client
is in it but the values of cells out of use.
-/

namespace FileServer

namespace Buffer

theorem capacity_ofCapacity (capacity : Nat) : (ofCapacity capacity).capacity = capacity :=
  List.length_replicate

theorem capacity_append (buffer : Buffer) (pieces : List Bytes) :
    (buffer.append pieces).2.capacity = buffer.capacity := by
  have filled := length_fill buffer.cells buffer.used pieces
  simp only [append]
  split
  · next cells used result =>
      rw [result] at filled
      exact filled
  · next cells result =>
      rw [result] at filled
      exact filled

theorem capacity_andThen {first : Bool × Buffer} {second : Buffer → Bool × Buffer}
    (same : ∀ buffer, (second buffer).2.capacity = buffer.capacity) :
    (andThen first second).2.capacity = first.2.capacity := by
  obtain ⟨accepted, buffer⟩ := first
  cases accepted with
  | true => exact same buffer
  | false => rfl

theorem capacity_appendHead (buffer : Buffer) (status : Status) (bodyLength : Nat)
    (keepAlive : Bool) :
    (buffer.appendHead status bodyLength keepAlive).2.capacity = buffer.capacity :=
  (capacity_andThen fun _ => capacity_append _ _).trans (capacity_append buffer _)

theorem capacity_appendError (buffer : Buffer) (status : Status) (keepAlive : Bool) :
    (buffer.appendError status keepAlive).2.capacity = buffer.capacity :=
  (capacity_andThen fun _ => capacity_append _ _).trans (capacity_appendHead buffer _ _ _)

end Buffer

namespace Connection

/-! ## Calls keep the sizes -/

/-- The storage that was set aside stays. -/
structure KeepsSizes (before after : Connection) : Prop where
  parser : after.parser.capacity = before.parser.capacity
  output : after.output.capacity = before.output.capacity

theorem KeepsSizes.trans {first second third : Connection} (early : first.KeepsSizes second)
    (late : second.KeepsSizes third) : first.KeepsSizes third :=
  ⟨late.parser.trans early.parser, late.output.trans early.output⟩

theorem keepsSizes_reset (connection : Connection) : connection.KeepsSizes connection.reset :=
  ⟨rfl, rfl⟩

theorem keepsSizes_close (connection : Connection) : connection.KeepsSizes connection.close :=
  ⟨rfl, rfl⟩

theorem keepsSizes_read {before after : Connection} {socket rest : Socket}
    {result : Except IoErrorKind Nat} (received : before.read socket = (result, after, rest)) :
    before.KeepsSizes after := by
  obtain ⟨input, same⟩ := before.read_eq socket
  rw [received] at same
  subst same
  exact ⟨rfl, rfl⟩

theorem keepsSizes_advance (connection : Connection) (count : Nat) :
    connection.KeepsSizes (connection.advance count).2 := by
  simp only [Connection.advance]
  split
  · exact ⟨rfl, rfl⟩
  · split <;> exact ⟨rfl, rfl⟩

theorem Transmission.keepsSizes {before after : Connection} {outcome : Written} {taken : Bytes}
    (sent : Transmission before outcome after taken) : before.KeepsSizes after := by
  induction sent with
  | again => exact ⟨rfl, rfl⟩
  | gaveUp => exact ⟨rfl, rfl⟩
  | @finished connection _ _ taken _ _ advanced =>
      have keeps := keepsSizes_advance connection taken.length
      rwa [advanced] at keeps
  | @goesOn connection _ _ _ taken _ _ _ advanced _ ih =>
      have keeps := keepsSizes_advance connection taken.length
      rw [advanced] at keeps
      exact keeps.trans ih

theorem keepsSizes_write {before after : Connection} {socket rest : Socket} {outcome : Written}
    (written : before.write socket = (outcome, after, rest)) : before.KeepsSizes after := by
  rcases write_cases written with
    ⟨-, -, rfl, -⟩ | ⟨-, -, rfl, -⟩ | ⟨-, -, taken, sent, -⟩
  · exact ⟨rfl, rfl⟩
  · exact keepsSizes_reset before
  · exact sent.keepsSizes

theorem keepsSizes_respond (connection : Connection) (reply : Reply) :
    connection.KeepsSizes (connection.respond reply).2 := by
  cases reply with
  | serve content =>
      have size (keepAlive : Bool) :=
        Buffer.capacity_appendHead connection.output.clear .ok content.length keepAlive
      simp only [Connection.respond]
      split <;> exact ⟨rfl, size _⟩
  | refuse status =>
      have size (keepAlive : Bool) :=
        Buffer.capacity_appendError connection.output.clear status keepAlive
      simp only [Connection.respond]
      split <;> exact ⟨rfl, size _⟩

theorem keepsSizes_process {before after : Connection} {tree : FileTree} {root : Text}
    {outcome : Processed} (processed : before.process? tree root = some (outcome, after)) :
    before.KeepsSizes after := by
  obtain ⟨verdict, parser, advanced, worked⟩ := process?_cases processed
  have parsed : before.KeepsSizes { before with parser } :=
    ⟨(Parser.Course.of_advance? advanced).capacity_eq, rfl⟩
  rcases worked with ⟨-, -, rfl⟩ | ⟨reply, -, responded⟩
  · exact parsed
  · have answered := keepsSizes_respond { before with parser } reply
    rw [responded] at answered
    exact parsed.trans answered

/-! ## Calls keep the socket -/

/-- A call leaves the socket and the size of the input alone. -/
structure KeepsSocket (before after : Connection) : Prop where
  isOpen : after.isOpen = before.isOpen
  peer : after.peer = before.peer
  input : after.input.capacity = before.input.capacity

theorem KeepsSocket.trans {first second third : Connection} (early : first.KeepsSocket second)
    (late : second.KeepsSocket third) : first.KeepsSocket third :=
  ⟨late.isOpen.trans early.isOpen, late.peer.trans early.peer, late.input.trans early.input⟩

theorem capacity_receive (answers : List Receive) (buffer : Buffer) (total : Nat) :
    (receive answers buffer total).2.1.capacity = buffer.capacity := by
  fun_induction receive answers buffer total <;> simp_all

theorem keepsSocket_read {before after : Connection} {socket rest : Socket}
    {result : Except IoErrorKind Nat} (received : before.read socket = (result, after, rest)) :
    before.KeepsSocket after := by
  unfold read at received
  split at received
  · cases received
    exact ⟨rfl, rfl, rfl⟩
  · split at received <;> cases received
    · exact ⟨rfl, rfl, rfl⟩
    · exact ⟨rfl, rfl, capacity_receive socket.incoming before.input 0⟩

theorem keepsSocket_process {before after : Connection} {tree : FileTree} {root : Text}
    {outcome : Processed} (processed : before.process? tree root = some (outcome, after)) :
    before.KeepsSocket after := by
  obtain ⟨verdict, parser, -, worked⟩ := process?_cases processed
  rcases worked with ⟨-, -, rfl⟩ | ⟨reply, -, responded⟩
  · exact ⟨rfl, rfl, rfl⟩
  · obtain ⟨input, isOpen, peer⟩ := respond_keeps { before with parser } reply
    rw [responded] at input isOpen peer
    exact ⟨isOpen, peer, congrArg Buffer.capacity input⟩

theorem keepsSocket_advance (connection : Connection) (count : Nat) :
    connection.KeepsSocket (connection.advance count).2 := by
  rcases advance_cases connection count with ⟨-, same⟩ | ⟨-, ⟨-, same⟩ | ⟨-, same⟩⟩ <;>
    rw [same] <;> exact ⟨rfl, rfl, rfl⟩

theorem Transmission.keepsSocket {before after : Connection} {outcome : Written} {taken : Bytes}
    (sent : Transmission before outcome after taken) : before.KeepsSocket after := by
  induction sent with
  | again | gaveUp => exact ⟨rfl, rfl, rfl⟩
  | @finished connection _ _ taken _ _ advanced =>
      have keeps := keepsSocket_advance connection taken.length
      rwa [advanced] at keeps
  | @goesOn connection _ _ _ taken _ _ _ advanced _ ih =>
      have keeps := keepsSocket_advance connection taken.length
      rw [advanced] at keeps
      exact keeps.trans ih

theorem keepsSocket_write {before after : Connection} {socket rest : Socket} {outcome : Written}
    (written : before.write socket = (outcome, after, rest)) : before.KeepsSocket after := by
  rcases write_cases written with
    ⟨-, -, rfl, -⟩ | ⟨-, -, rfl, -⟩ | ⟨-, -, taken, sent, -⟩
  · exact ⟨rfl, rfl, rfl⟩
  · exact ⟨rfl, rfl, rfl⟩
  · exact sent.keepsSocket

/-! ## Taking a socket -/

/-- The sizes that a connection may have set aside. -/
structure Sized (connection : Connection) : Prop where
  parser : connection.parser.capacity = inputCapacity
  output : connection.output.capacity = 0 ∨
    connection.output.capacity = Response.defaultCapacity

theorem sized_fresh : fresh.Sized :=
  ⟨rfl, .inl rfl⟩

theorem capacity_withCapacity (buffer : Buffer) (capacity : Nat) :
    (withCapacity buffer capacity).capacity = capacity := by
  simp only [withCapacity]
  split
  · assumption
  · exact Buffer.capacity_ofCapacity capacity

/-- The output that a connection gets with a socket has always the same size. -/
theorem Sized.capacity_output {connection : Connection} (sized : connection.Sized) :
    Buffer.capacity (if connection.output.capacity = 0 then
      .ofCapacity Response.defaultCapacity else connection.output) = Response.defaultCapacity := by
  rcases sized.output with absent | present
  · rw [if_pos absent, Buffer.capacity_ofCapacity]
  · rw [if_neg (by simp [present, Response.defaultCapacity]), present]

/-- With a socket, any connection is like a new one. -/
theorem Sized.accept {connection : Connection} (sized : connection.Sized) (peer : Address) :
    (connection.accept peer).Alike (fresh.accept peer) := by
  have inputs : (withCapacity connection.input inputCapacity).clear.Alike
      (withCapacity fresh.input inputCapacity).clear :=
    Buffer.alike_clear (by rw [capacity_withCapacity, capacity_withCapacity])
  have outputs : Buffer.Alike (Buffer.clear (if connection.output.capacity = 0 then
      .ofCapacity Response.defaultCapacity else connection.output))
        (Buffer.ofCapacity Response.defaultCapacity).clear := by
    apply Buffer.alike_clear
    rw [sized.capacity_output, Buffer.capacity_ofCapacity]
  have parsers : connection.parser.reset = fresh.parser.reset := by
    rw [Parser.reset, sized.parser]
    rfl
  simp only [Connection.accept, Connection.reset, parsers]
  exact .mk inputs outputs

theorem KeepsSizes.sized {before after : Connection} (keeps : before.KeepsSizes after)
    (sized : before.Sized) : after.Sized :=
  ⟨keeps.parser.trans sized.parser, by rw [keeps.output]; exact sized.output⟩

/-- Taking a socket sets aside what is missing. -/
theorem Sized.accepted {connection : Connection} (sized : connection.Sized) (peer : Address) :
    (connection.accept peer).Sized :=
  ⟨sized.parser, .inr sized.capacity_output⟩

/-! ## Any past -/

/-- What a connection may have been through: any calls in any order, on any sockets and with any
documents. -/
inductive Past : Connection → Prop
  | fresh : Past fresh
  | accept {connection : Connection} (past : Past connection) (peer : Address) :
      Past (connection.accept peer)
  | reset {connection : Connection} (past : Past connection) : Past connection.reset
  | close {connection : Connection} (past : Past connection) : Past connection.close
  | read {connection : Connection} (past : Past connection) (socket : Socket) :
      Past (connection.read socket).2.1
  | process {connection next : Connection} {tree : FileTree} {root : Text} {outcome : Processed}
      (past : Past connection) (processed : connection.process? tree root = some (outcome, next)) :
      Past next
  | write {connection : Connection} (past : Past connection) (socket : Socket) :
      Past (connection.write socket).2.1

/-- What was told for one tree and one root is a past. -/
theorem History.past {tree : FileTree} {root : Text} {connection : Connection}
    (history : History tree root Connection.fresh connection) : connection.Past := by
  induction history with
  | start => exact .fresh
  | accept _ peer ih => exact .accept ih peer
  | reset _ ih => exact .reset ih
  | close _ ih => exact .close ih
  | read _ socket ih => exact .read ih socket
  | process _ processed ih => exact .process ih processed
  | write _ socket ih => exact .write ih socket

/-- Whatever a connection has been through, the sizes are the fixed ones. -/
theorem Past.sized {connection : Connection} (past : connection.Past) : connection.Sized := by
  induction past with
  | fresh => exact sized_fresh
  | accept _ peer ih => exact ih.accepted peer
  | reset _ ih => exact (keepsSizes_reset _).sized ih
  | close _ ih => exact (keepsSizes_close _).sized ih
  | read _ socket ih => exact (keepsSizes_read rfl).sized ih
  | process _ processed ih => exact (keepsSizes_process processed).sized ih
  | write _ socket ih => exact (keepsSizes_write rfl).sized ih

end Connection

end FileServer
