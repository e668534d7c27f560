import FileServer.Proofs.Exchange.Session
import FileServer.Proofs.Exchange.Storage
import FileServer.Proofs.Exchange.Streams

/-!
# Connections that are used again

A connection that takes a new socket still has what earlier clients sent and were sent: its
buffers are never erased.  The same is so for one that starts over on the same socket after an
answer.  In both cases nobody can tell it from a new connection that takes the socket: not by
what a call reports, not by the bytes that the socket is given, and not by what can be asked of
the connection in between.

The new connection and the used one are alike, that is, they differ in cells out of use alone,
and every call keeps them so.  What has to be known of the past is little: the sizes of the
storage, and that an open connection has a peer.
-/

namespace FileServer.Connection

/-! ## What can be noticed of a connection -/

/-- What can be asked of a connection. -/
structure View where
  isOpen : Bool
  peer : Option Address
  request : Parser
  status : Option Status
  toSend : Nat
  haveSent : Nat
  isMapped : Bool
  deriving DecidableEq, Repr

def view (connection : Connection) : View where
  isOpen := connection.isOpen
  peer := connection.peer
  request := connection.parser
  status := connection.status
  toSend := connection.toSend
  haveSent := connection.haveSent
  isMapped := connection.file.isSome

/-- What happens to a connection that has a socket: the socket gets answers ready, or a call is
made, due or not. -/
inductive Operation where
  | feed (incoming : List Receive) (outgoing : List Transmit)
  | read
  | process (tree : FileTree) (root : Text)
  | write
  | reset
  deriving DecidableEq, Repr

/-- What is reported of it. -/
inductive Report where
  | received (result : Except IoErrorKind Nat)
  | processed (outcome : Processed)
  | written (outcome : Written)
  | nothing

/-- A connection and its socket after something has happened, with what is reported. -/
def operate (connection : Connection) (socket : Socket) : Operation → Report × Connection × Socket
  | .feed incoming outgoing => (.nothing, connection, socket.script incoming outgoing)
  | .read =>
      let (result, next, after) := connection.read socket
      (.received result, next, after)
  | .process tree root =>
      let (outcome, next) := connection.processed tree root
      (.processed outcome, next, socket)
  | .write =>
      let (outcome, next, after) := connection.write socket
      (.written outcome, next, after)
  | .reset => (.nothing, connection.reset, socket)

/-- All that can be noticed while some things happen: after each of them what is reported, what
can be asked of the connection, and the socket with the bytes it has taken. -/
def course (connection : Connection) (socket : Socket) :
    List Operation → List (Report × View × Socket)
  | [] => []
  | operation :: rest =>
      let (report, next, after) := connection.operate socket operation
      (report, next.view, after) :: next.course after rest

variable {left right : Connection}

theorem Alike.view_eq (alike : left.Alike right) : left.view = right.view := by
  cases alike
  rfl

/-- The same report, alike connections, and the same socket. -/
theorem Alike.operate (alike : left.Alike right) (socket : Socket) (operation : Operation) :
    Agree (left.operate socket operation) (right.operate socket operation) := by
  cases operation with
  | feed incoming outgoing => exact ⟨rfl, alike, rfl⟩
  | read =>
      obtain ⟨result, connections, sockets⟩ := alike.read socket
      exact ⟨congrArg Report.received result, connections, sockets⟩
  | process tree root =>
      obtain ⟨outcome, connections⟩ := alike.processed tree root
      exact ⟨congrArg Report.processed outcome, connections, rfl⟩
  | write =>
      obtain ⟨outcome, connections, sockets⟩ := alike.write socket
      exact ⟨congrArg Report.written outcome, connections, sockets⟩
  | reset => exact ⟨rfl, alike.reset, rfl⟩

/-- Alike connections cannot be told apart. -/
theorem Alike.course_eq (alike : left.Alike right) (socket : Socket)
    (operations : List Operation) :
    left.course socket operations = right.course socket operations := by
  induction operations generalizing left right socket with
  | nil => rfl
  | cons operation rest ih =>
      obtain ⟨report, connections, sockets⟩ := alike.operate socket operation
      simp only [course]
      rw [report, connections.view_eq, sockets, ih connections]

/-! ## Connections that have a socket -/

/-- A connection that has a socket with some peer, and storage of the fixed sizes. -/
structure Seated (connection : Connection) (peer : Address) : Prop where
  isOpen : connection.isOpen = true
  peer : connection.peer = some peer
  parser : connection.parser.capacity = inputCapacity
  input : connection.input.capacity = inputCapacity
  output : connection.output.capacity = Response.defaultCapacity

theorem Seated.of_keeps {before after : Connection} {peer : Address} (seated : before.Seated peer)
    (sizes : before.KeepsSizes after) (keeps : before.KeepsSocket after) : after.Seated peer :=
  ⟨keeps.isOpen.trans seated.isOpen, keeps.peer.trans seated.peer,
    sizes.parser.trans seated.parser, keeps.input.trans seated.input,
    sizes.output.trans seated.output⟩

/-- A connection that is open has taken a socket once, and has kept it. -/
theorem Past.seated {connection : Connection} (past : connection.Past)
    (opened : connection.isOpen = true) : ∃ peer, connection.Seated peer := by
  have stays {before after : Connection} (sizes : before.KeepsSizes after)
      (keeps : before.KeepsSocket after)
      (ih : before.isOpen = true → ∃ peer, before.Seated peer) (opened : after.isOpen = true) :
      ∃ peer, after.Seated peer := by
    obtain ⟨peer, seated⟩ := ih (keeps.isOpen.symm.trans opened)
    exact ⟨peer, seated.of_keeps sizes keeps⟩
  induction past with
  | fresh => cases opened
  | @accept connection past peer =>
      exact ⟨peer, rfl, rfl, past.sized.parser, capacity_withCapacity connection.input inputCapacity,
        past.sized.capacity_output⟩
  | reset _ ih => exact stays (keepsSizes_reset _) ⟨rfl, rfl, rfl⟩ ih opened
  | close => cases opened
  | read _ socket ih => exact stays (keepsSizes_read rfl) (keepsSocket_read rfl) ih opened
  | process _ processed ih =>
      exact stays (keepsSizes_process processed) (keepsSocket_process processed) ih opened
  | write _ socket ih => exact stays (keepsSizes_write rfl) (keepsSocket_write rfl) ih opened

/-! ## Starting over -/

/-- A connection that starts over cannot be told from a new one that takes its socket. -/
theorem Seated.alike_reset {connection : Connection} {peer : Address}
    (seated : connection.Seated peer) : (fresh.accept peer).Alike connection.reset := by
  apply (akin_reset seated.isOpen seated.peer seated.parser seated.output).alike
  apply Buffer.alike_clear
  rw [seated.input]
  exact capacity_withCapacity fresh.input inputCapacity

/-- After an answer that keeps the connection open it has started over. -/
theorem Transmission.starts_over {before after : Connection} {outcome : Written} {taken : Bytes}
    (sent : Transmission before outcome after taken) (kept : outcome = .keepAlive) :
    after.reset = after := by
  induction sent with
  | again | gaveUp => cases kept
  | @finished connection _ _ taken _ _ advanced =>
      rcases advance_cases connection taken.length with
        ⟨-, same⟩ | ⟨-, ⟨-, same⟩ | ⟨-, same⟩⟩ <;> cases advanced.symm.trans same
      · rfl
      · cases kept
  | goesOn _ _ _ _ ih => exact ih kept

theorem starts_over_of_keepAlive {connection next : Connection} {socket after : Socket}
    (written : connection.write socket = (.keepAlive, next, after)) :
    connection.isOpen = true ∧ next.reset = next := by
  constructor
  · cases opened : connection.isOpen with
    | true => rfl
    | false =>
        rw [write, opened] at written
        cases written
  · rcases write_cases written with
      ⟨-, wrong, -⟩ | ⟨-, -, rfl, -⟩ | ⟨-, -, taken, sent, -⟩
    · cases wrong
    · rfl
    · exact sent.starts_over rfl

/-- A connection that is used again is as good as new.  Let a connection go through any calls in
any order, on any sockets and with any documents, and let it take a socket then.  Whatever
happens on this socket, it reports the same, sends the same, and can be asked the same, as a new
connection that takes the socket.  And when sending reports that an answer is sent and that the
connection stays, then from there on it cannot be told from a new connection that takes the same
socket. -/
theorem as_good_as_new {connection : Connection} (past : connection.Past) :
    (∀ peer, (connection.accept peer).view = (fresh.accept peer).view ∧
      ∀ socket operations, (connection.accept peer).course socket operations =
        (fresh.accept peer).course socket operations) ∧
    ∀ socket next after, connection.write socket = (.keepAlive, next, after) →
      ∃ peer, connection.peer = some peer ∧ next.view = (fresh.accept peer).view ∧
        ∀ operations, next.course after operations =
          (fresh.accept peer).course after operations := by
  constructor
  · intro peer
    have alike := past.sized.accept peer
    exact ⟨alike.view_eq, alike.course_eq⟩
  · intro socket next after written
    obtain ⟨opened, same⟩ := starts_over_of_keepAlive written
    obtain ⟨peer, seated⟩ := past.seated opened
    have alike := (seated.of_keeps (keepsSizes_write written)
      (keepsSocket_write written)).alike_reset
    rw [same] at alike
    exact ⟨peer, seated.peer, alike.view_eq.symm, fun operations =>
      (alike.course_eq after operations).symm⟩

open Session in
/-- A connection that has an answer to send and is to stay open after it. -/
def smallKept : Connection :=
  (((fresh.accept smallPeer).read ⟨[.data documentRequest], [], []⟩).2.1.processed smallTree []).2

open Session in
/-- The bytes of the answered request are still in the input, and nobody can tell. -/
theorem as_good_as_new_kept :
    ∃ next after, smallKept.write {} = (.keepAlive, next, after) ∧ next ≠ fresh.accept smallPeer ∧
      ∀ operations, next.course after operations =
        (fresh.accept smallPeer).course after operations := by
  have processed : ((fresh.accept smallPeer).read
      ⟨[.data documentRequest], [], []⟩).2.1.process? smallTree [] =
        some (.respond, smallKept) := by
    decide +kernel
  have past : smallKept.Past := .process (.read (.accept .fresh smallPeer) _) processed
  obtain ⟨⟨outcome, next, after⟩, written⟩ : ∃ result, smallKept.write {} = result := ⟨_, rfl⟩
  have kept : (smallKept.write {}).1 = .keepAlive := by decide +kernel
  have differs : (smallKept.write {}).2.1 ≠ fresh.accept smallPeer := by decide +kernel
  rw [written] at kept differs
  subst kept
  obtain ⟨peer, found, -, same⟩ := (as_good_as_new past).2 {} next after written
  have known : smallKept.peer = some smallPeer := by decide +kernel
  cases found.symm.trans known
  exact ⟨next, after, written, differs, same⟩

end FileServer.Connection
