import FileServer.Proofs.Exchange.Likeness
import FileServer.Work.Task

/-!
# A connection on its own

Without a server around it a connection goes through a cycle: it receives, works on
what it has received, and sends, and the outcome of each call says which call is due
next.  A session is a connection in this cycle together with its socket.  What
happens to a session from outside are the answers that its socket gets ready; there
is no table of slots, no loop and no worker.
-/

namespace FileServer

/-- A call in the cycle of a connection. -/
inductive Stroke where
  | read
  | process
  | write
  deriving DecidableEq, Repr

/-- What is reported of a call that works on received bytes or sends. -/
inductive Outcome where
  | processed (outcome : Processed)
  | written (outcome : Written)
  deriving DecidableEq, Repr

/-- What happens to a connection: its socket gets answers ready, or a call is
made. -/
inductive Stimulus where
  | feed (incoming : List Receive) (outgoing : List Transmit)
  | stroke (stroke : Stroke)
  deriving DecidableEq, Repr

/-- The call that is due after receiving. -/
def Stroke.afterRead : Except IoErrorKind Nat → Option Stroke
  | .ok _ => some .process
  | .error _ => none

/-- The call that is due after working on received bytes. -/
def Stroke.afterProcess : Processed → Option Stroke
  | .needMore => some .read
  | .respond => some .write
  | .close => none

/-- The call that is due after sending. -/
def Stroke.afterWrite : Written → Option Stroke
  | .again => some .write
  | .keepAlive => some .read
  | .close | .failed => none

/-- A connection with its socket, the call that is due, and what was reported so
far. -/
structure Session where
  connection : Connection
  socket : Socket
  due : Option Stroke
  outcomes : List Outcome
  deriving DecidableEq, Repr

namespace Connection

/-- The outcome of working on what a connection has received, and the connection
behind it.  Where there is no result the connection is to be closed. -/
def processed (connection : Connection) (tree : FileTree) (root : Text) :
    Processed × Connection :=
  (connection.process? tree root).getD (.close, connection)

theorem Alike.processed {left right : Connection} (alike : left.Alike right) (tree : FileTree)
    (root : Text) :
    (left.processed tree root).1 = (right.processed tree root).1 ∧
      (left.processed tree root).2.Alike (right.processed tree root).2 := by
  have same := alike.process? tree root
  simp only [Connection.processed]
  generalize left.process? tree root = mine at same
  generalize right.process? tree root = other at same
  cases same with
  | none => exact ⟨rfl, alike⟩
  | some results => exact results

end Connection

/-- Work on a task for the present connection of a slot. -/
theorem Task.work_eq_processed {task : Task} {slot : Slot} (tree : FileTree) (root : Text)
    (current : slot.generation = task.generation) :
    task.work tree root slot = ((slot.connection.processed tree root).1,
      { slot with connection := (slot.connection.processed tree root).2 }) := by
  rw [work, if_pos current, Connection.processed]
  split
  · next found => rw [found]; rfl
  · next absent => rw [absent]; rfl

namespace Session

/-- A connection that has taken a new socket. -/
def opened (connection : Connection) (peer : Address) (outgoing : List Transmit) : Session where
  connection := connection.accept peer
  socket := { outgoing }
  due := some .read
  outcomes := []

/-- A new connection that has taken a new socket. -/
def start (peer : Address) (outgoing : List Transmit) : Session :=
  opened .fresh peer outgoing

/-- The socket gets more answers ready. -/
def feed (session : Session) (incoming : List Receive) (outgoing : List Transmit) : Session :=
  { session with socket := session.socket.script incoming outgoing }

/-- Receives. -/
def read (session : Session) : Session :=
  let (result, connection, socket) := session.connection.read session.socket
  { session with connection, socket, due := Stroke.afterRead result }

/-- Works on what was received. -/
def process (tree : FileTree) (root : Text) (session : Session) : Session :=
  let (outcome, connection) := session.connection.processed tree root
  { session with
    connection
    due := Stroke.afterProcess outcome
    outcomes := session.outcomes ++ [.processed outcome] }

/-- Sends. -/
def write (session : Session) : Session :=
  let (outcome, connection, socket) := session.connection.write session.socket
  { session with
    connection
    socket
    due := Stroke.afterWrite outcome
    outcomes := session.outcomes ++ [.written outcome] }

theorem read_eq {session : Session} {result : Except IoErrorKind Nat} {connection : Connection}
    {socket : Socket}
    (received : session.connection.read session.socket = (result, connection, socket)) :
    session.read = { session with connection, socket, due := Stroke.afterRead result } := by
  simp only [read, received]

theorem write_eq {session : Session} {outcome : Written} {connection : Connection} {socket : Socket}
    (written : session.connection.write session.socket = (outcome, connection, socket)) :
    session.write = { session with
      connection
      socket
      due := Stroke.afterWrite outcome
      outcomes := session.outcomes ++ [.written outcome] } := by
  simp only [write, written]

/-- Makes a call, due or not. -/
def make (tree : FileTree) (root : Text) (session : Session) : Stroke → Session
  | .read => session.read
  | .process => session.process tree root
  | .write => session.write

/-- The session after something has happened to it. -/
def meet (tree : FileTree) (root : Text) (session : Session) : Stimulus → Session
  | .feed incoming outgoing => session.feed incoming outgoing
  | .stroke stroke => session.make tree root stroke

/-- The session after some things have happened to it, in order. -/
def follow (tree : FileTree) (root : Text) (session : Session) (stimuli : List Stimulus) :
    Session :=
  stimuli.foldl (meet tree root) session

/-- Whether the cycle allows something to happen: a call has to be due. -/
def Allows (session : Session) : Stimulus → Prop
  | .feed _ _ => True
  | .stroke stroke => session.due = some stroke

/-- Each call of a sequence is the one that is due. -/
def Cycles (tree : FileTree) (root : Text) : Session → List Stimulus → Prop
  | _, [] => True
  | session, stimulus :: rest =>
      session.Allows stimulus ∧ (session.meet tree root stimulus).Cycles tree root rest

theorem follow_append (tree : FileTree) (root : Text) (session : Session)
    (early late : List Stimulus) :
    session.follow tree root (early ++ late) =
      (session.follow tree root early).follow tree root late :=
  List.foldl_append

/-! ## Alike sessions -/

/-- Two sessions that differ in cells out of use alone. -/
structure Alike (left right : Session) : Prop where
  connection : left.connection.Alike right.connection
  socket : left.socket = right.socket
  due : left.due = right.due
  outcomes : left.outcomes = right.outcomes

variable {left right : Session} {tree : FileTree} {root : Text}

/-- What happens to both leaves them alike. -/
theorem Alike.meet (alike : left.Alike right) (stimulus : Stimulus) :
    (left.meet tree root stimulus).Alike (right.meet tree root stimulus) := by
  obtain ⟨mine, socket, due, outcomes⟩ := left
  obtain ⟨other, socketToo, dueToo, outcomesToo⟩ := right
  obtain ⟨connections, sameSocket, sameDue, sameOutcomes⟩ := alike
  dsimp only at connections sameSocket sameDue sameOutcomes
  subst sameSocket sameDue sameOutcomes
  cases stimulus with
  | feed incoming outgoing => exact ⟨connections, rfl, rfl, rfl⟩
  | stroke stroke =>
      cases stroke with
      | read =>
          obtain ⟨same, after, sockets⟩ := connections.read socket
          exact ⟨after, sockets, congrArg Stroke.afterRead same, rfl⟩
      | process =>
          obtain ⟨same, after⟩ := connections.processed tree root
          refine ⟨after, rfl, congrArg Stroke.afterProcess same, ?_⟩
          exact congrArg (fun outcome => outcomes ++ [Outcome.processed outcome]) same
      | write =>
          obtain ⟨same, after, sockets⟩ := connections.write socket
          refine ⟨after, sockets, congrArg Stroke.afterWrite same, ?_⟩
          exact congrArg (fun outcome => outcomes ++ [Outcome.written outcome]) same

theorem Alike.follow (alike : left.Alike right) (stimuli : List Stimulus) :
    (left.follow tree root stimuli).Alike (right.follow tree root stimuli) := by
  induction stimuli generalizing left right with
  | nil => exact alike
  | cons stimulus rest ih => exact ih (alike.meet stimulus)

/-- The cycle of one is the cycle of the other. -/
theorem Alike.cycles (alike : left.Alike right) {stimuli : List Stimulus}
    (cycles : left.Cycles tree root stimuli) : right.Cycles tree root stimuli := by
  induction stimuli generalizing left right with
  | nil => trivial
  | cons stimulus rest ih =>
      obtain ⟨allows, later⟩ := cycles
      refine ⟨?_, ih (alike.meet stimulus) later⟩
      cases stimulus with
      | feed => trivial
      | stroke stroke => exact alike.due.symm.trans allows

end Session

end FileServer
