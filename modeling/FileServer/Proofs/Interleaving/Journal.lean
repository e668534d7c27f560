import FileServer.Proofs.Interleaving.Life
import Mathlib.Algebra.GroupWithZero.Nat

/-!
# A journal of answers

The server counts the answers of its workers by their status codes, and the bytes of those
that were sent completely.  What it should have counted is seen from outside: each answer
that a piece of work has ended in, and what the socket has taken of it, over all calls that
send.  The journal of a run keeps this without a look at any counter, and without a look at
what a connection has noted about how far it has come.
-/

namespace FileServer

/-- An answer that a piece of work has ended in, and what the socket has taken of it. -/
structure Note where
  fd : Fd
  status : Option Status
  /-- All of the answer, head and body. -/
  whole : Bytes
  taken : Bytes
  deriving DecidableEq, Repr

namespace Note

/-- Whether the last byte of an answer was taken. -/
def isSent (note : Note) : Bool :=
  note.taken = note.whole

/-- The bytes that were taken of an answer, if the last one was. -/
def sentBytes (note : Note) : Nat :=
  if note.isSent then note.taken.length else 0

/-- The code that an answer has. -/
def code? (note : Note) : Option Nat :=
  note.status.map Status.code

end Note

/-- Answers in the order in which they were made, the newest first. -/
abbrev Journal := List Note

namespace Journal

/-- The latest answer under a number. -/
def latest? (journal : Journal) (fd : Fd) : Option Note :=
  journal.find? fun note => note.fd = fd

/-- Notes that a socket has taken bytes of the latest answer under its number. -/
def credit (fd : Fd) (bytes : Bytes) : Journal → Journal
  | [] => []
  | note :: rest =>
      if note.fd = fd then { note with taken := note.taken ++ bytes } :: rest
      else note :: credit fd bytes rest

/-- The bytes of all answers whose last byte was taken. -/
def sentBytes (journal : Journal) : Nat :=
  ((journal.filter Note.isSent).map fun note => note.taken.length).sum

variable {journal : Journal} {fd other : Fd} {note : Note} {bytes : Bytes}

theorem sentBytes_cons (note : Note) (journal : Journal) :
    sentBytes (note :: journal) = note.sentBytes + sentBytes journal := by
  simp only [sentBytes, Note.sentBytes, List.filter_cons]
  split <;> simp

theorem credit_nil (fd : Fd) (journal : Journal) : credit fd [] journal = journal := by
  induction journal with
  | nil => rfl
  | cons note rest ih =>
      simp only [credit, List.append_nil, ih]
      split <;> rfl

/-- What was made of an answer does not change any more. -/
theorem map_credit {β : Type} (image : Note → β) (fd : Fd) (bytes : Bytes) (journal : Journal)
    (same : ∀ note : Note, ∀ taken, image { note with taken } = image note) :
    (credit fd bytes journal).map image = journal.map image := by
  induction journal with
  | nil => rfl
  | cons note rest ih =>
      simp only [credit]
      split
      · simp only [List.map_cons, same]
      · simp only [List.map_cons, ih]

theorem latest?_credit (latest : latest? journal fd = some note) (bytes : Bytes) :
    latest? (credit fd bytes journal) fd = some { note with taken := note.taken ++ bytes } := by
  induction journal with
  | nil => cases latest
  | cons first rest ih =>
      simp only [latest?, List.find?_cons, credit] at latest ih ⊢
      by_cases mine : first.fd = fd
      · simp only [mine, decide_true, Option.some.injEq] at latest
        subst latest
        simp [mine]
      · simp only [mine, decide_false] at latest
        simp [mine, ih latest]

theorem latest?_credit_of_ne (differ : other ≠ fd) (bytes : Bytes) (journal : Journal) :
    latest? (credit fd bytes journal) other = latest? journal other := by
  induction journal with
  | nil => rfl
  | cons first rest ih =>
      simp only [latest?, credit] at ih ⊢
      by_cases mine : first.fd = fd
      · have elsewhere : first.fd ≠ other := mine ▸ Ne.symm differ
        simp [mine, Ne.symm differ]
      · simp only [mine, ↓reduceIte, List.find?_cons, ih]

/-- The bytes of answers that are sent change with the one that bytes are taken of. -/
theorem sentBytes_credit (latest : latest? journal fd = some note) (bytes : Bytes) :
    sentBytes (credit fd bytes journal) + note.sentBytes =
      sentBytes journal + { note with taken := note.taken ++ bytes }.sentBytes := by
  induction journal with
  | nil => cases latest
  | cons first rest ih =>
      simp only [latest?, List.find?_cons, credit] at latest ih ⊢
      by_cases mine : first.fd = fd
      · simp only [mine, decide_true, Option.some.injEq] at latest
        subst latest
        rw [if_pos mine, sentBytes_cons, sentBytes_cons]
        omega
      · simp only [mine, decide_false] at latest
        rw [if_neg mine, sentBytes_cons, sentBytes_cons]
        have others := ih latest
        omega

/-- An answer of which bytes are taken is one of the journal. -/
theorem forall_credit {property : Note → Prop} (all : ∀ note ∈ journal, property note)
    (credited : ∀ note, latest? journal fd = some note →
      property { note with taken := note.taken ++ bytes }) :
    ∀ note ∈ credit fd bytes journal, property note := by
  induction journal with
  | nil => exact all
  | cons first rest ih =>
      obtain ⟨here, there⟩ := List.forall_mem_cons.1 all
      simp only [credit]
      by_cases mine : first.fd = fd
      · rw [if_pos mine]
        refine List.forall_mem_cons.2 ⟨credited first ?_, there⟩
        simp [latest?, mine]
      · rw [if_neg mine]
        refine List.forall_mem_cons.2 ⟨here, ih there fun note latest => credited note ?_⟩
        simpa [latest?, mine] using latest

end Journal

namespace Connection

/-- The bytes that a socket takes in a call that sends. -/
def takes (connection : Connection) (socket : Socket) : Bytes :=
  (connection.write socket).2.2.sent.drop socket.sent.length

end Connection

namespace System

/-- The answer that a step ends in, if a worker makes one. -/
def made? (system : System) : Action → Option Note
  | .perform worker =>
      match system.server.pool.workers[worker]? with
      | some (.busy task) =>
          match system.server.table.slot? task.fd with
          | some slot =>
              let (outcome, worked) :=
                task.work system.server.tree system.server.settings.docRoot slot
              if outcome = .respond then
                some ⟨task.fd, worked.connection.status, worked.connection.answer, []⟩
              else none
          | none => none
      | _ => none
  | _ => none

/-- The number of a socket on which the loop sends in a step, and what the socket takes. -/
def took? (system : System) : Action → Option (Fd × Bytes)
  | .advance =>
      match system.place with
      | .serving (.ready fd _ :: _) _ =>
          if system.stimulus? fd .advance = some (.stroke .write) then
            (system.server.table.slot? fd).map fun slot =>
              (fd, slot.connection.takes (system.server.kernel.socket fd))
          else none
      | _ => none
  | _ => none

/-- The journal after a step. -/
def noted (system : System) (action : Action) (journal : Journal) : Journal :=
  match system.made? action, system.took? action with
  | some note, _ => note :: journal
  | none, some (fd, bytes) => journal.credit fd bytes
  | none, none => journal

end System

namespace Life

/-- The journal after a run. -/
def journal : Life → List Action → Journal → Journal
  | _, [], noted => noted
  | life, action :: rest, noted =>
      match life.step? action with
      | some next => next.journal rest (life.system.noted action noted)
      | none => noted

end Life

end FileServer
