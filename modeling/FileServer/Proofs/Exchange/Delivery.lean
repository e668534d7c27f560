import FileServer.Proofs.Exchange.Resumption
import FileServer.Proofs.Exchange.Session
import FileServer.Proofs.Exchange.Storage

/-!
# What a session receives and sends

Sockets may deliver bytes in any pieces and take them in any pieces.  As long as
nothing goes wrong, a session that receives holds all bytes behind those it had, and
a session that sends goes on until the socket has taken the rest of the answer, and
then has started over.
-/

namespace FileServer

/-- The bytes that an answer of a socket brings. -/
def Receive.bytes : Receive → Bytes
  | .data bytes => bytes
  | .failure _ | .endOfStream => []

/-- An answer that brings bytes, or says that the call was interrupted. -/
def Receive.Brings : Receive → Prop
  | .data bytes => bytes ≠ []
  | .failure kind => kind = .interrupted
  | .endOfStream => False

/-- An answer that takes bytes, or says that the call is to be repeated. -/
def Transmit.Willing : Transmit → Prop
  | .accept count => count ≠ 0
  | .failure kind => kind = .wouldBlock ∨ kind = .interrupted

instance (answer : Receive) : Decidable answer.Brings := by
  cases answer <;> unfold Receive.Brings <;> infer_instance

instance (answer : Transmit) : Decidable answer.Willing := by
  cases answer <;> unfold Transmit.Willing <;> infer_instance

/-- All bytes that some answers bring. -/
def arrived (answers : List Receive) : Bytes :=
  answers.flatMap Receive.bytes

theorem arrived_append (front rest : List Receive) :
    arrived (front ++ rest) = arrived front ++ arrived rest :=
  List.flatMap_append

theorem arrived_cons (answer : Receive) (rest : List Receive) :
    arrived (answer :: rest) = answer.bytes ++ arrived rest := rfl

namespace Connection

/-- What fits is received whole.  Behind it the socket has nothing left but
interruptions. -/
theorem receive_of_brings {answers : List Receive} (brings : ∀ answer ∈ answers, answer.Brings)
    {buffer : Buffer} {held : Bytes} (holds : buffer.Holds held)
    (fits : (held ++ arrived answers).length ≤ buffer.capacity) (total : Nat) :
    ∃ count next rest, receive answers buffer total = (.ok count, next, rest) ∧
      next.Holds (held ++ arrived answers) ∧ next.capacity = buffer.capacity ∧
      (∀ answer ∈ rest, answer.Brings) ∧ arrived rest = [] := by
  induction answers generalizing buffer held total with
  | nil => exact ⟨total, buffer, [], rfl, by simpa [arrived] using holds, rfl, brings, rfl⟩
  | cons answer rest ih =>
      obtain ⟨first, others⟩ := List.forall_mem_cons.1 brings
      rw [arrived_cons] at fits ⊢
      by_cases full : buffer.room = 0
      · -- A full buffer has no place for bytes, so there are none.
        have nothing : answer.bytes ++ arrived rest = [] := by
          have whole := holds.length_add_room
          rw [List.length_append] at fits
          exact List.eq_nil_of_length_eq_zero (by omega)
        refine ⟨total, buffer, answer :: rest, ?_, ?_, rfl, brings, nothing⟩
        · simp only [receive, full, ↓reduceIte]
        · rwa [nothing, List.append_nil]
      · cases answer with
        | endOfStream => exact first.elim
        | failure kind =>
            cases first
            rw [receive, if_neg full]
            exact ih others holds fits total
        | data bytes =>
            have some : bytes ≠ [] := first
            have filled : bytes.isEmpty = false := by simpa using some
            have room : bytes.length ≤ buffer.room := by
              have whole := holds.length_add_room
              simp only [Receive.bytes, List.length_append] at fits
              omega
            have stored := holds.store room
            simp only [Receive.bytes, ← List.append_assoc] at fits ⊢
            have goesOn := ih others stored (by rwa [Buffer.capacity_store])
              (total + bytes.length)
            simpa only [receive, full, filled, room, ↓reduceIte, Bool.false_eq_true,
              Buffer.capacity_store] using goesOn

/-! ## Sending -/

/-- A connection in the middle of an answer after which it stays open. -/
structure Answering (connection : Connection) : Prop where
  isOpen : connection.isOpen = true
  keepAlive : connection.keepAlive = true
  whole : connection.toSend = connection.answer.length
  unfinished : connection.haveSent < connection.toSend

variable {connection : Connection}

theorem Answering.unsent_ne_nil (answering : connection.Answering) : connection.unsent ≠ [] := by
  have whole := answering.whole
  have unfinished := answering.unfinished
  apply List.ne_nil_of_length_pos
  rw [unsent, List.length_drop]
  omega

/-- A part of the answer is sent: either more is left, or the connection starts
over. -/
theorem Answering.advance (answering : connection.Answering) {taken : Bytes}
    (front : taken <+: connection.unsent) :
    (∃ next : Connection, connection.advance taken.length = (none, next) ∧ next.Answering ∧
        next.reset = connection.reset ∧ connection.unsent = taken ++ next.unsent) ∨
      connection.advance taken.length = (some .keepAlive, connection.reset) ∧
        connection.unsent = taken := by
  obtain ⟨rest, equal⟩ := front
  have length := congrArg List.length equal
  have whole := answering.whole
  rw [unsent, List.length_append, List.length_drop] at length
  rcases advance_cases connection taken.length with
    ⟨short, goesOn⟩ | ⟨enough, ⟨-, startsOver⟩ | ⟨closes, -⟩⟩
  · refine .inl ⟨_, goesOn, ⟨answering.isOpen, answering.keepAlive, whole, short⟩, rfl, ?_⟩
    have later : ({ connection with haveSent := connection.haveSent + taken.length } :
        Connection).unsent = connection.unsent.drop taken.length := by
      rw [unsent, unsent, List.drop_drop]
      rfl
    rw [later, ← equal, List.drop_left]
  · refine .inr ⟨startsOver, ?_⟩
    have empty : rest = [] := List.eq_nil_of_length_eq_zero (by omega)
    rw [← equal, empty, List.append_nil]
  · cases answering.keepAlive.symm.trans closes

/-- A socket that takes bytes is sent the rest of the answer, or a part of it before
it takes no more for now. -/
theorem Answering.transmit (answering : connection.Answering) {answers : List Transmit}
    (willing : ∀ answer ∈ answers, answer.Willing) :
    ∃ outcome next taken rest, transmit answers connection = (outcome, next, taken, rest) ∧
      (∀ answer ∈ rest, answer.Willing) ∧
      (outcome = .again ∧ rest.length < answers.length ∧ next.Answering ∧
          next.reset = connection.reset ∧ connection.unsent = taken ++ next.unsent ∨
        outcome = .keepAlive ∧ next = connection.reset ∧ connection.unsent = taken) := by
  induction answers generalizing connection with
  | nil =>
      have some := answering.unsent_ne_nil
      rcases answering.advance List.prefix_rfl with ⟨next, -, more, -, wrong⟩ | ⟨last, -⟩
      · have empty := List.append_cancel_left ((List.append_nil _).trans wrong)
        exact (more.unsent_ne_nil empty.symm).elim
      · refine ⟨.keepAlive, connection.reset, connection.unsent, [], ?_, willing,
          .inr ⟨rfl, rfl, rfl⟩⟩
        simp only [Connection.transmit, last]
        rw [if_neg (by simpa using some)]
  | cons answer rest ih =>
      obtain ⟨first, others⟩ := List.forall_mem_cons.1 willing
      cases answer with
      | failure kind =>
          rcases first with rfl | rfl
          · exact ⟨.again, connection, [], rest, rfl, others,
              .inl ⟨rfl, Nat.lt_succ_self _, answering, rfl, rfl⟩⟩
          · obtain ⟨outcome, next, taken, left, sent, willingToo, ends⟩ := ih answering others
            refine ⟨outcome, next, taken, left, sent, willingToo, ?_⟩
            rcases ends with ⟨again, fewer, more⟩ | kept
            · exact .inl ⟨again, Nat.lt_succ_of_lt fewer, more⟩
            · exact .inr kept
      | accept count =>
          have some : connection.unsent.take count ≠ [] := by
            have := answering.unsent_ne_nil
            simp only [ne_eq, List.take_eq_nil_iff, not_or]
            exact ⟨first, this⟩
          simp only [Connection.transmit]
          rw [if_neg (by simpa using some)]
          rcases answering.advance (List.take_prefix count _) with
            ⟨next, goesOn, more, same, cut⟩ | ⟨last, all⟩
          · obtain ⟨outcome, final, taken, left, sent, willingToo, ends⟩ := ih more others
            rw [goesOn]
            refine ⟨outcome, final, connection.unsent.take count ++ taken, left, ?_, willingToo, ?_⟩
            · dsimp only
              rw [sent]
            · rcases ends with ⟨again, fewer, later, sameToo, cutToo⟩ | ⟨kept, anew, cutToo⟩
              · refine .inl ⟨again, Nat.lt_succ_of_lt fewer, later, sameToo.trans same, ?_⟩
                exact cut.trans (by rw [cutToo, List.append_assoc])
              · exact .inr ⟨kept, anew.trans same, cut.trans (by rw [cutToo])⟩
          · rw [last]
            exact ⟨.keepAlive, connection.reset, _, rest, rfl, others, .inr ⟨rfl, rfl, all⟩⟩

end Connection

end FileServer
