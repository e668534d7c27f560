import FileServer.Exchange.Writing

/-!
# The course of sending

Whatever the socket answers, sending does one of four things to a connection: it
stops for now, gives up, finishes the answer, or sends a part and goes on.  The
relation `Transmission` has one rule for each, and forgets which answers of the
socket led there.
-/

namespace FileServer.Connection

/-- What sending does to a connection: outcome, connection behind it, and bytes
taken by the socket. -/
inductive Transmission : Connection → Written → Connection → Bytes → Prop
  /-- The socket takes no more for now. -/
  | again {connection : Connection} : Transmission connection .again connection []
  /-- The socket failed, or took nothing. -/
  | gaveUp {connection : Connection} :
      Transmission connection .failed { connection with file := none } []
  /-- The socket took the last bytes. -/
  | finished {connection next : Connection} {outcome : Written} {taken : Bytes}
      (front : taken <+: connection.unsent) (nonempty : taken ≠ [])
      (advanced : connection.advance taken.length = (some outcome, next)) :
      Transmission connection outcome next taken
  /-- The socket took some bytes, and is asked again. -/
  | goesOn {connection next last : Connection} {outcome : Written} {taken more : Bytes}
      (front : taken <+: connection.unsent) (nonempty : taken ≠ [])
      (advanced : connection.advance taken.length = (none, next))
      (rest : Transmission next outcome last more) :
      Transmission connection outcome last (taken ++ more)

/-- Sending is a transmission. -/
theorem transmission_transmit (answers : List Transmit) (connection : Connection) :
    Transmission connection (transmit answers connection).1 (transmit answers connection).2.1
      (transmit answers connection).2.2.1 := by
  fun_induction transmit answers connection with
  | case1 connection taken nothing outcome stopped gaveUp =>
      cases gaveUp
      exact .gaveUp
  | case2 connection taken something outcome next advanced =>
      exact .finished List.prefix_rfl (by simpa using something) advanced
  | case3 connection taken something next advanced outcome stopped gaveUp =>
      cases gaveUp
      have sent := Transmission.goesOn List.prefix_rfl (by simpa using something) advanced .gaveUp
      rwa [List.append_nil] at sent
  | case4 rest connection => exact .again
  | case5 rest connection ih => exact ih
  | case6 kind rest connection _ _ outcome stopped gaveUp =>
      cases gaveUp
      exact .gaveUp
  | case7 count rest connection taken nothing outcome stopped gaveUp =>
      cases gaveUp
      exact .gaveUp
  | case8 count rest connection taken something outcome next advanced =>
      exact .finished (List.take_prefix count connection.unsent) (by simpa using something) advanced
  | case9 count rest connection taken something next advanced outcome last more left sent ih =>
      rw [sent] at ih
      exact .goesOn (List.take_prefix count connection.unsent) (by simpa using something) advanced
        ih

/-- A call that sends does nothing without a socket, starts over without an
answer, and is a transmission else. -/
theorem write_cases {connection next : Connection} {socket after : Socket} {outcome : Written}
    (written : connection.write socket = (outcome, next, after)) :
    connection.isOpen = false ∧ outcome = .failed ∧ next = connection ∧ after = socket ∨
      connection.toSend = 0 ∧ outcome = .keepAlive ∧ next = connection.reset ∧ after = socket ∨
      connection.isOpen = true ∧ connection.toSend ≠ 0 ∧
        ∃ taken, Transmission connection outcome next taken ∧
          after.sent = socket.sent ++ taken := by
  unfold write at written
  split at written
  · next closed =>
      cases written
      exact .inl ⟨by simpa using closed, rfl, rfl, rfl⟩
  · next opened =>
      split at written
      · next idle =>
          cases written
          exact .inr (.inl ⟨idle, rfl, rfl, rfl⟩)
      · next answering =>
          have sent := transmission_transmit socket.outgoing connection
          cases written
          exact .inr (.inr ⟨by simpa using opened, answering, _, sent, rfl⟩)

/-- What a number of bytes sent means: there is more to send, or the connection
starts over, or it is to be closed. -/
theorem advance_cases (connection : Connection) (count : Nat) :
    connection.haveSent + count < connection.toSend ∧
        connection.advance count =
          (none, { connection with haveSent := connection.haveSent + count }) ∨
      connection.toSend ≤ connection.haveSent + count ∧
        (connection.keepAlive = true ∧
            connection.advance count = (some .keepAlive, connection.reset) ∨
          connection.keepAlive = false ∧
            connection.advance count = (some .close,
              { connection with haveSent := connection.haveSent + count, file := none })) := by
  by_cases unfinished : connection.haveSent + count < connection.toSend
  · exact .inl ⟨unfinished, by simp [advance, unfinished]⟩
  · refine .inr ⟨by omega, ?_⟩
    cases kept : connection.keepAlive with
    | true => exact .inl ⟨rfl, by simp [advance, unfinished, kept, reset]⟩
    | false => exact .inr ⟨rfl, by simp [advance, unfinished, kept]⟩

end FileServer.Connection
