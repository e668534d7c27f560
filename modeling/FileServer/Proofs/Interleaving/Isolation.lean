import FileServer.Proofs.Exchange.Resumption
import FileServer.Proofs.Exchange.Storage
import FileServer.Proofs.Interleaving.Rounds

/-!
# Connections do not notice each other

A connection shares the loop, the workers and the table of slots with all others, and its
slot with those that came before.  None of this shows.  From the step that takes it in to
the step that closes it, a connection is in the state of a session (`Plays`), and a
session is a matter of the connection and its socket alone.

Two things remain.  The slot may have been in use, so its buffers may hold the bytes of
another client; they have the sizes of new ones (`Reachable.sized`), and so what is left in
them is out of sight.  And the documents have to be the same all along
(`sameDocuments_run`).
-/

namespace FileServer

namespace Connection

theorem Sized.processed {connection : Connection} (sized : connection.Sized) (tree : FileTree)
    (root : Text) : (connection.processed tree root).2.Sized := by
  simp only [Connection.processed]
  cases worked : connection.process? tree root with
  | none => exact sized
  | some result => exact (keepsSizes_process worked).sized sized

end Connection

namespace System

variable {system next : System} {fd : Fd} {slot : Slot} {socket : Option Socket}
variable {action : Action} {after : Server} {stimulus : Option Stimulus}

/-! ## What stays in a slot -/

/-- No step changes the sizes of what a connection has set aside. -/
theorem Passes.sized (passes : Passes system fd slot socket action after stimulus)
    (sized : slot.connection.Sized) : (after.table.vacancy fd).connection.Sized := by
  cases passes with
  | still houses | fed houses | handedOut _ _ houses | deferred _ houses | returned _ _ _ houses =>
      rw [houses.slot]
      exact sized
  | opened _ _ houses =>
      rw [houses.slot]
      exact sized.accepted _
  | unwatched _ houses =>
      rw [houses.slot]
      exact (Connection.keepsSizes_close _).sized (sized.accepted _)
  | closed _ houses =>
      rw [houses.slot]
      exact (Connection.keepsSizes_close _).sized sized
  | received _ _ _ received houses =>
      rw [houses.slot]
      exact (Connection.keepsSizes_read received).sized sized
  | receivedLast _ _ _ received houses =>
      rw [houses.slot]
      exact (Connection.keepsSizes_close _).sized
        ((Connection.keepsSizes_read received).sized sized)
  | worked _ _ houses =>
      rw [houses.slot]
      exact sized.processed _ _
  | sent _ _ _ written _ houses =>
      rw [houses.slot]
      exact (Connection.keepsSizes_write written).sized sized
  | sentLast _ _ _ written houses =>
      rw [houses.slot]
      exact (Connection.keepsSizes_close _).sized
        ((Connection.keepsSizes_write written).sized sized)

/-- Whatever a slot has been through, what it has set aside has the usual sizes. -/
theorem Reachable.sized (reached : Reachable system) (fd : Fd) :
    (system.server.table.vacancy fd).connection.Sized := by
  induction reached with
  | @start settings _ _ _ launched =>
      obtain ⟨-, rfl⟩ := launch?_eq_some launched
      have unknown : (Slots.ofLimit settings.maxFd).vacancy fd = .fresh := by
        rw [Slots.vacancy, Slots.slot?_ofLimit]
        rfl
      change ((Slots.ofLimit settings.maxFd).vacancy fd).connection.Sized
      rw [unknown]
      exact Connection.sized_fresh
  | step reached stepped ih =>
      exact (passes_of_step? reached.owned stepped ⟨rfl, rfl⟩).sized ih

/-! ## Runs -/

variable {last : System} {session : Session} {actions : List Action} {tree : FileTree}
variable {settings : Settings}

theorem stimuli_cons (stepped : system.step? action = some next) (fd : Fd)
    (actions : List Action) :
    system.stimuli fd (action :: actions) =
      (system.stimulus? fd action).toList ++ next.stimuli fd actions := by
  rw [stimuli, stepped]

theorem outcomes_cons (stepped : system.step? action = some next) (fd : Fd)
    (actions : List Action) :
    system.outcomes fd (action :: actions) =
      (system.outcome? fd action).toList ++ next.outcomes fd actions := by
  rw [outcomes, stepped]

/-- For as long as it is open, a connection goes through its session. -/
theorem Plays.run (plays : system.Plays fd session) (reached : Reachable system)
    (documents : system.server.tree = tree) (rules : system.server.settings = settings)
    (stays : system.Observes (StaysOpen fd) actions)
    (unused : system.Observes HandsOutUnused actions) (ran : system.run? actions = some last) :
    last.Plays fd (session.follow tree settings.docRoot (system.stimuli fd actions)) ∧
      (session.follow tree settings.docRoot (system.stimuli fd actions)).outcomes =
        session.outcomes ++ system.outcomes fd actions := by
  induction actions generalizing system session with
  | nil =>
      obtain rfl := eq_of_run?_nil ran
      exact ⟨plays, (List.append_nil _).symm⟩
  | cons action actions ih =>
      obtain ⟨next, stepped, rest⟩ := run?_cons_eq_some.1 ran
      obtain ⟨used, staysLater⟩ := stays
      obtain ⟨free, unusedLater⟩ := unused
      rw [stepped] at staysLater unusedLater
      have same := sameDocuments_step? reached.owned stepped
      have goesOn := plays.step? reached.owned used free stepped
      have reports := plays.outcomes reached.owned used stepped
      rw [documents, rules] at goesOn reports
      obtain ⟨ends, all⟩ := ih goesOn (reached.step stepped) (same.tree.trans documents)
        (same.settings.trans rules) staysLater unusedLater rest
      rw [stimuli_cons stepped, outcomes_cons stepped, Session.follow_append]
      refine ⟨ends, all.trans ?_⟩
      rw [reports, List.append_assoc]

/-- As long as it is open, the calls on a connection are those that are due, if events are
delivered to armed descriptors only. -/
theorem InTurn.run (inTurn : system.InTurn fd session) (plays : system.Plays fd session)
    (reached : ReachableUnder DeliversArmed system) (documents : system.server.tree = tree)
    (rules : system.server.settings = settings) (stays : system.Observes (StaysOpen fd) actions)
    (unused : system.Observes HandsOutUnused actions)
    (armed : system.Observes DeliversArmed actions) (ran : system.run? actions = some last) :
    session.Cycles tree settings.docRoot (system.stimuli fd actions) := by
  induction actions generalizing system session with
  | nil => trivial
  | cons action actions ih =>
      obtain ⟨next, stepped, rest⟩ := run?_cons_eq_some.1 ran
      obtain ⟨used, staysLater⟩ := stays
      obtain ⟨free, unusedLater⟩ := unused
      obtain ⟨allowed, armedLater⟩ := armed
      rw [stepped] at staysLater unusedLater armedLater
      have owned := reached.reachable.owned
      have later := reached.step allowed stepped
      have same := sameDocuments_step? owned stepped
      have goesOn := plays.step? owned used free stepped
      have turns := inTurn.step? plays reached.attentive owned later.reachable.owned used stepped
      have cycles := ih turns goesOn later (same.tree.trans documents) (same.settings.trans rules)
        staysLater unusedLater armedLater rest
      rw [documents, rules] at cycles
      have passes := passes_of_step? owned stepped ⟨rfl, plays.socket⟩
      have found : system.server.table.slot? fd = some (system.server.table.vacancy fd) :=
        Slots.slot?_of_vacancy rfl (by rwa [Slots.custody_vacancy])
      rw [stimuli_cons stepped]
      generalize system.stimulus? fd action = stimulus at passes cycles
      cases stimulus with
      | none => exact cycles
      | some stimulus => exact ⟨inTurn.allows reached.attentive found passes, cycles⟩

/-! ## Beginnings -/

/-- The loop takes in a connection under a number that is not in use. -/
structure Accepts (system : System) (fd : Fd) (peer : Address) (outgoing : List Transmit)
    (next : System) : Prop where
  incoming : system.incoming? = some fd
  waiting : ∃ failing rest,
    system.server.kernel.arrivals = .connection fd peer outgoing failing :: rest
  unused : system.server.table.custody fd = .free
  stepped : system.step? .advance = some next
  taken : next.server.table.custody fd = .loop

/-- A connection that is taken in has the slot that was free, and a new socket. -/
theorem Accepts.houses {peer : Address} {outgoing : List Transmit} (reached : Reachable system)
    (accepts : system.Accepts fd peer outgoing next) :
    ∃ slot : Slot, slot.connection.Sized ∧
      next.server.Houses fd (slot.opened peer) (some { outgoing }) := by
  obtain ⟨slot, houses⟩ : ∃ slot, system.server.Houses fd slot
    (system.server.kernel.sockets.find? fd) := ⟨_, rfl, rfl⟩
  have sized := reached.sized fd
  have unused : slot.custody = .free := houses.custody ▸ accepts.unused
  have passes := passes_of_step? reached.owned accepts.stepped houses
  have taken {held : Slot} {socket : Option Socket} (later : next.server.Houses fd held socket) :
      held.custody = .loop := later.custody ▸ accepts.taken
  rw [houses.slot] at sized
  generalize system.stimulus? fd .advance = stimulus at passes
  cases passes with
  | opened arrivals _ later =>
      obtain ⟨failing, rest, waiting⟩ := accepts.waiting
      cases arrivals.symm.trans waiting
      exact ⟨slot, sized, later⟩
  | still later | fed later | handedOut _ _ later => cases unused.symm.trans (taken later)
  | unwatched _ later => cases taken later
  | closed used => exact (used unused).elim
  | deferred lent | worked _ lent =>
      rcases lent with lent | lent <;> cases unused.symm.trans lent
  | returned _ _ lent => cases unused.symm.trans lent
  | received _ _ held | receivedLast _ _ held | sent _ _ held | sentLast _ _ held =>
      cases unused.symm.trans held

/-- A connection that was just taken in waits for its first request. -/
theorem inTurn_opened {peer : Address} {outgoing : List Transmit} (owned : system.Owned)
    (houses : system.server.Houses fd (slot.opened peer) socket) :
    system.InTurn fd (.opened slot.connection peer outgoing) where
  held present found _ := by
    cases houses.eq_of_slot? found
    rfl
  lent task progress errand mine := (errand.fd_ne owned houses.lent mine).elim

/-- Whatever a slot was used for, and whatever else goes on: as long as a connection is
open, its socket and the outcomes of the calls on it are those of a new connection that has
taken the same socket and is alone, and on which the same calls are made.  If events are
delivered to armed descriptors only, these calls follow the cycle of a connection. -/
theorem connections_isolated {now : Nat} {first opening accepted : System} {peer : Address}
    {outgoing : List Transmit} {before during : List Action}
    (launched : launch? settings tree now = some first) (ran : first.run? before = some opening)
    (accepts : opening.Accepts fd peer outgoing accepted)
    (goesOn : accepted.run? during = some last) (stays : accepted.Observes (StaysOpen fd) during)
    (unused : accepted.Observes HandsOutUnused during) :
    ∃ alone, (Session.start peer outgoing).follow tree settings.docRoot
        (accepted.stimuli fd during) = alone ∧
      last.server.kernel.socket fd = alone.socket ∧
      accepted.outcomes fd during = alone.outcomes ∧
      (first.Observes DeliversArmed (before ++ .advance :: during) →
        (Session.start peer outgoing).Cycles tree settings.docRoot
          (accepted.stimuli fd during)) := by
  have reached := (Reachable.start launched).run ran
  have reachedToo := reached.step accepts.stepped
  obtain ⟨slot, sized, houses⟩ := accepts.houses reached
  obtain ⟨sameTree, sameSettings, -⟩ : SameDocuments first.server accepted.server := by
    have early := sameDocuments_run (.start launched) ran
    have late := sameDocuments_step? reached.owned accepts.stepped
    exact early.trans late
  have known : accepted.server.tree = tree ∧ accepted.server.settings = settings := by
    obtain ⟨-, rfl⟩ := launch?_eq_some launched
    exact ⟨sameTree, sameSettings⟩
  -- The session of the connection in its slot, and what it would be in a new one.
  have alike : (Session.opened slot.connection peer outgoing).Alike (.start peer outgoing) :=
    ⟨sized.accept peer, rfl, rfl, rfl⟩
  have plays : accepted.Plays fd (.opened slot.connection peer outgoing) :=
    plays_of_houses houses fun _ => rfl
  obtain ⟨ends, outcomes⟩ := plays.run reachedToo known.1 known.2 stays unused goesOn
  have alikeEnds := @Session.Alike.follow _ _ tree settings.docRoot alike
    (accepted.stimuli fd during)
  refine ⟨_, rfl, ?_, ?_, fun armed => ?_⟩
  · rw [Kernel.socket, ends.socket, ← alikeEnds.socket]
    rfl
  · rw [← alikeEnds.outcomes, outcomes]
    rfl
  · obtain ⟨armedBefore, armedFrom⟩ := armed.of_append ran
    obtain ⟨allowed, armedLater⟩ := armedFrom
    rw [accepts.stepped] at armedLater
    have under := ((ReachableUnder.start launched).run armedBefore ran).step allowed accepts.stepped
    have inTurn := @inTurn_opened _ _ _ _ _ outgoing reachedToo.owned houses
    exact alike.cycles (inTurn.run plays under known.1 known.2 stays unused armedLater goesOn)

/-- A connection leaves a part of a request in its slot and is closed.  Then two clients
come, and the number and the slot are used again. -/
def tenantsBefore : List Action :=
  [.outside (.arrive [.connection 7 ⟨.short [10, 0, 0, 1], 4000⟩ [] []]),
    .deliver [.arrivals], .advance, .advance, .advance, .advance, .advance,
    .outside (.feed 7 [.data (utf8 "GET /secret")] [] []),
    .deliver [.ready 7 ⟨true, false, false⟩], .advance,
    .proceed 0, .proceed 0, .proceed 0, .perform 0, .report 0, .wake 0,
    .advance, .advance, .advance,
    .deliver [.ready 7 ⟨true, false, true⟩], .advance, .advance, .advance,
    .outside (.arrive [.connection 7 ⟨.short [10, 0, 0, 2], 4001⟩ [.accept 9] [],
      .connection 8 ⟨.short [10, 0, 0, 1], 4002⟩ [] []]),
    .deliver [.arrivals], .advance]

/-- Two workers have the connections of both clients in their hands, and one of them is
answered. -/
def tenantsDuring : List Action :=
  [.advance, .advance, .advance, .advance,
    .outside (.feed 7 [.data (utf8 "GET /a HTTP/1.1\r\n\r\n")] [] []),
    .outside (.feed 8 [.data (utf8 "GET ")] [] []),
    .deliver [.ready 8 ⟨true, false, false⟩, .ready 7 ⟨true, false, false⟩], .advance, .advance,
    .proceed 1, .proceed 1, .proceed 1, .proceed 0, .proceed 0, .proceed 0,
    .perform 0, .perform 1, .report 1, .report 0, .wake 0,
    .advance, .advance, .advance, .advance,
    .deliver [.ready 7 ⟨false, true, false⟩], .advance]

/-- What happens in such a run to the client that is answered. -/
def tenantStimuli : List Stimulus :=
  [.feed [.data (utf8 "GET /a HTTP/1.1\r\n\r\n")] [], .stroke .read, .stroke .process,
    .stroke .write]

/-- The client gets what it would get alone on a new connection. -/
theorem connections_isolated_tenants :
    ∃ system : System, ∃ alone : Session, Reachable system ∧
      (Session.start ⟨.short [10, 0, 0, 2], 4001⟩ [.accept 9]).follow Connection.smallTree []
        tenantStimuli = alone ∧
      system.server.kernel.socket 7 = alone.socket ∧
      alone.outcomes = [.processed .respond, .written .close] ∧
      (Session.start ⟨.short [10, 0, 0, 2], 4001⟩ [.accept 9]).Cycles Connection.smallTree []
        tenantStimuli := by
  have evaluated : ((launch? { docRoot := [] } Connection.smallTree 0).bind fun first =>
      (first.run? tenantsBefore).bind fun opening =>
      (opening.step? .advance).bind fun accepted =>
      (accepted.run? tenantsDuring).bind fun last =>
        if opening.incoming? = some 7 ∧
            opening.server.kernel.arrivals.head? = some
              (.connection 7 ⟨.short [10, 0, 0, 2], 4001⟩ [.accept 9] []) ∧
            opening.server.table.custody 7 = .free ∧ accepted.server.table.custody 7 = .loop ∧
            accepted.Observes (StaysOpen 7) tenantsDuring ∧
            accepted.Observes HandsOutUnused tenantsDuring ∧
            first.Observes DeliversArmed (tenantsBefore ++ .advance :: tenantsDuring) then
          some (accepted.stimuli 7 tenantsDuring, accepted.outcomes 7 tenantsDuring)
        else none) = some (tenantStimuli, [.processed .respond, .written .close]) := by
    decide +kernel
  simp only [Option.bind_eq_some_iff] at evaluated
  obtain ⟨first, launched, opening, ran, accepted, stepped, last, goesOn, rest⟩ := evaluated
  split at rest
  · next lawful =>
      obtain ⟨incoming, arrival, unused, taken, stays, fresh, armed⟩ := lawful
      simp only [Option.some.injEq, Prod.mk.injEq] at rest
      obtain ⟨stimuli, outcomes⟩ := rest
      have accepts : opening.Accepts 7 ⟨.short [10, 0, 0, 2], 4001⟩ [.accept 9] accepted :=
        ⟨incoming, ⟨[], List.head?_eq_some_iff.1 arrival⟩, unused, stepped, taken⟩
      obtain ⟨alone, follows, socket, same, cycles⟩ :=
        connections_isolated launched ran accepts goesOn stays fresh
      have reached := (((Reachable.start launched).run ran).step stepped).run goesOn
      rw [stimuli] at follows cycles
      exact ⟨last, alone, reached, follows, socket, same.symm.trans outcomes, cycles armed⟩
  · cases rest

end System

end FileServer
