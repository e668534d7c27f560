import FileServer.Proofs.Interleaving.Activity
import FileServer.Startup

/-!
# Deadlines out of reach

Settings are accepted with any timeslot but zero, though spans of time and moments have a
greatest value.  A connection may be idle for three timeslots.  When this is no span of time
any more, the summary of the settings breaks down where it is to tell it; when the deadline of
a connection lies beyond the last moment, the loop breaks down where it is to set it.  Nothing
else makes the loop break down.
-/

namespace FileServer

namespace Deadline

variable {now timeslot : Nat}

/-- Three timeslots are a span of time as long as they are shorter than the bound. -/
theorem idleSeconds_eq (timeslot : Nat) :
    idleSeconds timeslot =
      if 3 * timeslot < spanBound then .ok (3 * timeslot) else .error .spanTooLong := by
  rw [idleSeconds, idleTimeslots, Nat.mul_comm]

/-- A deadline lies three timeslots ahead, if there is such a moment. -/
theorem ofActivity_eq (now timeslot : Nat) :
    ofActivity now timeslot =
      if now / 1000 + 3 * timeslot < momentBound then .ok (now + 3 * timeslot * 1000)
      else if 3 * timeslot < spanBound then .error .momentTooLate
      else .error .spanTooLong := by
  rw [ofActivity, idleSeconds_eq]
  by_cases spans : 3 * timeslot < spanBound
  · simp only [spans, ↓reduceIte]
  · have beyond : ¬now / 1000 + 3 * timeslot < momentBound := by
      simp only [spanBound, momentBound] at *
      omega
    simp only [spans, beyond, ↓reduceIte]

theorem exists_fault_iff :
    (∃ fault, ofActivity now timeslot = .error fault) ↔
      momentBound ≤ now / 1000 + 3 * timeslot := by
  rw [ofActivity_eq, ← Nat.not_lt]
  by_cases within : now / 1000 + 3 * timeslot < momentBound
  · simp [within]
  · by_cases spans : 3 * timeslot < spanBound <;> simp [within, spans]

end Deadline

/-! ## The summary of the settings -/

theorem Logger.filter_log (logger : Logger) (moment : Int) (event : LogEvent) :
    (logger.log moment event).filter = logger.filter := by
  rw [log]
  split <;> rfl

/-- The summary is told unless it is to tell a time that is no span of time. -/
theorem Start.exists_summarize_iff {settings : Settings} {moment : Int} {logger : Logger} :
    (∃ logged, summarize settings moment logger = .ok logged) ↔
      (settings.connectionsEvent 0).passes logger.filter = false ∨
        3 * settings.timeslot < Deadline.spanBound := by
  simp only [summarize, Logger.filter_log, Deadline.idleSeconds_eq]
  by_cases told : (settings.connectionsEvent 0).passes logger.filter = true
  · by_cases spans : 3 * settings.timeslot < Deadline.spanBound <;> simp [told, spans]
  · simp [told]

namespace Server

variable {server : Server} {fd : Fd} {fault : DeadlineFault}

/-! ## Which handlers set a deadline -/

/-- The deadline of a connection that is active now. -/
def deadline (server : Server) : Except DeadlineFault Nat :=
  Deadline.ofActivity server.kernel.now server.settings.timeslot

/-- The server with the socket of the next connection. -/
def offered (server : Server) (fd : Fd) (outgoing : List Transmit) (failing : List Call)
    (rest : List Arrival) : Server :=
  { server.setArrivals rest with
    kernel := (server.setArrivals rest).kernel.openSocket fd outgoing failing }

/-- Whether a new connection gets a slot and is watched. -/
def admits (server : Server) (fd : Fd) (peer : Address) : Bool :=
  !server.isFull fd && !server.kernel.fails fd .setNonblocking &&
    (server.table.open? fd peer).isSome && (server.kernel.register? fd .readable).isSome

theorem now_register? {kernel registered : Kernel} {interest : Interest}
    (done : kernel.register? fd interest = some registered) : registered.now = kernel.now := by
  simp only [Kernel.register?] at done
  split at done <;> cases done
  rfl

/-- Taking a connection in fails only where its deadline is to be set. -/
theorem takeIn_eq_error_iff {peer : Address} :
    server.takeIn fd peer = .error fault ↔
      server.admits fd peer = true ∧ server.deadline = .error fault := by
  simp only [takeIn, admits]
  split
  · next full => simp [full]
  · next room =>
      split
      · next failing => simp [failing]
      · next ready =>
          split
          · next refused => simp [refused]
          · next generation table opened =>
              simp only [watch]
              cases registered : server.kernel.register? fd .readable with
              | none => simp
              | some kernel =>
                  simp only [now_register? registered, deadline]
                  split
                  · next beyond => simp [room, ready, opened, beyond]
                  · next within => simp [within]

theorem refreshTimer_eq_error_iff {generation : Nat} :
    server.refreshTimer fd generation = .error fault ↔ server.deadline = .error fault := by
  simp only [refreshTimer, deadline]
  split
  · next beyond => simp [beyond]
  · next within =>
      rw [within]
      split
      · simp
      · split <;> simp

theorem map_eq_error_iff {ε α β : Type} {result : Except ε α} {image : α → β} {fault : ε} :
    result.map image = .error fault ↔ result = .error fault := by
  cases result <;> simp [Except.map]

theorem deadline_keep (slot : Slot) (connection : Connection) (socket : Socket) :
    (server.keep fd slot connection socket).deadline = server.deadline := rfl

theorem deadline_record (change : Counters → Counters) :
    (server.record change).deadline = server.deadline := rfl

/-- Reading fails only where something was received and a deadline is to be set. -/
theorem handleReadable_eq_error_iff (held : server.table.custody fd = .loop) :
    server.handleReadable fd = .error fault ↔
      (server.receives? fd).isSome = true ∧ server.deadline = .error fault := by
  simp only [handleReadable, receives?]
  cases found : server.table.slot? fd with
  | none => simp
  | some slot =>
      have mine : ¬slot.custody ≠ .loop := by simp [← held, Slots.custody_of_slot? found]
      dsimp only
      rw [if_neg mine]
      obtain ⟨⟨result, connection, socket⟩, received⟩ :
          ∃ result, slot.connection.read (server.kernel.socket fd) = result := ⟨_, rfl⟩
      rw [received]
      cases result with
      | error kind => simp
      | ok count =>
          have kept : (server.putSlot fd { slot with connection }).putSocket fd socket =
              server.keep fd slot connection socket := rfl
          simp only [kept, Option.isSome_some, true_and]
          rw [← deadline_keep slot connection socket, ← refreshTimer_eq_error_iff]
          cases (server.keep fd slot connection socket).refreshTimer fd slot.generation <;> simp

/-- Writing fails only where the connection stays and a deadline is to be set. -/
theorem handleWritable_eq_error_iff (held : server.table.custody fd = .loop) :
    server.handleWritable fd = .error fault ↔
      (server.sends? fd).isSome = true ∧ server.deadline = .error fault := by
  simp only [handleWritable, sends?]
  cases found : server.table.slot? fd with
  | none => simp
  | some slot =>
      have mine : ¬slot.custody ≠ .loop := by simp [← held, Slots.custody_of_slot? found]
      dsimp only
      rw [if_neg mine]
      obtain ⟨⟨outcome, connection, socket⟩, sent⟩ :
          ∃ result, slot.connection.write (server.kernel.socket fd) = result := ⟨_, rfl⟩
      have kept : (server.putSlot fd { slot with connection }).putSocket fd socket =
          server.keep fd slot connection socket := rfl
      simp only [sent, kept]
      cases outcome with
      | again => simp [map_eq_error_iff, refreshTimer_eq_error_iff, deadline_keep]
      | keepAlive =>
          simp [map_eq_error_iff, refreshTimer_eq_error_iff, deadline_keep, deadline_record]
      | close | failed => simp

/-- Where the loop does not have the connection, nothing is read. -/
theorem handleReadable_of_elsewhere (elsewhere : server.table.custody fd ≠ .loop) :
    server.handleReadable fd = .ok server := by
  simp only [handleReadable]
  cases found : server.table.slot? fd with
  | none => rfl
  | some slot => exact if_pos (Slots.custody_of_slot? found ▸ elsewhere)

/-- Nor is anything written. -/
theorem handleWritable_of_elsewhere (elsewhere : server.table.custody fd ≠ .loop) :
    server.handleWritable fd = .ok server := by
  simp only [handleWritable]
  cases found : server.table.slot? fd with
  | none => rfl
  | some slot => exact if_pos (Slots.custody_of_slot? found ▸ elsewhere)

/-- The event of a connection fails only where the connection is active in it. -/
theorem handleReady_eq_error_iff {readiness : Readiness} :
    server.handleReady fd readiness = .error fault ↔
      (server.responds? fd readiness).isSome = true ∧ server.deadline = .error fault := by
  by_cases held : server.table.custody fd = .loop
  · simp only [handleReady, responds?, Readiness.stroke?, held]
    split
    · simp
    · split
      · exact handleReadable_eq_error_iff held
      · split
        · exact handleWritable_eq_error_iff held
        · simp
  · simp only [handleReady, responds?_of_elsewhere held, handleReadable_of_elsewhere held,
      handleWritable_of_elsewhere held]
    split
    · simp
    · split
      · simp
      · split <;> simp

end Server

namespace System

variable {system : System}

/-- Whether the next step of the loop is to set a deadline: it accepts a connection, or
handles an event in which a connection is active. -/
def dates (system : System) : Bool :=
  match system.place with
  | .serving (.ready fd readiness :: _) _ => (system.server.responds? fd readiness).isSome
  | .accepting _ _ =>
      match system.server.kernel.arrivals with
      | .connection fd peer outgoing failing :: rest =>
          (system.server.offered fd outgoing failing rest).admits fd peer
      | _ => false
  | _ => false

/-- Accepting goes on unless a deadline is out of reach. -/
theorem accept?_eq_none_iff {events : List Event} {sweepDue : Bool}
    (place : system.place = .accepting events sweepDue) :
    system.accept? events sweepDue = none ↔
      system.dates = true ∧ ∃ fault, system.server.deadline = .error fault := by
  simp only [accept?, dates, place]
  split
  · next waiting => simp [waiting]
  · next waiting => simp [waiting]
  · next waiting => simp [waiting]
  · next fd peer outgoing failing rest waiting =>
      have fails (fault : DeadlineFault) := @Server.takeIn_eq_error_iff
        (system.server.offered fd outgoing failing rest) fd fault peer
      have same : (system.server.offered fd outgoing failing rest).deadline =
        system.server.deadline := rfl
      simp only [waiting, ← same, ← exists_and_left, ← fails]
      rw [Server.offered]
      split
      · next beyond => simp [beyond]
      · next within => simp [within]

/-- The loop goes on from wherever it stands, unless it waits or has ended, or is to set a
deadline that is out of reach. -/
theorem advance?_eq_none_iff :
    system.advance? = none ↔ system.place = .waiting ∨ system.place = .stopped ∨
      system.dates = true ∧ ∃ fault, system.server.deadline = .error fault := by
  simp only [advance?]
  split
  · next place => simp [place]
  · next place => simp [place]
  · next place => simp [place, dates]
  · next place => simp [place, dates]
  · next event events sweepDue other place =>
      cases event with
      | arrivals => exact (other rfl).elim
      | notices => simp [place, dates, Server.handle]
      | ready fd readiness =>
          have fails (fault : DeadlineFault) :=
            @Server.handleReady_eq_error_iff system.server fd fault readiness
          simp only [place, dates, Server.handle, ← exists_and_left, ← fails]
          cases system.server.handleReady fd readiness <;> simp [Except.map]
  · next events sweepDue place =>
      rw [accept?_eq_none_iff place]
      simp [place]
  · next place => simp [place, dates]
  · next place =>
      split <;> simp [place, dates]
  · next place => simp [place, dates]
  · next place => simp [place, dates]

/-- A server can be launched with all settings that are accepted. -/
theorem exists_launch {settings : Settings} (accepted : settings.complaint? = none)
    (tree : FileTree) (now : Nat) : ∃ first, launch? settings tree now = some first := by
  obtain ⟨threads, capacity, -⟩ := Settings.complaint?_eq_none_iff.1 accepted
  simp [launch?, Server.create, accepted, Pool.start?, threads, capacity]

theorem settings_of_run? {settings : Settings} {tree : FileTree} {now : Nat} {first : System}
    {actions : List Action} (launched : launch? settings tree now = some first)
    (ran : first.run? actions = some system) : system.server.settings = settings := by
  rw [(sameDocuments_run (.start launched) ran).settings]
  obtain ⟨-, rfl⟩ := launch?_eq_some launched
  rfl

/-- What comes of settings that are accepted.  Their timeslot is not zero, and a connection may
be idle for three timeslots if this is a span of time.  The summary is told unless it is to
tell a time that is none.  A server can be launched, and in each of its runs the deadline of a
connection that is active lies three timeslots ahead if there is such a moment; the loop breaks
down in a step just if it is to set a deadline then and there is none. -/
theorem breaks_down_iff {settings : Settings} (accepted : settings.complaint? = none) :
    0 < settings.timeslot ∧
      Deadline.idleSeconds settings.timeslot =
        (if 3 * settings.timeslot < Deadline.spanBound then .ok (3 * settings.timeslot)
        else .error .spanTooLong) ∧
      (∀ moment logger, (∃ logged, Start.summarize settings moment logger = .ok logged) ↔
        (settings.connectionsEvent 0).passes logger.filter = false ∨
          3 * settings.timeslot < Deadline.spanBound) ∧
      ∀ tree now, ∃ first, launch? settings tree now = some first ∧
        ∀ actions system, first.run? actions = some system →
          system.server.deadline =
            (if system.server.kernel.now / 1000 + 3 * settings.timeslot < Deadline.momentBound then
              .ok (system.server.kernel.now + 3 * settings.timeslot * 1000)
            else if 3 * settings.timeslot < Deadline.spanBound then .error .momentTooLate
            else .error .spanTooLong) ∧
          (system.advance? = none ↔ system.place = .waiting ∨ system.place = .stopped ∨
            system.dates = true ∧
              Deadline.momentBound ≤ system.server.kernel.now / 1000 + 3 * settings.timeslot) := by
  obtain ⟨-, -, -, -, positive, -⟩ := Settings.complaint?_eq_none_iff.1 accepted
  refine ⟨Nat.pos_of_ne_zero positive, Deadline.idleSeconds_eq _,
    fun moment logger => Start.exists_summarize_iff, fun tree now => ?_⟩
  obtain ⟨first, launched⟩ := exists_launch accepted tree now
  refine ⟨first, launched, fun actions system ran => ?_⟩
  have same := settings_of_run? launched ran
  refine ⟨?_, ?_⟩
  · rw [Server.deadline, same]
    exact Deadline.ofActivity_eq _ _
  · rw [advance?_eq_none_iff, Server.deadline, same, Deadline.exists_fault_iff]

/-- A connection asks to be accepted, and the loop is about to accept it. -/
def firstConnection : List Action :=
  [.outside (.arrive [.connection 7 ⟨.short [10, 0, 0, 1], 4000⟩ [] []]),
    .deliver [.arrivals], .advance]

/-- With the longest timeslot for which there is a deadline at the very beginning, the loop
goes on. -/
theorem breaks_down_iff_longest :
    ∃ first system : System,
      launch? { timeslot := 3074457345618258602 } ⟨0, [], []⟩ 0 = some first ∧
      first.run? firstConnection = some system ∧ system.dates = true ∧
      system.server.deadline = .ok 9223372036854775806000 ∧ system.advance? ≠ none := by
  obtain ⟨-, -, -, runs⟩ :=
    @breaks_down_iff { timeslot := 3074457345618258602 } (by decide)
  obtain ⟨first, launched, every⟩ := runs ⟨0, [], []⟩ 0
  have evaluated : ((launch? { timeslot := 3074457345618258602 } ⟨0, [], []⟩ 0).bind fun first =>
      first.run? firstConnection).map (fun system =>
        (system.place, system.dates, system.server.kernel.now)) =
      some (.accepting [] false, true, 0) := by decide +kernel
  rw [launched, Option.bind_some, Option.map_eq_some_iff] at evaluated
  obtain ⟨system, ran, seen⟩ := evaluated
  simp only [Prod.mk.injEq] at seen
  obtain ⟨place, dates, clock⟩ := seen
  obtain ⟨deadline, breaks⟩ := every firstConnection system ran
  rw [clock] at deadline breaks
  refine ⟨first, system, launched, ran, dates, deadline, fun broken => ?_⟩
  obtain waiting | stopped | ⟨-, beyond⟩ := breaks.1 broken
  · cases waiting.symm.trans place
  · cases stopped.symm.trans place
  · exact absurd beyond (by decide)

/-- Settings that are accepted can break the server down.  With the first timeslot here, the
time that a connection may be idle is out of reach.  With the second one, it is not, but the
server breaks down when it is to accept its first connection. -/
theorem timeslot_out_of_reach :
    ({ timeslot := 6148914691236517206 } : Settings).complaint? = none ∧
      Deadline.idleSeconds 6148914691236517206 = .error .spanTooLong ∧
      ({ timeslot := 3074457345618258603 } : Settings).complaint? = none ∧
      Deadline.idleSeconds 3074457345618258603 = .ok 9223372036854775809 ∧
      Deadline.ofActivity 0 3074457345618258603 = .error .momentTooLate ∧
      ((launch? { timeslot := 3074457345618258603 } ⟨0, [], []⟩ 0).bind fun first =>
        first.run? firstConnection).map (fun system =>
          (system.place, system.advance?.isNone)) = some (.accepting [] false, true) := by
  decide +kernel

end System

end FileServer
