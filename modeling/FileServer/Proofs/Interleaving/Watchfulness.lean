import FileServer.Proofs.Interleaving.Attention
import FileServer.Proofs.Interleaving.Registrations

/-!
# Every connection is attended to

Between two waits of the loop workers and the loop take their steps in any order.
Each step of the loop handles one event, one completion or one timer, and restores
attention for the one descriptor that it is about; whatever else happens leaves it
where it is.  So whenever the loop is about to wait, nothing is forgotten: what it
has is armed for what it needs, what the workers have is silent.

The operating system is asked to deliver events of armed descriptors only.
-/

namespace FileServer

/-- The events of a batch that are still to be handled. -/
def Place.events : Place → List Event
  | .serving events _ | .accepting events _ => events
  | .waiting | .settling _ _ | .sweeping _ | .stopped => []

namespace System

variable {system next : System}

/-- What the events that are still to be handled say about a descriptor. -/
def calls (system : System) (fd : Fd) : List Readiness :=
  system.place.events.filterMap (Event.readiness? fd)

/-- A descriptor is attended to, or there is one event for it still to be
handled. -/
def Minds (system : System) (fd : Fd) : Prop :=
  system.calls fd = [] ∧ system.server.Attended fd ∨
    ∃ readiness, system.calls fd = [readiness] ∧ system.server.Called fd readiness

/-- Every descriptor is minded, and every errand is as far as its connection. -/
structure Attentive (system : System) : Prop where
  minds : ∀ fd, system.Minds fd
  faithful : system.Faithful

theorem Minds.of_same {fd : Fd} (minds : system.Minds fd) (calls : next.calls fd = system.calls fd)
    (slot : next.server.table.slot? fd = system.server.table.slot? fd)
    (registration : next.server.kernel.registrations.find? fd =
      system.server.kernel.registrations.find? fd) : next.Minds fd := by
  rcases minds with ⟨none, attended⟩ | ⟨readiness, one, called⟩
  · exact .inl ⟨calls.trans none, attended.of_same slot registration⟩
  · exact .inr ⟨readiness, calls.trans one, called.of_same slot registration⟩

theorem Minds.of_leaves {fd : Fd} (minds : system.Minds fd)
    (calls : next.calls fd = system.calls fd)
    (leaves : Server.Leaves fd system.server next.server) : next.Minds fd :=
  minds.of_same calls leaves.slot leaves.registration

/-- Where no event is to be handled, minding is attention. -/
theorem Minds.attended {fd : Fd} (minds : system.Minds fd) (none : system.calls fd = []) :
    system.server.Attended fd := by
  rcases minds with ⟨-, attended⟩ | ⟨readiness, one, -⟩
  · exact attended
  · cases none.symm.trans one

/-- A lent connection is not called. -/
theorem Minds.of_lent {fd : Fd} {task : Task} (minds : system.Minds fd)
    (lent : system.server.table.lent fd = some task) :
    system.calls fd = [] ∧ system.server.Attended fd := by
  rcases minds with attended | ⟨readiness, -, called⟩
  · exact attended
  · cases called.unlent.symm.trans lent

/-! ## Steps -/

/-- Happenings outside arm and disarm nothing. -/
theorem Attentive.outside (attentive : system.Attentive) (circumstance : Circumstance) :
    Attentive { system with server := system.server.after circumstance } where
  minds fd := by
    refine (attentive.minds fd).of_same rfl rfl ?_
    cases circumstance with
    | feed other incoming outgoing failing =>
        simp only [Server.after, Kernel.after, Kernel.feed]
        split <;> rfl
    | elapse | arrive | signal => rfl
  faithful := by
    refine attentive.faithful.of_same rfl rfl ?_ rfl
    cases circumstance <;> rfl

/-- Work on a lent connection makes no difference to who waits for what. -/
theorem Attentive.perform? (attentive : system.Attentive) (owned : system.Owned) {index : Nat}
    (stepped : system.perform? index = some next) : next.Attentive where
  minds fd := by
    obtain ⟨task, slot, busy, clear, found, rfl⟩ := perform?_eq_some stepped
    by_cases mine : fd = task.fd
    · subst mine
      have member := (Errand.held busy clear).unit
      have lent := owned.lent_of_mem member
      obtain ⟨none, attended⟩ := (attentive.minds task.fd).of_lent lent
      have same := task?_perform task system.server.tree system.server.settings.docRoot slot
        system.server.shared task.fd
      have silent := attended.silent (by simp [lent])
      rw [Slots.lent_of_slot? found, ← same] at lent
      have worked : (system.server.putSlot task.fd (task.work system.server.tree
          system.server.settings.docRoot slot).2).table.lent task.fd = some task := by
        rw [← lent]
        exact Slots.lent_of_slot? (Slots.slot?_set_of_slot? found _)
      exact .inl ⟨none, Server.attended_of_lent worked silent⟩
    · exact (attentive.minds fd).of_same rfl (Slots.slot?_set_of_ne mine _) rfl
  faithful := attentive.faithful.perform? owned stepped

/-- Events are delivered to descriptors that wait for them. -/
theorem Attentive.deliver? (attentive : system.Attentive) {events : List Event}
    (delivered : system.server.kernel.delivers events = true)
    (stepped : system.deliver? events = some next) : next.Attentive := by
  simp only [System.deliver?] at stepped
  split at stepped
  · next place =>
      cases stepped
      constructor
      · intro fd
        have quiet : system.calls fd = [] := by simp [calls, place, Place.events]
        have attended := (attentive.minds fd).attended quiet
        rcases Kernel.delivers_cases delivered fd with
          ⟨none, kept⟩ | ⟨readiness, interest, one, armed, tells, silent⟩
        · exact .inl ⟨none, attended.of_same rfl kept⟩
        · refine .inr ⟨readiness, one, silent, ?_, ?_⟩
          · cases lent : system.server.table.lent fd with
            | none => rfl
            | some task =>
                have muted := attended.silent (by simp [lent])
                cases armed.symm.trans muted
          · intro slot found held
            obtain ⟨waits, receptive⟩ := attended.armed slot found held
            cases armed.symm.trans waits
            exact ⟨tells, receptive⟩
      · refine attentive.faithful.of_same rfl rfl ?_ rfl
        simp [completions, place, Place.taken]
  · cases stepped

/-! ## Steps of the loop -/

variable {place : Place} {server : Server}

/-- A step of the loop that concerns one descriptor, besides which only completions
are taken. -/
theorem Minds.of_confined {fd : Fd} (minds : ∀ other, system.Minds other)
    (confined : Server.Confined fd system.server next.server)
    (calls : ∀ other, other ≠ fd → next.calls other = system.calls other)
    (own : next.Minds fd) : ∀ other, next.Minds other := by
  intro other
  by_cases mine : other = fd
  · exact mine ▸ own
  · exact (minds other).of_leaves (calls other mine) (confined.leaves other mine)

/-- The calls of a batch whose first event is handled. -/
theorem calls_of_ready {fd other : Fd} {readiness : Readiness} {events : List Event}
    {sweepDue due : Bool}
    (place : system.place = .serving (.ready fd readiness :: events) sweepDue) :
    system.calls fd =
        readiness :: calls { system with server, place := .serving events due } fd ∧
      (other ≠ fd → calls { system with server, place := .serving events due } other =
        system.calls other) := by
  simp only [calls, place, Place.events]
  constructor
  · simp [Event.readiness?]
  · intro differ
    rw [List.filterMap_cons_none]
    simp [Event.readiness?, Ne.symm differ]

/-- The events of a batch other than those of connections concern no connection. -/
theorem Attentive.notices (attentive : system.Attentive) {events : List Event}
    {sweepDue due : Bool} (position : system.place = .serving (.notices :: events) sweepDue)
    (handled : system.server.handle .notices = .ok (due, server)) :
    Attentive { system with server, place := .serving events (sweepDue || due) } := by
  simp only [Server.handle, Except.ok.injEq] at handled
  have confined := Server.confined_handleNotices system.server
  rw [handled] at confined
  have leaves := Server.Confined.leaves_all confined
  constructor
  · intro fd
    refine (attentive.minds fd).of_leaves ?_ (leaves fd)
    simp only [calls, position, Place.events]
    rfl
  · refine attentive.faithful.mono ?_ fun task _ _ => congrArg _ (leaves task.fd).slot
    intro task progress errand
    refine errand.mono (confined 0).pool rfl fun done left => ?_
    simpa [completions, position, Place.taken, ← (confined 0).completions] using left

/-- The event of a connection is handled. -/
theorem Attentive.ready (attentive : system.Attentive) (owned : system.Owned) {fd : Fd}
    {readiness : Readiness} {events : List Event} {sweepDue due : Bool}
    (position : system.place = .serving (.ready fd readiness :: events) sweepDue)
    (handled : system.server.handleReady fd readiness = .ok server)
    (balanced : Owned { system with server, place := .serving events due }) :
    Attentive { system with server, place := .serving events due } := by
  have branch := Server.handleReady_branch handled
  have ⟨first, others⟩ := @calls_of_ready system server fd fd readiness events sweepDue due position
  obtain ⟨one, called⟩ : system.calls fd = [readiness] ∧ system.server.Called fd readiness := by
    rcases attentive.minds fd with ⟨none, -⟩ | ⟨other, one, called⟩
    · cases none.symm.trans first
    · have same := one.symm.trans first
      simp only [List.cons.injEq] at same
      exact same.1 ▸ ⟨one, called⟩
  have own : Minds { system with server, place := .serving events due } fd := by
    refine .inl ⟨?_, called.attended branch⟩
    simpa [one] using first
  have other (number : Fd) (differ : number ≠ fd) :=
    (@calls_of_ready system server fd number readiness events sweepDue due position).2 differ
  have taken : (Place.serving events due).taken = system.place.taken := by
    simp [position, Place.taken]
  rcases Server.handleReady_cases handled with ⟨confined, lent⟩ | ⟨task, rfl, lends⟩
  · constructor
    · exact Minds.of_confined attentive.minds confined other own
    · refine attentive.faithful.of_confined balanced confined rfl (by simp [Place.taken]) ?_
      exact .inl (lent.trans called.unlent)
  · constructor
    · intro number
      by_cases mine : number = task.fd
      · exact mine ▸ own
      · exact (attentive.minds number).of_leaves (other number mine) (lends.leaves number mine)
    · refine attentive.faithful.of_lends owned lends rfl taken ?_
      intro slot found
      exact called.unanswered_of_lent branch (by simp [lends.lent]) found

/-- A connection is accepted. -/
theorem Attentive.accept (attentive : system.Attentive)
    {fd : Fd} {peer : Address} {outgoing : List Transmit} {failing : List Call}
    {rest : List Arrival}
    (taken : system.takeInNext fd peer outgoing failing rest = .ok server)
    (tidy : system.server.Tidy fd) (balanced : Owned { system with server }) :
    Attentive { system with server } := by
  have branch := Server.takeIn_cases taken
  obtain ⟨confined, lent⟩ := takeInNext_spec taken
  constructor
  · refine Minds.of_confined attentive.minds confined (fun _ _ => rfl) ?_
    rcases attentive.minds fd with ⟨none, attended⟩ | ⟨readiness, one, called⟩
    · refine .inl ⟨none, branch.attended ?_⟩
      exact attended.of_same rfl rfl
    · refine .inr ⟨readiness, one, branch.called tidy.unregistered ?_⟩
      exact called.of_same rfl rfl
  · refine attentive.faithful.of_confined balanced confined rfl (fun _ left => left) ?_
    rcases branch.unlent with unlent | same
    · exact .inl unlent
    · exact .inr (by rw [Server.SameConnection, same]; rfl)

/-- A completion is acted on. -/
theorem Attentive.settle (attentive : system.Attentive) (owned : system.Owned) {done : Completion}
    {rest : List Completion} {sweepDue : Bool}
    (position : system.place = .settling (done :: rest) sweepDue)
    (balanced : Owned { system with
      server := system.server.handleCompletion done
      place := .settling rest sweepDue }) :
    Attentive { system with
      server := system.server.handleCompletion done
      place := .settling rest sweepDue } := by
  have left : done ∈ system.completions := by simp [completions, position, Place.taken]
  have lent := owned.lent_of_settling position
  obtain ⟨confined, unlent⟩ := Server.handleCompletion_spec lent
  have quiet (fd : Fd) : system.calls fd = [] := by simp [calls, position, Place.events]
  constructor
  · refine Minds.of_confined attentive.minds confined (fun fd _ => (quiet fd).symm) ?_
    refine .inl ⟨rfl, (Server.handleCompletion_branch lent).attended ?_⟩
    intro slot found
    exact attentive.faithful done.task _ (.reported left) slot found
  · refine attentive.faithful.of_confined balanced confined rfl ?_ (.inl unlent)
    intro other remains
    simp only [position, Place.taken] at remains ⊢
    exact List.mem_cons_of_mem done remains

/-- A timer that has fired is acted on. -/
theorem Attentive.evict (attentive : system.Attentive) {expired : Fd × Nat}
    {rest : List (Fd × Nat)} (position : system.place = .sweeping (expired :: rest))
    (balanced : Owned { system with
      server := system.server.evict expired, place := .sweeping rest }) :
    Attentive { system with server := system.server.evict expired, place := .sweeping rest } := by
  obtain ⟨fd, generation⟩ := expired
  have confined := Server.confined_evict system.server fd generation
  have quiet (fd : Fd) : system.calls fd = [] := by simp [calls, position, Place.events]
  constructor
  · refine Minds.of_confined attentive.minds confined (fun fd _ => (quiet fd).symm) ?_
    exact .inl ⟨rfl, (Server.evict_branch system.server fd generation).attended
      ((attentive.minds fd).attended (quiet fd))⟩
  · refine attentive.faithful.of_confined balanced confined rfl (by simp [Place.taken]) ?_
    cases lent : system.server.table.lent fd with
    | none => exact .inl ((Server.lent_evict system.server fd generation).trans lent)
    | some task => exact .inr (Server.untouched_evict lent generation).sameConnection

/-- A step of the loop that leaves connections and registrations alone, and after
which the same calls and completions are left. -/
theorem Attentive.of_same (attentive : system.Attentive)
    (table : server.table = system.server.table) (pool : server.pool = system.server.pool)
    (registrations : server.kernel.registrations = system.server.kernel.registrations)
    (calls : ∀ fd, place.events.filterMap (Event.readiness? fd) = system.calls fd)
    (completions : place.taken ++ server.shared.completions =
      system.place.taken ++ system.server.shared.completions) :
    Attentive { system with server, place } where
  minds fd := by
    exact (attentive.minds fd).of_same (calls fd) (by rw [table]) (by rw [registrations])
  faithful := attentive.faithful.of_same pool rfl completions table

/-- Each step of the loop restores attention. -/
theorem Attentive.advances (attentive : system.Attentive) (reached : Reachable system)
    (advances : system.Advances next) : next.Attentive := by
  have owned := reached.owned
  have balanced := owned.advances advances
  cases advances with
  | collect position =>
      refine attentive.of_same rfl rfl rfl ?_ ?_
      · simp [calls, position, Place.events]
      · simp [position, Place.taken, Shared.takeCompletions]
  | listen position =>
      refine attentive.of_same rfl rfl rfl ?_ ?_
      · intro fd
        simp only [calls, position, Place.events]
        rfl
      · simp [position, Place.taken]
  | @handle event events sweepDue due server position other handled =>
      cases event with
      | arrivals => exact (other rfl).elim
      | notices => exact attentive.notices position handled
      | ready fd readiness =>
          obtain ⟨-, acted⟩ := Server.handleReady_of_handle handled
          exact attentive.ready owned position acted balanced
  | acceptNone position =>
      refine attentive.of_same rfl rfl rfl ?_ ?_
      · simp [calls, position, Place.events]
      · simp [position, Place.taken]
  | acceptAgain => exact attentive.of_same rfl rfl rfl (fun _ => rfl) rfl
  | acceptFails position =>
      refine attentive.of_same rfl rfl rfl ?_ ?_
      · simp [calls, position, Place.events]
      · simp [position, Place.taken, Server.setArrivals]
  | accept position waiting taken => exact attentive.accept taken (reached.tidy _) balanced
  | settle position => exact attentive.settle owned position balanced
  | beginSweep position =>
      refine attentive.of_same rfl rfl rfl ?_ ?_
      · simp [calls, position, Place.events]
      · simp [position, Place.taken, Server.beginSweep]
  | rest position =>
      refine attentive.of_same rfl rfl rfl ?_ ?_
      · intro fd
        split <;> simp [calls, position, Place.events]
      · split <;> simp [position, Place.taken]
  | evict position => exact attentive.evict position balanced
  | endSweep position =>
      refine attentive.of_same rfl rfl rfl ?_ ?_
      · intro fd
        dsimp only
        split <;> simp [calls, position, Place.events]
      · dsimp only
        split <;> simp [position, Place.taken, Server.endSweep]

/-! ## Runs -/

/-- Whatever happens, attention is restored or kept, if events are delivered to
armed descriptors only. -/
theorem Attentive.step? (attentive : system.Attentive) (reached : Reachable system)
    {action : Action} (allowed : DeliversArmed system action)
    (stepped : system.step? action = some next) :
    next.Attentive := by
  cases action with
  | outside circumstance =>
      cases stepped
      exact attentive.outside circumstance
  | proceed worker =>
      have faithful := attentive.faithful.proceed? stepped
      simp only [System.step?, System.proceed?] at stepped
      split at stepped
      · cases stepped
        exact ⟨fun fd => (attentive.minds fd).of_same rfl rfl rfl, faithful⟩
      · cases stepped
  | perform worker => exact attentive.perform? reached.owned stepped
  | report worker =>
      have faithful := attentive.faithful.report? stepped
      simp only [System.step?, System.report?] at stepped
      split at stepped
      · cases stepped
        exact ⟨fun fd => (attentive.minds fd).of_same rfl rfl rfl, faithful⟩
      · cases stepped
  | wake worker =>
      have faithful := attentive.faithful.wake? stepped
      simp only [System.step?, System.wake?] at stepped
      split at stepped
      · cases stepped
        exact ⟨fun fd => (attentive.minds fd).of_same rfl rfl rfl, faithful⟩
      · cases stepped
  | deliver events => exact attentive.deliver? allowed stepped
  | advance => exact attentive.advances reached (.of_advance? stepped)

theorem attentive_launch {settings : Settings} {tree : FileTree} {now : Nat}
    (launched : launch? settings tree now = some system) : system.Attentive := by
  have owned := owned_launch launched
  obtain ⟨-, rfl⟩ := launch?_eq_some launched
  have unused (fd : Fd) : (Slots.ofLimit settings.maxFd).custody fd = .free := by
    rw [Slots.custody, Slots.slot?_ofLimit]
    rfl
  constructor
  · intro fd
    exact .inl ⟨rfl, Server.attended_of_free (unused fd)⟩
  · intro task progress errand
    exact (errand.fd_ne owned (Slots.lent_of_free (unused task.fd)) rfl).elim

theorem ReachableUnder.attentive (reached : ReachableUnder DeliversArmed system) :
    system.Attentive := by
  induction reached with
  | start launched => exact attentive_launch launched
  | step earlier allowed stepped ih => exact ih.step? earlier.reachable allowed stepped

/-- Whenever the loop is about to wait, it waits for what each of its connections
needs: for one with an answer to send that it is writable, and for any other that
it is readable, with room to receive into.  A connection that is with the workers is
registered and silent, and a descriptor without a connection is not registered. -/
theorem every_connection_awaited {settings : Settings} {tree : FileTree} {now : Nat}
    {first : System} {actions : List Action} (launched : launch? settings tree now = some first)
    (ran : first.run? actions = some system) (delivered : first.Observes DeliversArmed actions)
    (waiting : system.place = .waiting) (fd : Fd) :
    (∀ slot, system.server.table.slot? fd = some slot → slot.custody = .loop →
      ∃ interest, system.server.kernel.registrations.find? fd = some (.armed interest) ∧
        (interest = .writable ↔ slot.connection.haveSent < slot.connection.toSend) ∧
        (interest = .readable → slot.connection.input.used < Connection.inputCapacity)) ∧
    (system.server.table.custody fd = .worker ∨ system.server.table.custody fd = .closing →
      system.server.kernel.registrations.find? fd = some .silent) ∧
    (system.server.table.custody fd = .free →
      system.server.kernel.registrations.find? fd = none) := by
  have reached : ReachableUnder DeliversArmed system :=
    (ReachableUnder.start launched).run delivered ran
  have quiet : system.calls fd = [] := by simp [calls, waiting, Place.events]
  have attended := (reached.attentive.minds fd).attended quiet
  refine ⟨?_, ?_, (reached.reachable.tidy fd).unregistered⟩
  · intro slot found held
    obtain ⟨armed, receptive⟩ := attended.armed slot found held
    refine ⟨_, armed, ?_, ?_⟩
    · simp [Connection.awaited, Connection.isAnswering]
    · intro readable
      apply receptive
      cases answering : slot.connection.isAnswering with
      | false => rfl
      | true => cases (Connection.awaited_of_answering answering).symm.trans readable
  · intro lent
    apply attended.silent
    cases found : system.server.table.slot? fd with
    | none => simp [Slots.custody, found] at lent
    | some slot =>
        rw [Slots.custody_of_slot? found] at lent
        rcases lent with custody | custody <;>
          simp [Slots.lent_of_slot? found, Slot.task?, custody]

/-- Three connections are accepted.  The request of the first is answered with an error, the
second is closed by its client, and the workers have not looked at the third yet.  The
operating system refuses to remove the registration of the second. -/
def answerReady : List Action :=
  [.outside (.arrive [.connection 7 ⟨.short [10, 0, 0, 1], 4000⟩ [] [],
      .connection 8 ⟨.short [10, 0, 0, 2], 4000⟩ [] [.unregister],
      .connection 9 ⟨.short [10, 0, 0, 3], 4000⟩ [] []]),
    .deliver [.arrivals], .advance, .advance, .advance, .advance, .advance, .advance, .advance,
    .outside (.feed 7 [.data [71, 10]] [] []), .outside (.feed 9 [.data [71]] [] []),
    .deliver [.ready 7 ⟨true, false, false⟩, .ready 8 ⟨false, false, true⟩,
      .ready 9 ⟨true, false, false⟩], .advance, .advance, .advance,
    .proceed 0, .proceed 0, .proceed 0, .perform 0, .report 0, .wake 0,
    .advance, .advance, .advance]

/-- After such a run the loop waits until the first connection is writable.  The second has
left no registration behind, and the third is silent. -/
theorem every_connection_awaited_answer :
    ∃ system : System, system.place = .waiting ∧
      system.server.kernel.registrations.find? 7 = some (.armed .writable) ∧
      system.server.kernel.fails 8 .unregister = true ∧
      system.server.kernel.history.closed = [8] ∧
      system.server.kernel.registrations.find? 8 = none ∧
      system.server.kernel.registrations.find? 9 = some .silent := by
  have evaluated : ((launch? {} ⟨0, [], []⟩ 0).bind fun first =>
      (first.run? answerReady).bind fun system =>
        if (first.Observes DeliversArmed answerReady ∧ system.place = .waiting) ∧
            (system.server.table.custody 8 = .free ∧
              system.server.kernel.fails 8 .unregister = true ∧
              system.server.kernel.history.closed = [8]) ∧
            system.server.table.custody 9 = .worker then
          (system.server.table.slot? 7).map fun slot => (slot.custody,
            decide (slot.connection.haveSent < slot.connection.toSend))
        else none) = some (.loop, true) := by decide +kernel
  simp only [Option.bind_eq_some_iff] at evaluated
  obtain ⟨first, launched, system, ran, rest⟩ := evaluated
  split at rest
  · next came =>
      obtain ⟨⟨delivered, waiting⟩, ⟨unused, refused, closed⟩, lent⟩ := came
      simp only [Option.map_eq_some_iff, Prod.mk.injEq, decide_eq_true_eq] at rest
      obtain ⟨slot, found, held, answering⟩ := rest
      obtain ⟨awaited, -, -⟩ := every_connection_awaited launched ran delivered waiting 7
      obtain ⟨-, -, unregistered⟩ := every_connection_awaited launched ran delivered waiting 8
      obtain ⟨-, silent, -⟩ := every_connection_awaited launched ran delivered waiting 9
      obtain ⟨interest, armed, writable, -⟩ := awaited slot found held
      refine ⟨system, waiting, ?_, refused, closed, unregistered unused, silent (.inl lent)⟩
      rw [armed, writable.2 answering]
  · cases rest

end System

end FileServer
