import FileServer.Proofs.Interleaving.Deadlines
import FileServer.Proofs.Interleaving.Passages
import Mathlib.Data.List.Induction

/-!
# The last activity of a connection

When a connection was active is a matter of the run alone: of the steps that accepted it,
received from it or sent to it.  The timers do not enter into it.  They agree with it all
the same: whatever the loop and the workers have done in between, the deadline of a
connection is that of its last activity.
-/

namespace FileServer

open Timers

/-- Who may touch the connection of a descriptor, and which of its connections it is. -/
def Slots.tenure? (table : Slots) (fd : Fd) : Option (Custody × Nat) :=
  (table.slot? fd).map fun slot => (slot.custody, slot.generation)

theorem Slots.tenure?_of_slot? {table : Slots} {fd : Fd} {slot : Slot}
    (found : table.slot? fd = some slot) :
    table.tenure? fd = some (slot.custody, slot.generation) := by
  rw [tenure?, found, Option.map_some]

theorem Slots.tenure?_congr {before after : Slots} {fd : Fd}
    (same : after.slot? fd = before.slot? fd) : after.tenure? fd = before.tenure? fd :=
  congrArg (Option.map fun slot : Slot => (slot.custody, slot.generation)) same

/-- No connection has changed hands, no timer has changed, and no eviction was counted. -/
structure Ledger.Rests (before after : Ledger) : Prop where
  tenure : ∀ fd, after.table.tenure? fd = before.table.tenure? fd
  timers : after.timers = before.timers
  evicted : after.evicted = before.evicted

theorem Ledger.Rests.of_eq {before after : Ledger} (same : after = before) :
    before.Rests after := by
  subst same
  exact ⟨fun _ => rfl, rfl, rfl⟩

namespace Server

variable {server next : Server} {fd : Fd}

/-- The generation of the connection of a descriptor, if it is active in an event that the
loop handles. -/
def responds? (server : Server) (fd : Fd) (readiness : Readiness) : Option Nat :=
  match server.table.custody fd, readiness.stroke? with
  | .loop, some .read => server.receives? fd
  | .loop, some .write => server.sends? fd
  | _, _ => none

theorem responds?_of_elsewhere (elsewhere : server.table.custody fd ≠ .loop)
    (readiness : Readiness) : server.responds? fd readiness = none := by
  simp only [responds?]
  split
  · next held _ => exact (elsewhere held).elim
  · next held _ => exact (elsewhere held).elim
  · rfl

/-- The event of a connection sets a deadline just if the connection is active in it. -/
theorem redates_handleReady {readiness : Readiness} (sound : server.timers.Sound)
    (timed : server.ledger.Timed fd) (handled : server.handleReady fd readiness = .ok next) :
    RedatesOnly fd (server.responds? fd readiness)
      (server.kernel.now + server.settings.idleWindow) server.timers next.timers := by
  have unchanged := (Wanes.refl server.timers).redatesOnly fd
    (server.kernel.now + server.settings.idleWindow)
  simp only [handleReady] at handled
  split at handled
  · next hung =>
      cases handled
      have silent : server.responds? fd readiness = none := by
        simp [responds?, Readiness.stroke?, hung]
      rw [silent]
      exact ((closeOrDefer_branch server fd).wanes sound).redatesOnly fd _
  · next hung =>
      split at handled
      · next ready =>
          have reads := handleReadable_branch handled
          by_cases held : server.table.custody fd = .loop
          · have meaning : server.responds? fd readiness = server.receives? fd := by
              simp [responds?, Readiness.stroke?, held, hung, ready]
            rw [meaning]
            exact reads.redates sound timed held
          · rw [responds?_of_elsewhere held, reads.eq_of_elsewhere held]
            exact unchanged
      · next unreadable =>
          split at handled
          · next ready =>
              have writes := handleWritable_branch handled
              by_cases held : server.table.custody fd = .loop
              · have meaning : server.responds? fd readiness = server.sends? fd := by
                  simp [responds?, Readiness.stroke?, held, hung, unreadable, ready]
                rw [meaning]
                exact writes.redates sound timed held
              · rw [responds?_of_elsewhere held, writes.eq_of_elsewhere held]
                exact unchanged
          · next unwritable =>
              cases handled
              have silent : server.responds? fd readiness = none := by
                simp [responds?, Readiness.stroke?, hung, unreadable, unwritable]
              rw [silent]
              exact unchanged

end Server

namespace System

variable {system next first : System} {action : Action} {actions : List Action} {fd : Fd}

/-- The generation of the connection of a descriptor, if it is active in a step: the loop
accepts it, or handles an event in which it is active. -/
def active? (fd : Fd) (system : System) (action : Action) : Option Nat :=
  match action, system.place with
  | .advance, .serving (.ready other readiness :: _) _ =>
      if other = fd then system.server.responds? fd readiness else none
  | .advance, .accepting _ _ =>
      (system.step? .advance).bind fun next => system.server.accepts? next.server fd
  | _, _ => none

theorem active?_of_ne (other : action ≠ .advance) (fd : Fd) (system : System) :
    system.active? fd action = none := by
  simp only [active?]
  split
  · exact (other rfl).elim
  · exact (other rfl).elim
  · rfl

/-- The moment of a step, if a connection is active in it. -/
def activity (fd : Fd) (generation : Nat) (system : System) (action : Action) : List Nat :=
  if system.active? fd action = some generation then [system.server.kernel.now] else []

/-- When a connection was active for the last time in a run. -/
def lastActive? (first : System) (actions : List Action) (fd : Fd) (generation : Nat) :
    Option Nat :=
  (tale (activity fd generation) first actions).getLast?

/-- A further step is the last activity, or leaves it as it was. -/
theorem lastActive?_concat (ran : first.run? actions = some system) (action : Action) (fd : Fd)
    (generation : Nat) :
    first.lastActive? (actions ++ [action]) fd generation =
      if system.active? fd action = some generation then some system.server.kernel.now
      else first.lastActive? actions fd generation := by
  have tells : tale (activity fd generation) system [action] =
      system.activity fd generation action := by
    rw [tale]
    split <;> exact List.append_nil _
  rw [lastActive?, tale_append _ ran, tells, List.getLast?_append, activity]
  split <;> rfl

/-- A connection that is taken in is active, and no other. -/
theorem redates_accept {events : List Event} {sweepDue : Bool} {about : Fd} {peer : Address}
    {outgoing : List Transmit} {failing : List Call} {rest : List Arrival} {server : Server}
    (timely : system.Timely) (position : system.place = .accepting events sweepDue)
    (stepped : system.step? .advance = some next)
    (taken : system.takeInNext about peer outgoing failing rest = .ok server)
    (same : next = { system with server }) (fd : Fd) :
    Redates fd (system.active? fd .advance)
      (system.server.kernel.now + system.server.settings.idleWindow) system.server.timers
      next.server.timers := by
  have active : system.active? fd .advance = system.server.accepts? server fd := by
    simp only [active?, position, stepped, Option.bind_some, same]
  have idle : system.place.expired = [] := by rw [position]; rfl
  have timed := (timely.clocked about).timed idle
  have redates := (Server.takeIn_cases taken).redates timely.sound ⟨timed.named, timed.occupied,
    timed.clocked⟩
  rw [active, same]
  by_cases mine : fd = about
  · exact mine ▸ redates.own
  · have slot := ((takeInNext_spec taken).1.leaves fd mine).slot
    rw [Server.accepts?_of_same slot]
    exact redates.others fd mine

/-- A step sets a deadline just if a connection is active in it. -/
theorem redates_advances (owned : system.Owned) (timely : system.Timely)
    (stepped : system.step? .advance = some next) (fd : Fd) :
    Redates fd (system.active? fd .advance)
      (system.server.kernel.now + system.server.settings.idleWindow) system.server.timers
      next.server.timers := by
  have unchanged := (Wanes.refl system.server.timers).redates fd
    (system.server.kernel.now + system.server.settings.idleWindow)
  cases Advances.of_advance? stepped with
  | collect position | listen position | rest position | endSweep position =>
      have silent : system.active? fd .advance = none := by simp only [active?, position]
      rw [silent]
      exact unchanged
  | acceptNone position | acceptAgain position | acceptFails position =>
      have silent : system.active? fd .advance = none := by
        simp only [active?, position, stepped, Option.bind_some]
        exact Server.accepts?_of_same rfl
      rw [silent]
      exact unchanged
  | accept position waiting taken => exact redates_accept timely position stepped taken rfl fd
  | @handle event events sweepDue due server position other handled =>
      cases event with
      | arrivals => exact (other rfl).elim
      | notices =>
          have silent : system.active? fd .advance = none := by simp only [active?, position]
          have same : server.timers = system.server.timers :=
            congrArg Ledger.timers (Server.ledger_notices handled)
          rw [silent, same]
          exact unchanged
      | ready about readiness =>
          obtain ⟨-, acted⟩ := Server.handleReady_of_handle handled
          have timed := (timely.clocked about).timed (by rw [position]; rfl)
          have redates := Server.redates_handleReady timely.sound timed acted
          by_cases mine : about = fd
          · subst mine
            have meaning : system.active? about .advance =
                system.server.responds? about readiness := by
              simp only [active?, position, ↓reduceIte]
            rw [meaning]
            exact redates.own
          · have silent : system.active? fd .advance = none := by
              simp only [active?, position, mine, ↓reduceIte]
            rw [silent]
            exact redates.others fd (Ne.symm mine)
  | @settle done rest sweepDue position =>
      have silent : system.active? fd .advance = none := by simp only [active?, position]
      have lent := owned.lent_of_settling position
      rw [silent]
      exact ((Server.handleCompletion_branch lent).wanes timely.sound).redates fd _
  | beginSweep position =>
      have silent : system.active? fd .advance = none := by simp only [active?, position]
      rw [silent]
      have wanes : Wanes system.server.timers
          (system.server.timers.tick system.server.kernel.now).2 := fun data deadline pends =>
        ((timely.sound.pends_tick system.server.kernel.now data deadline).1 pends).1
      exact wanes.redates fd _
  | @evict expired rest position =>
      have silent : system.active? fd .advance = none := by simp only [active?, position]
      have same := (Server.evict_branch system.server expired.1 expired.2).timers_eq
      rw [silent]
      exact fun generation moment pends => unchanged generation moment (same ▸ pends)

/-- Only the loop changes custody, timers and the count of evictions; and it stays where it is
unless its wait ends. -/
theorem rests_of_step? (other : action ≠ .advance) (stepped : system.step? action = some next) :
    system.server.ledger.Rests next.server.ledger ∧
      (next.place = system.place ∨
        ∃ events, action = .deliver events ∧ next.place = .serving events false) := by
  cases action with
  | advance => exact (other rfl).elim
  | outside circumstance =>
      cases stepped
      cases circumstance <;> exact ⟨.of_eq rfl, .inl rfl⟩
  | perform worker =>
      obtain ⟨task, slot, -, -, found, rfl⟩ := perform?_eq_some stepped
      obtain ⟨connection, same⟩ := task.work_eq system.server.tree
        system.server.settings.docRoot slot
      refine ⟨⟨fun fd => ?_, rfl, ?_⟩, .inl rfl⟩
      · by_cases mine : fd = task.fd
        · subst mine
          rw [same]
          exact (Slots.tenure?_of_slot? (Slots.slot?_set_of_slot? found _)).trans
            (Slots.tenure?_of_slot? found).symm
        · exact Slots.tenure?_congr (Slots.slot?_set_of_ne mine _)
      · simp only [Server.ledger, Task.perform]
        split <;> rfl
  | proceed worker =>
      simp only [System.step?, System.proceed?] at stepped
      split at stepped
      · cases stepped
        exact ⟨.of_eq rfl, .inl rfl⟩
      · cases stepped
  | report worker =>
      simp only [System.step?, System.report?] at stepped
      split at stepped
      · cases stepped
        exact ⟨.of_eq rfl, .inl rfl⟩
      · cases stepped
  | wake worker =>
      simp only [System.step?, System.wake?] at stepped
      split at stepped
      · cases stepped
        exact ⟨.of_eq rfl, .inl rfl⟩
      · cases stepped
  | deliver events =>
      simp only [System.step?, System.deliver?] at stepped
      split at stepped
      · cases stepped
        exact ⟨.of_eq rfl, .inr ⟨events, rfl, rfl⟩⟩
      · cases stepped

theorem redates_of_step? (owned : system.Owned) (timely : system.Timely)
    (stepped : system.step? action = some next) (fd : Fd) :
    Redates fd (system.active? fd action)
      (system.server.kernel.now + system.server.settings.idleWindow) system.server.timers
      next.server.timers := by
  by_cases loops : action = .advance
  · subst loops
    exact redates_advances owned timely stepped fd
  · have same : next.server.timers = system.server.timers := (rests_of_step? loops stepped).1.timers
    rw [active?_of_ne loops]
    exact fun generation moment pends => .inr ⟨rfl, same ▸ pends⟩

/-- The deadline of a connection is that of its last activity. -/
theorem deadline_of_run {settings : Settings} {tree : FileTree} {now : Nat}
    (launched : launch? settings tree now = some first) (ran : first.run? actions = some system)
    {generation deadline : Nat} (pends : system.server.timers.Pends (fd, generation) deadline) :
    ∃ moment, first.lastActive? actions fd generation = some moment ∧
      deadline = moment + settings.idleWindow := by
  induction actions using List.reverseRecOn generalizing system deadline with
  | nil =>
      obtain rfl := eq_of_run?_nil ran
      obtain ⟨-, rfl⟩ := launch?_eq_some launched
      obtain ⟨id, present⟩ := pends
      cases present
  | append_singleton actions action ih =>
      rw [run?_append] at ran
      obtain ⟨middle, ranFront, last⟩ := Option.bind_eq_some_iff.1 ran
      obtain ⟨_, stepped, same⟩ := run?_cons_eq_some.1 last
      obtain rfl := eq_of_run?_nil same
      have reached := Reachable.run (.start launched) ranFront
      have rules := (sameDocuments_run (.start launched) ranFront).settings
      have initial : first.server.settings = settings := by
        obtain ⟨-, rfl⟩ := launch?_eq_some launched
        rfl
      rw [lastActive?_concat ranFront]
      rcases redates_of_step? reached.owned reached.timely stepped fd generation deadline pends with
        ⟨active, due⟩ | ⟨silent, before⟩
      · rw [if_pos active]
        exact ⟨_, rfl, by rw [due, rules, initial]⟩
      · rw [if_neg (by simp [silent])]
        exact ih ranFront before

end System

end FileServer
