import FileServer.Proofs.Interleaving.Activity

/-!
# What a sweep does

A sweep is many steps of the loop: the timers that are due fire at once, and then their
connections are met one by one, while workers go on and time passes.  No connection is
accepted meanwhile and none changes hands but by the sweep, and the timers that have not
fired stay as they are.  So each connection is met in the custody that it had when the
sweep began.
-/

namespace FileServer

open Timers Ledger

/-- The loop sweeps, or its turn is over. -/
def Place.isLate : Place → Bool
  | .sweeping _ | .waiting | .stopped => true
  | .serving _ _ | .accepting _ _ | .settling _ _ => false

/-! ## One connection -/

/-- What becomes of a connection whose timer has fired: it is closed if the loop has it,
and is to be closed if a worker has it. -/
structure Server.Drops (before after : Server) (fd : Fd) (generation : Nat) : Prop where
  counted : after.shared.counters.evicted = before.shared.counters.evicted + 1
  dropped : ∃ slot, before.table.slot? fd = some slot ∧ slot.generation = generation ∧
    (slot.custody = .loop ∧ after.table.slot? fd = some slot.release ∨
      (slot.custody = .worker ∨ slot.custody = .closing) ∧
        after.table.slot? fd = some { slot with custody := .closing })
  others : ∀ other, other ≠ fd → after.table.slot? other = before.table.slot? other
  timers : after.timers = before.timers

theorem Server.Evicts.drops {server next : Server} {fd : Fd} {generation : Nat}
    (evicts : Server.Evicts server fd generation next) (sound : server.timers.Sound)
    (due : server.ledger.Due fd generation) : server.Drops next fd generation := by
  have others := (evicts.retimes sound due).1.slots
  have timers := evicts.timers_eq
  obtain ⟨slot, found, current, used⟩ := due.occupied
  change server.table.slot? fd = some slot at found
  cases evicts with
  | stale other => exact (other slot found current).elim
  | counted here same parts =>
      have custody := Slots.custody_of_slot? found
      cases parts with
      | absent unused => exact (used (custody.symm.trans unused)).elim
      | now held =>
          have closes := @Server.ledger_closeNow
            ((server.forgetTimer fd).record Counters.countEviction) fd (by simp [held])
          refine ⟨congrArg Ledger.evicted closes, ⟨slot, found, current, .inl ⟨?_, ?_⟩⟩, others,
            timers⟩
          · exact custody.symm.trans held
          · have table := congrArg (fun ledger => ledger.table.slot? fd) closes
            exact table.trans (Slots.slot?_release_self found)
      | @later lentSlot present lent =>
          cases found.symm.trans present
          refine ⟨rfl, ⟨slot, found, current, .inr ⟨lent, ?_⟩⟩, others, timers⟩
          exact Slots.slot?_set_of_slot? found _

/-! ## Some connections -/

/-- The custody of connections before and after they were evicted, and that of all
others. -/
structure Server.Swept (before after : Server) (evicted : List (Fd × Nat)) : Prop where
  counted : after.shared.counters.evicted = before.shared.counters.evicted + evicted.length
  dropped : ∀ fd generation, (fd, generation) ∈ evicted →
    before.table.tenure? fd = some (.loop, generation) ∧
        after.table.tenure? fd = some (.free, generation) ∨
      (before.table.tenure? fd = some (.worker, generation) ∨
          before.table.tenure? fd = some (.closing, generation)) ∧
        after.table.tenure? fd = some (.closing, generation)
  kept : ∀ fd, fd ∉ evicted.map Prod.fst → after.table.tenure? fd = before.table.tenure? fd

namespace Server.Swept

variable {before server next : Server} {done : List (Fd × Nat)}

theorem start (server : Server) : server.Swept server [] :=
  ⟨rfl, nofun, fun _ _ => rfl⟩

theorem of_rests (swept : before.Swept server done) (rests : server.ledger.Rests next.ledger) :
    before.Swept next done where
  counted := Eq.trans rests.evicted swept.counted
  dropped fd generation member := by
    have same : next.table.tenure? fd = server.table.tenure? fd := rests.tenure fd
    rw [same]
    exact swept.dropped fd generation member
  kept fd outside := (rests.tenure fd).trans (swept.kept fd outside)

/-- A further connection is dropped, of a descriptor that was not met yet. -/
theorem drop {fd : Fd} {generation : Nat} (swept : before.Swept server done)
    (drops : server.Drops next fd generation) (fresh : fd ∉ done.map Prod.fst) :
    before.Swept next (done ++ [(fd, generation)]) := by
  obtain ⟨slot, found, rfl, ends⟩ := drops.dropped
  have others {other : Fd} (differ : other ≠ fd) :
      next.table.tenure? other = server.table.tenure? other :=
    Slots.tenure?_congr (drops.others other differ)
  have origin : before.table.tenure? fd = some (slot.custody, slot.generation) :=
    (swept.kept fd fresh).symm.trans (Slots.tenure?_of_slot? found)
  refine ⟨?_, ?_, ?_⟩
  · rw [drops.counted, swept.counted, List.length_append, List.length_singleton, Nat.add_assoc]
  · intro other held member
    rcases List.mem_append.1 member with earlier | last
    · have differ : other ≠ fd := by
        rintro rfl
        exact fresh (List.mem_map_of_mem earlier)
      rw [others differ]
      exact swept.dropped other held earlier
    · cases List.mem_singleton.1 last
      rw [origin]
      rcases ends with ⟨held, after⟩ | ⟨lent, after⟩
      · exact .inl ⟨by rw [held], Slots.tenure?_of_slot? after⟩
      · refine .inr ⟨?_, Slots.tenure?_of_slot? after⟩
        rcases lent with custody | custody
        · exact .inl (by rw [custody])
        · exact .inr (by rw [custody])
  · intro other outside
    rw [List.map_append, List.mem_append, not_or] at outside
    have differ : other ≠ fd := fun same => outside.2 (List.mem_singleton.2 same)
    exact (others differ).trans (swept.kept other outside.1)

end Server.Swept

namespace System

variable {system next : System} {action : Action} {actions : List Action} {fd : Fd}

/-! ## The steps of a sweep -/

/-- The connection that is evicted in a step. -/
def evictedBy (system : System) : Action → List (Fd × Nat)
  | .advance =>
      match system.place with
      | .sweeping (expired :: _) => [expired]
      | _ => []
  | _ => []

theorem evictedBy_of_ne (other : action ≠ .advance) (system : System) :
    system.evictedBy action = [] := by
  cases action with
  | advance => exact (other rfl).elim
  | outside | proceed | perform | report | wake | deliver => rfl

theorem isLate_endTurn (system : System) : system.endTurn.place.isLate = true := by
  simp only [endTurn]
  split <;> rfl

/-- No descriptor is met twice in a sweep. -/
theorem Timely.nodup_expired (timely : system.Timely) :
    (system.place.expired.map Prod.fst).Nodup := by
  rw [List.nodup_iff_count_le_one]
  intro fd
  have counted : (system.place.expired.map Prod.fst).count fd = (system.fired fd).length := by
    rw [List.count_eq_countP, List.countP_map, List.countP_eq_length_filter, fired,
      List.length_map]
    congr 1
  rw [counted]
  rcases timely.clocked fd with ⟨none, -⟩ | ⟨generation, one, -⟩
  · rw [none]
    exact Nat.zero_le 1
  · rw [one]
    exact Nat.le_refl 1

/-- A step of a sweep drops the connection that comes next, or none. -/
theorem sweeps_of_step? (timely : system.Timely) (late : system.place.isLate = true)
    (undelivered : ∀ events, action ≠ .deliver events) (stepped : system.step? action = some next)
    {before : Server} {done : List (Fd × Nat)} (swept : before.Swept system.server done)
    (apart : ((done ++ system.place.expired).map Prod.fst).Nodup) :
    next.place.isLate = true ∧
      system.place.expired = system.evictedBy action ++ next.place.expired ∧
      before.Swept next.server (done ++ system.evictedBy action) ∧
      next.server.timers = system.server.timers := by
  by_cases loops : action = .advance
  · subst loops
    cases Advances.of_advance? stepped with
    | collect position | listen position | handle position | acceptNone position
    | acceptAgain position | acceptFails position | accept position | settle position
    | beginSweep position | rest position =>
        rw [position] at late
        cases late
    | @evict expired rest position =>
        obtain ⟨fd, generation⟩ := expired
        obtain ⟨-, due⟩ := timely.due position
        have drops := (Server.evict_branch system.server fd generation).drops timely.sound due
        -- Its custody is still that from before the sweep, for it was not met yet.
        have fresh : fd ∉ done.map Prod.fst := by
          rw [position, List.map_append] at apart
          intro inside
          exact (List.nodup_append.1 apart).2.2 fd inside fd List.mem_cons_self rfl
        simp only [position, evictedBy]
        exact ⟨rfl, rfl, swept.drop drops fresh, drops.timers⟩
    | endSweep position =>
        simp only [evictedBy, position, List.append_nil]
        exact ⟨isLate_endTurn _, (expired_endTurn _).symm,
          ⟨swept.counted, swept.dropped, swept.kept⟩, rfl⟩
  · obtain ⟨rests, place | ⟨events, delivered, -⟩⟩ := rests_of_step? loops stepped
    · rw [evictedBy_of_ne loops, place, List.append_nil]
      exact ⟨late, rfl, swept.of_rests rests, rests.timers⟩
    · exact (undelivered events delivered).elim

/-- Until the next wait ends, the connections are dropped whose timers have fired. -/
theorem sweeps_of_run? (reached : Reachable system) (late : system.place.isLate = true)
    (undelivered : ∀ events, .deliver events ∉ actions) {last : System}
    (ran : system.run? actions = some last) {before : Server} {done : List (Fd × Nat)}
    (swept : before.Swept system.server done)
    (apart : ((done ++ system.place.expired).map Prod.fst).Nodup) :
    system.place.expired = tale evictedBy system actions ++ last.place.expired ∧
      before.Swept last.server (done ++ tale evictedBy system actions) ∧
      last.server.timers = system.server.timers := by
  induction actions generalizing system done with
  | nil =>
      obtain rfl := eq_of_run?_nil ran
      rw [tale, List.append_nil]
      exact ⟨rfl, swept, rfl⟩
  | cons action actions ih =>
      obtain ⟨next, stepped, rest⟩ := run?_cons_eq_some.1 ran
      have further (events : List Event) : action ≠ .deliver events := by
        rintro rfl
        exact undelivered events List.mem_cons_self
      obtain ⟨lateToo, splits, sweptToo, timers⟩ :=
        sweeps_of_step? reached.timely late further stepped swept apart
      rw [splits, ← List.append_assoc] at apart
      obtain ⟨splitsRest, sweptRest, timersRest⟩ := ih (reached.step stepped) lateToo
        (fun events member => undelivered events (List.mem_cons_of_mem action member)) rest
        sweptToo apart
      simp only [tale, stepped]
      rw [splits, splitsRest, List.append_assoc]
      rw [List.append_assoc] at sweptRest
      exact ⟨rfl, sweptRest, timersRest.trans timers⟩

/-- Left to itself the loop comes to the end of its sweep. -/
theorem sweep_ends {expired : List (Fd × Nat)} (position : system.place = .sweeping expired) :
    ∃ last, system.run? (List.replicate (expired.length + 1) .advance) = some last ∧
      (last.place = .waiting ∨ last.place = .stopped) := by
  induction expired generalizing system with
  | nil =>
      have stepped : system.step? .advance =
          some { system with server := system.server.endSweep }.endTurn := by
        simp only [step?, advance?, position]
      refine ⟨_, run?_cons_eq_some.2 ⟨_, stepped, rfl⟩, ?_⟩
      simp only [endTurn]
      split
      · exact .inr rfl
      · exact .inl rfl
  | cons first rest ih =>
      have stepped : system.step? .advance = some { system with
          server := system.server.evict first, place := .sweeping rest } := by
        simp only [step?, advance?, position]
      obtain ⟨last, ran, ended⟩ := @ih { system with
        server := system.server.evict first, place := .sweeping rest } rfl
      exact ⟨last, run?_cons_eq_some.2 ⟨_, stepped, ran⟩, ended⟩

/-! ## The beginning of a sweep -/

/-- Those timers fire whose deadline has come. -/
theorem mem_beginSweep {server : Server} (sound : server.timers.Sound) (fd : Fd)
    (generation : Nat) :
    (fd, generation) ∈ server.beginSweep.1 ↔
      ∃ deadline, server.timers.Pends (fd, generation) deadline ∧ deadline ≤ server.kernel.now := by
  obtain ⟨-, -, fires, -⟩ := sound.pending?_tick server.kernel.now
  have fired : server.beginSweep.1 = (server.timers.tick server.kernel.now).1.map Prod.snd := rfl
  rw [fired, List.mem_map]
  constructor
  · rintro ⟨⟨id, data⟩, member, rfl⟩
    obtain ⟨deadline, present, overdue⟩ := (fires id (fd, generation)).1 member
    exact ⟨deadline, ⟨id, present⟩, overdue⟩
  · rintro ⟨deadline, ⟨id, present⟩, overdue⟩
    exact ⟨(id, (fd, generation)), (fires id _).2 ⟨deadline, present, overdue⟩, rfl⟩

end System

end FileServer
