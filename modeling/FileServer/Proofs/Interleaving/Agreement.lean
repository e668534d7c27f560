import FileServer.Proofs.Idle.Schedule
import FileServer.Proofs.Interleaving.Clocks

/-!
# Timers and slots agree

Three things know of a connection that may become idle: the list of timers, the
identifiers that are kept for descriptors, and the slot of the descriptor.  They are
changed one after the other, when a connection is accepted, when it is active, when
it is closed, and when timers fire, and a descriptor may be used again at once.
Between two calls of handlers they say the same.  So the server never acts on the
timer of an earlier connection of a descriptor, although it looks whether it does.
-/

namespace FileServer

open Ledger

variable {server : Server} {fd : Fd}

/-- The list of timers is a sequence, the identifiers kept for descriptors are those of
the sequence, and its timers are those of connections. -/
structure Server.Agrees (server : Server) (schedule : List (Timers.Waiting (Fd × Nat))) :
    Prop where
  listed : server.timers.schedule? = some schedule
  known : ∀ fd id, server.timerIds.find? fd = some id ↔
    ∃ timer ∈ schedule, timer.id = id ∧ timer.data.1 = fd
  current : ∀ timer ∈ schedule, server.ledger.Occupied timer.data.1 timer.data.2
  /-- Only a connection that is to be closed may have lost its timer. -/
  attended : ∀ fd, server.table.custody fd = .loop ∨ server.table.custody fd = .worker →
    server.timerIds.find? fd ≠ none

/-- When a connection was active, its own timer gets another deadline.  Handlers change
the connection, its socket and the counters before they say so, but no timers. -/
def Server.Slides (server : Server) (fd : Fd) (generation : Nat) : Prop :=
  ∃ id, server.timerIds.find? fd = some id ∧ server.timers.get? id = some (fd, generation) ∧
    (∀ deadline, ∃ moved, server.timers.adjust? id deadline = some (true, moved)) ∧
    ∀ active : Server, active.timers = server.timers → active.timerIds = server.timerIds →
      active.refreshTimer fd generation =
        (Deadline.ofActivity active.kernel.now active.settings.timeslot).map fun deadline =>
          { active with timers := active.timers.adjust id deadline }

namespace System

variable {system : System}

/-- Timers that are in order agree with the slots. -/
theorem Timely.agrees (timely : system.Timely) (idle : system.place.expired = []) :
    ∃ schedule, system.server.Agrees schedule := by
  have timed (fd : Fd) := (timely.clocked fd).timed idle
  obtain ⟨schedule, listed, found⟩ := timely.sound.schedule
  refine ⟨schedule, listed, fun fd id => ⟨fun known => ?_, ?_⟩, fun timer member => ?_,
    fun fd => (timed fd).clocked⟩
  · obtain ⟨generation, present⟩ := (timed fd).named.known id known
    obtain ⟨timer, member, name, data⟩ := (found id _).1 present
    exact ⟨timer, member, name, congrArg Prod.fst data⟩
  · rintro ⟨timer, member, rfl, rfl⟩
    exact (timed _).named.own _ timer.data.2 ((found _ _).2 ⟨timer, member, rfl, rfl⟩)
  · exact (timed _).occupied timer.id _ ((found _ _).2 ⟨timer, member, rfl, rfl⟩)

/-- A timer that has fired is that of the connection that its descriptor has. -/
theorem Timely.occupied (timely : system.Timely) {expired : Fd × Nat}
    (member : expired ∈ system.place.expired) :
    system.server.ledger.Occupied expired.1 expired.2 := by
  have mine : expired.2 ∈ system.fired expired.1 := by
    refine List.mem_map.2 ⟨expired, List.mem_filter.2 ⟨member, ?_⟩, rfl⟩
    exact decide_eq_true rfl
  rcases timely.clocked expired.1 with ⟨none, -⟩ | ⟨generation, one, due⟩
  · simp [none] at mine
  · rw [one, List.mem_singleton] at mine
    exact mine ▸ due.occupied

/-- A connection that the loop has never meets the timer of an earlier one. -/
theorem Timely.slides (timely : system.Timely) (idle : system.place.expired = []) {slot : Slot}
    (found : system.server.table.slot? fd = some slot) (held : slot.custody = .loop) :
    system.server.Slides fd slot.generation := by
  have timed := (timely.clocked fd).timed idle
  have custody := (Slots.custody_of_slot? found).trans held
  obtain ⟨id, known⟩ := Option.ne_none_iff_exists'.1 (timed.clocked (.inl custody))
  obtain ⟨generation, present⟩ := timed.named.known id known
  obtain ⟨current, here, same, -⟩ := timed.occupied id generation present
  cases found.symm.trans here
  subst same
  refine ⟨id, known, present, fun deadline => ?_, fun active timers ids => ?_⟩
  · obtain ⟨order, keeps⟩ := timely.sound
    have contained : system.server.timers.contains id = true := by
      by_contra absent
      change system.server.timers.get? id = _ at present
      rw [Timers.get?, if_neg absent] at present
      cases present
    obtain ⟨_, _, _, _, _, _, moved, -, -, -, adjusted, -⟩ := keeps.adjust contained deadline
    exact ⟨moved, adjusted⟩
  · change system.server.timerIds.find? fd = some id at known
    change system.server.timers.get? id = some (fd, slot.generation) at present
    rw [← ids] at known
    rw [← timers] at present
    simp only [Server.refreshTimer, known, present, ↓reduceIte]
    cases Deadline.ofActivity active.kernel.now active.settings.timeslot <;> rfl

/-- In every run of the server: timers that have fired in a sweep are those of the
connections that their descriptors have just then.  Whenever no sweep goes on, timers,
identifiers and slots agree, a descriptor without a connection has no timer, and the
timer that is moved when a connection was active is its own. -/
theorem timers_agree {settings : Settings} {tree : FileTree} {now : Nat} {first : System}
    {actions : List Action} (launched : launch? settings tree now = some first)
    (ran : first.run? actions = some system) :
    (∀ expired ∈ system.place.expired, system.server.ledger.Occupied expired.1 expired.2) ∧
      (system.place.expired = [] →
        (∃ schedule, system.server.Agrees schedule) ∧
        (∀ fd, system.server.table.custody fd = .free → system.server.timerIds.find? fd = none ∧
          ∀ id generation, system.server.timers.get? id ≠ some (fd, generation)) ∧
        ∀ fd slot, system.server.table.slot? fd = some slot → slot.custody = .loop →
          system.server.Slides fd slot.generation) := by
  have timely := (Reachable.run (.start launched) ran).timely
  refine ⟨fun expired => timely.occupied, fun idle => ⟨timely.agrees idle, fun fd unused => ?_,
    fun fd slot => timely.slides idle⟩⟩
  have untimed := ((timely.clocked fd).timed idle).untimed unused
  exact ⟨untimed.unnamed, untimed.absent⟩

/-- A connection is accepted and hung up, and its descriptor is used again in the same
batch of events. -/
def descriptorUsedAgain : List Action :=
  [.outside (.arrive [.connection 7 ⟨.short [10, 0, 0, 1], 4000⟩ [] []]),
    .deliver [.arrivals], .advance, .advance, .advance, .advance, .advance,
    .outside (.arrive [.connection 7 ⟨.short [10, 0, 0, 2], 4001⟩ [] []]),
    .deliver [.ready 7 ⟨false, false, true⟩, .arrivals],
    .advance, .advance, .advance, .advance, .advance, .advance]

/-- After such a run the timer of the descriptor is in the cell of the earlier one and
carries the generation of the second connection. -/
theorem timers_agree_used_again :
    ∃ (system : System) (schedule : List (Timers.Waiting (Fd × Nat))),
      system.server.Agrees schedule ∧ system.server.timerIds.find? 7 = some ⟨0, 1⟩ ∧
      ∃ timer ∈ schedule, timer.id = ⟨0, 1⟩ ∧ timer.data.1 = 7 := by
  have evaluated : ((launch? {} ⟨0, [], []⟩ 0).bind fun first =>
      (first.run? descriptorUsedAgain).map fun system =>
        (system.place, system.server.timerIds.find? 7)) = some (.waiting, some ⟨0, 1⟩) := by
    decide +kernel
  simp only [Option.bind_eq_some_iff, Option.map_eq_some_iff, Prod.mk.injEq] at evaluated
  obtain ⟨first, launched, system, ran, waiting, known⟩ := evaluated
  obtain ⟨-, agree⟩ := timers_agree launched ran
  obtain ⟨⟨schedule, agrees⟩, -, -⟩ := agree (by rw [waiting]; rfl)
  exact ⟨system, schedule, agrees, known, (agrees.known 7 ⟨0, 1⟩).1 known⟩

end System

end FileServer
