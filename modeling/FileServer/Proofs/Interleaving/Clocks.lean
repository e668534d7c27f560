import FileServer.Proofs.Interleaving.Timekeeping

/-!
# Timers during a run

Whenever a handler is called, the timers and the connections belong together.  Only
while a sweep goes on there are descriptors whose timer has fired already, and each
of them is met once, with the connection that the timer was for.
-/

namespace FileServer

namespace System

open Ledger

variable {system next : System} {fd : Fd}

/-- The generations for which a timer of a descriptor has fired and is still to be
acted on. -/
def fired (system : System) (fd : Fd) : List Nat :=
  (system.place.expired.filter fun expired => expired.1 = fd).map Prod.snd

/-- The timer of a descriptor is in order, or it has fired and is to be acted on
once. -/
def Clocked (system : System) (fd : Fd) : Prop :=
  system.fired fd = [] ∧ system.server.ledger.Timed fd ∨
    ∃ generation, system.fired fd = [generation] ∧ system.server.ledger.Due fd generation

/-- All timers are in order. -/
structure Timely (system : System) : Prop where
  sound : system.server.timers.Sound
  clocked : ∀ fd, system.Clocked fd

theorem Clocked.timed (clocked : system.Clocked fd) (idle : system.place.expired = []) :
    system.server.ledger.Timed fd := by
  rcases clocked with ⟨-, timed⟩ | ⟨generation, one, -⟩
  · exact timed
  · simp [fired, idle] at one

/-- As long as its timer does not change, a connection may change hands. -/
theorem Clocked.of_same (clocked : system.Clocked fd) (fired : next.fired fd = system.fired fd)
    (same : SameTimers fd system.server.ledger next.server.ledger)
    (occupied : ∀ generation, system.server.ledger.Occupied fd generation →
      next.server.ledger.Occupied fd generation)
    (attended : next.server.table.custody fd = .loop ∨ next.server.table.custody fd = .worker →
      system.server.table.custody fd = .loop ∨ system.server.table.custody fd = .worker) :
    next.Clocked fd := by
  rcases clocked with ⟨none, timed⟩ | ⟨generation, one, due⟩
  · exact .inl ⟨fired.trans none, timed.of_same same occupied attended⟩
  · exact .inr ⟨generation, fired.trans one, due.of_same same (occupied generation)⟩

/-- What is not about a descriptor leaves its timer as it is. -/
theorem Clocked.of_slot (clocked : system.Clocked fd) (fired : next.fired fd = system.fired fd)
    (same : SameTimers fd system.server.ledger next.server.ledger)
    (slot : next.server.table.slot? fd = system.server.table.slot? fd) : next.Clocked fd := by
  have held : next.server.ledger.table.slot? fd = system.server.ledger.table.slot? fd := slot
  refine clocked.of_same fired same ?_ ?_
  · intro generation occupied
    rwa [Occupied, held]
  · intro attended
    rwa [Slots.custody, ← slot]

/-- A handler that is called while no sweep goes on. -/
theorem Timely.of_keepsTime (timely : system.Timely) (idle : system.place.expired = [])
    (after : next.place.expired = [])
    (keeps : KeepsTime fd system.server.ledger next.server.ledger) : next.Timely := by
  obtain ⟨retimes, timed⟩ := keeps timely.sound ((timely.clocked fd).timed idle)
  have quiet (other : Fd) : next.fired other = [] := by simp [fired, after]
  refine ⟨retimes.sound, fun other => .inl ⟨quiet other, ?_⟩⟩
  by_cases mine : other = fd
  · exact mine ▸ timed
  · exact ((timely.clocked other).timed idle).of_slot (retimes.others other mine)
      (retimes.slots other mine)

/-- Of timers with different identifiers at most one is that of a descriptor. -/
theorem fired_cases {due : List (TimerId × (Fd × Nat))} (nodup : (due.map Prod.fst).Nodup)
    {known : Option TimerId} (own : ∀ timer ∈ due, timer.2.1 = fd → known = some timer.1) :
    (∀ timer ∈ due, timer.2.1 ≠ fd) ∨
      ∃ id generation, (id, (fd, generation)) ∈ due ∧
        ((due.map Prod.snd).filter fun expired => expired.1 = fd) = [(fd, generation)] := by
  by_cases none : ∀ timer ∈ due, timer.2.1 ≠ fd
  · exact .inl none
  · right
    push Not at none
    obtain ⟨⟨id, about, generation⟩, member, mine⟩ := none
    change about = fd at mine
    subst mine
    refine ⟨id, generation, member, ?_⟩
    have one : (due.filter fun timer => timer.2.1 = about).Perm [(id, (about, generation))] := by
      rw [List.perm_ext_iff_of_nodup (List.Nodup.filter _ (.of_map Prod.fst nodup))
        (List.nodup_singleton _)]
      intro timer
      simp only [List.mem_filter, decide_eq_true_eq, List.mem_singleton]
      constructor
      · rintro ⟨inside, same⟩
        have names := (own timer inside same).symm.trans (own _ member rfl)
        exact List.inj_on_of_nodup_map nodup inside member (Option.some.inj names)
      · rintro rfl
        exact ⟨member, rfl⟩
    rw [List.filter_map]
    exact congrArg (List.map Prod.snd) (List.perm_singleton.1 one)

/-- Timers that fire are those of connections, and each fires once. -/
theorem Timely.sweep (timely : system.Timely) (idle : system.place.expired = [])
    (same : next.server = system.server.beginSweep.2)
    (place : next.place = .sweeping system.server.beginSweep.1) : next.Timely := by
  obtain ⟨kept, nodup, held, gone, others⟩ := timely.sound.tick system.server.kernel.now
  obtain ⟨⟨due, timers⟩, ticked⟩ :
      ∃ result, system.server.timers.tick system.server.kernel.now = result := ⟨_, rfl⟩
  simp only [Server.beginSweep, ticked] at same place
  rw [ticked] at kept nodup held gone others
  dsimp only at kept nodup held gone others
  have ids : next.server.ledger.timerIds = system.server.ledger.timerIds := by rw [same]; rfl
  have left : next.server.ledger.timers = timers := by rw [same]; rfl
  have slots : next.server.ledger.table = system.server.ledger.table := by rw [same]; rfl
  refine ⟨by rw [same]; exact kept, fun fd => ?_⟩
  have timed := (timely.clocked fd).timed idle
  have own {id : TimerId} {generation : Nat} (present : timers.get? id = some (fd, generation)) :
      id ∉ due.map Prod.fst ∧ system.server.ledger.timers.get? id = some (fd, generation) := by
    have outside : id ∉ due.map Prod.fst := by
      intro inside
      obtain ⟨timer, member, rfl⟩ := List.mem_map.1 inside
      cases (gone timer member).symm.trans present
    exact ⟨outside, (others id outside).symm.trans present⟩
  have mine (timer : TimerId × (Fd × Nat)) (member : timer ∈ due) (about : timer.2.1 = fd) :
      system.server.ledger.timerIds.find? fd = some timer.1 := by
    subst about
    exact timed.named.own timer.1 timer.2.2 (held timer member)
  rcases fired_cases nodup mine with none | ⟨id, generation, member, one⟩
  · refine .inl ⟨?_, timed.of_slot ⟨by rw [ids], fun id generation => ?_⟩ (by rw [slots])⟩
    · simp only [fired, place, Place.expired, List.map_eq_nil_iff, List.filter_eq_nil_iff]
      intro expired member
      obtain ⟨timer, inside, rfl⟩ := List.mem_map.1 member
      simpa using none timer inside
    · rw [left]
      constructor
      · exact fun present => (own present).2
      · intro present
        have outside : id ∉ due.map Prod.fst := by
          intro inside
          obtain ⟨timer, member, rfl⟩ := List.mem_map.1 inside
          have same := (held timer member).symm.trans present
          exact none timer member (congrArg Prod.fst (Option.some.inj same))
        exact (others id outside).trans present
  · refine .inr ⟨generation, ?_, ?_⟩
    · simp only [fired, place, Place.expired, one]
      rfl
    · have present : system.server.ledger.timers.get? id = some (fd, generation) := held _ member
      constructor
      · obtain ⟨slot, found, current, used⟩ := timed.occupied id generation present
        exact ⟨slot, slots ▸ found, current, used⟩
      · simp [ids, mine _ member rfl]
      · intro name other found
        rw [left] at found
        obtain ⟨outside, before⟩ := own found
        have names := (timed.named.own name other before).symm.trans (mine _ member rfl)
        exact outside (Option.some.inj names ▸ List.mem_map_of_mem member)

/-- A timer that is to be acted on is that of a connection, and it is the only one
of its descriptor. -/
theorem Timely.due (timely : system.Timely) {generation : Nat} {rest : List (Fd × Nat)}
    (position : system.place = .sweeping ((fd, generation) :: rest)) :
    system.fired fd = [generation] ∧ system.server.ledger.Due fd generation := by
  have mine : generation ∈ system.fired fd := by simp [fired, position, Place.expired]
  rcases timely.clocked fd with ⟨none, -⟩ | ⟨due, one, clocked⟩
  · simp [none] at mine
  · rw [one, List.mem_singleton] at mine
    exact mine ▸ ⟨one, clocked⟩

theorem Timely.of_moves (timely : system.Timely) (moves : system.Moves next) : next.Timely := by
  cases moves with
  | still same expired =>
      have timers : next.server.timers = system.server.timers := congrArg Ledger.timers same
      refine ⟨timers ▸ timely.sound, fun fd => ?_⟩
      refine (timely.clocked fd).of_slot (by rw [fired, expired, ← fired]) ?_ ?_
      · rw [same]
        exact .refl fd _
      · exact congrArg (fun ledger => ledger.table.slot? fd) same
  | @worked fd slot _ connection found lent same place =>
      have timers : next.server.timers = system.server.timers := congrArg Ledger.timers same
      have table : next.server.table = system.server.table.set fd { slot with connection } :=
        congrArg Ledger.table same
      have fired (other : Fd) : next.fired other = system.fired other := by
        rw [System.fired, place, ← System.fired]
      refine ⟨timers ▸ timely.sound, fun other => ?_⟩
      by_cases mine : other = fd
      · subst mine
        have here := Slots.slot?_set_of_slot? found { slot with connection }
        refine (timely.clocked other).of_same (fired other) ?_ ?_ ?_
        · rw [same]
          exact ⟨rfl, fun _ _ => .rfl⟩
        · intro generation occupied
          rw [same]
          exact Server.occupied_putSlot found { slot with connection } rfl id occupied
        · rw [table, Slots.custody_of_slot? here, Slots.custody_of_slot? found]
          exact id
      · refine (timely.clocked other).of_slot (fired other) ?_ ?_
        · rw [same]
          exact ⟨rfl, fun _ _ => .rfl⟩
        · rw [table]
          exact Slots.slot?_set_of_ne mine _
  | @takesIn fd peer before _ takes same idle place =>
      have keeps := takes.keepsTime
      rw [same] at keeps
      exact timely.of_keepsTime idle (place ▸ idle) keeps
  | handles handles idle place =>
      exact timely.of_keepsTime idle place (Server.adds_keepsTime.handles handles)
  | settles settles idle place =>
      exact timely.of_keepsTime idle place (Server.adds_keepsTime.settles settles)
  | sweeps same idle place => exact timely.sweep idle same place
  | @evicts fd generation rest _ position evicts place =>
      have mine : system.fired fd = generation :: next.fired fd := by
        simp [fired, position, place, Place.expired]
      have other {number : Fd} (differ : number ≠ fd) :
          next.fired number = system.fired number := by
        simp [fired, position, place, Place.expired, Ne.symm differ]
      obtain ⟨one, due⟩ := timely.due position
      have quiet := (List.cons.inj (mine.symm.trans one)).2
      obtain ⟨retimes, timed⟩ := evicts.retimes timely.sound due
      refine ⟨retimes.sound, fun number => ?_⟩
      by_cases about : number = fd
      · exact about ▸ .inl ⟨quiet, timed⟩
      · exact (timely.clocked number).of_slot (other about) (retimes.others number about)
          (retimes.slots number about)

theorem timely_launch {settings : Settings} {tree : FileTree} {now : Nat}
    (launched : launch? settings tree now = some system) : system.Timely := by
  obtain ⟨-, rfl⟩ := launch?_eq_some launched
  refine ⟨Timers.sound_empty, fun fd => .inl ⟨rfl, Untimed.timed ⟨rfl, fun _ _ => nofun⟩ ?_⟩⟩
  left
  change (Slots.ofLimit settings.maxFd).custody fd = .free
  rw [Slots.custody, Slots.slot?_ofLimit]
  rfl

/-- In every run of the server timers and connections belong together. -/
theorem Reachable.timely (reached : Reachable system) : system.Timely := by
  induction reached with
  | start launched => exact timely_launch launched
  | step earlier stepped ih => exact ih.of_moves (.of_step? earlier.owned stepped)

end System

end FileServer
