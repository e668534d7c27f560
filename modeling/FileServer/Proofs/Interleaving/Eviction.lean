import FileServer.Proofs.Interleaving.Awakening
import FileServer.Proofs.Interleaving.Sweeping

/-!
# Idle connections are evicted, and no others

When a connection was active for the last time follows from a run without the timers, and
its deadline is one window later.  So the timers that fire when a sweep begins are those of
the connections that were not active within the window, and nothing that happens until the
sweep ends adds to them or takes from them: the loop accepts nobody and handles no event
meanwhile.

A connection that a worker has cannot be closed under it.  It is marked, its timer is gone,
and it stays so until the loop acts on the completion of that worker.
-/

namespace FileServer

open Timers Ledger

namespace Server

variable {server next : Server} {fd : Fd}

/-! ## The count of evictions -/

theorem evicted_closeNow (used : server.table.custody fd ≠ .free) :
    (server.closeNow fd).ledger.evicted = server.ledger.evicted := by
  rw [ledger_closeNow used]

/-- No operation of a handler counts an eviction. -/
theorem adds_evicted : Adds fun _ before after => after.evicted = before.evicted where
  refl _ _ := rfl
  trans early late := late.trans early
  putSlot _ _ _ _ _ _ := rfl
  refreshTimer _ _ refreshed := by
    obtain ⟨timers, timerIds, rfl⟩ := refreshTimer_eq refreshed
    rfl
  closeNow := evicted_closeNow
  reject {server fd} held := by
    have used : (server.record Counters.countRejection).table.custody fd ≠ .free := by
      change server.table.custody fd ≠ .free
      simp [held]
    exact evicted_closeNow used

theorem TakesIn.evicted {peer : Address} (takesIn : TakesIn server fd peer next) :
    next.ledger.evicted = server.ledger.evicted := by
  cases takesIn with
  | busy | dropped | watched => rfl
  | unwatched =>
      rw [ledger_release]
      rfl

/-! ## Connections that are to be closed -/

/-- A connection of a generation is to be closed when a worker gives it back. -/
def Closing (server : Server) (fd : Fd) (generation : Nat) : Prop :=
  server.table.tenure? fd = some (.closing, generation)

theorem Closing.slot {generation : Nat} (closing : server.Closing fd generation) :
    ∃ slot, server.table.slot? fd = some slot ∧ slot.custody = .closing ∧
      slot.generation = generation := by
  obtain ⟨slot, found, same⟩ := Option.map_eq_some_iff.1 closing
  exact ⟨slot, found, congrArg Prod.fst same, congrArg Prod.snd same⟩

theorem Closing.custody {generation : Nat} (closing : server.Closing fd generation) :
    server.table.custody fd = .closing := by
  obtain ⟨slot, found, held, -⟩ := closing.slot
  exact (Slots.custody_of_slot? found).trans held

theorem Closing.of_same {generation : Nat} (closing : server.Closing fd generation)
    (same : next.table.slot? fd = server.table.slot? fd) : next.Closing fd generation :=
  (Slots.tenure?_congr same).trans closing

theorem Parts.closing {generation : Nat} (parts : Parts server fd next)
    (closing : server.Closing fd generation) : next.Closing fd generation := by
  cases parts with
  | absent => exact closing
  | now held => cases closing.custody.symm.trans held
  | @later slot found lent =>
      obtain ⟨other, here, -, current⟩ := closing.slot
      cases found.symm.trans here
      have here := Slots.slot?_set_of_slot? found { slot with custody := .closing }
      have deferred := Slots.tenure?_of_slot? here
      exact deferred.trans (congrArg (fun held => some (Custody.closing, held)) current)

theorem Handles.closing {generation : Nat} {readiness : Readiness}
    (handles : Handles server fd readiness next) (closing : server.Closing fd generation) :
    next.Closing fd generation := by
  have elsewhere : server.table.custody fd ≠ .loop := by
    rw [closing.custody]
    nofun
  cases handles with
  | hangup _ parts => exact parts.closing closing
  | readable _ reads => exact (reads.eq_of_elsewhere elsewhere) ▸ closing
  | writable _ writes => exact (writes.eq_of_elsewhere elsewhere) ▸ closing
  | nothing => exact closing

theorem Evicts.closing {generation held : Nat} (evicts : Evicts server fd held next)
    (closing : server.Closing fd generation) : next.Closing fd generation := by
  cases evicts with
  | stale => exact closing
  | counted _ _ parts => exact parts.closing closing

/-- A descriptor that is in use is not accepted again. -/
theorem TakesIn.closing {generation : Nat} {peer : Address} (takesIn : TakesIn server fd peer next)
    (closing : server.Closing fd generation) : next.Closing fd generation := by
  cases takesIn with
  | busy | dropped => exact closing
  | unwatched opened | watched _ opened =>
      have free := (Slots.open?_cases opened).2.1
      cases closing.custody.symm.trans free

/-- It is closed when its completion is acted on. -/
theorem Settles.closing {generation : Nat} {done : Completion} (settles : Settles server done next)
    (closing : server.Closing done.fd generation) :
    done.generation = generation ∧
      next.table.tenure? done.fd = some (.free, generation) := by
  obtain ⟨slot, found, held, current⟩ := closing.slot
  cases settles with
  | @deferred own here same lent =>
      cases found.symm.trans here
      have table := congrArg (fun ledger => ledger.table.slot? done.fd)
        (@ledger_closeNow server done.fd (by rw [closing.custody]; nofun))
      refine ⟨same.symm.trans current, ?_⟩
      have released := Slots.tenure?_of_slot? (table.trans (Slots.slot?_release_self found))
      exact released.trans (congrArg (fun held => some (Custody.free, held)) current)
  | returned here same lent =>
      cases found.symm.trans here
      cases held.symm.trans lent

end Server

namespace System

variable {system next first last : System} {action : Action} {actions : List Action} {fd : Fd}
variable {settings : Settings} {tree : FileTree} {now generation : Nat}

/-- Evictions are counted in the steps of sweeps that evict, and only there. -/
theorem evicted_of_step? (reached : Reachable system) (stepped : system.step? action = some next) :
    next.server.shared.counters.evicted =
      system.server.shared.counters.evicted + (system.evictedBy action).length := by
  by_cases loops : action = .advance
  · subst loops
    cases Advances.of_advance? stepped with
    | collect position | listen position | acceptNone position | acceptAgain position
    | acceptFails position | beginSweep position | rest position | endSweep position =>
        simp only [evictedBy, position]
        rfl
    | accept position waiting taken =>
        simp only [evictedBy, position]
        exact (Server.takeIn_cases taken).evicted
    | @handle event events sweepDue due server position other handled =>
        simp only [evictedBy, position]
        cases event with
        | arrivals => exact (other rfl).elim
        | notices => exact congrArg Ledger.evicted (Server.ledger_notices handled)
        | ready about readiness =>
            obtain ⟨-, acted⟩ := Server.handleReady_of_handle handled
            exact Server.adds_evicted.handles (Server.handleReady_branch acted)
    | @settle done rest sweepDue position =>
        have lent := reached.owned.lent_of_settling position
        simp only [evictedBy, position]
        exact Server.adds_evicted.settles (Server.handleCompletion_branch lent)
    | @evict expired rest position =>
        obtain ⟨fd, generation⟩ := expired
        obtain ⟨-, due⟩ := reached.timely.due position
        simp only [evictedBy, position]
        exact ((Server.evict_branch system.server fd generation).drops reached.timely.sound
          due).counted
  · rw [evictedBy_of_ne loops]
    exact (rests_of_step? loops stepped).1.evicted

/-- A connection whose timer has fired was not active within the window. -/
theorem overdue_of_run (launched : launch? settings tree now = some first)
    (ran : first.run? actions = some system) {expired : Fd × Nat}
    (member : expired ∈ system.place.expired) :
    ∃ moment, first.lastActive? actions expired.1 expired.2 = some moment ∧
      moment + settings.idleWindow ≤ system.server.kernel.now := by
  induction actions using List.reverseRecOn generalizing system with
  | nil =>
      obtain rfl := eq_of_run?_nil ran
      obtain ⟨-, rfl⟩ := launch?_eq_some launched
      cases member
  | append_singleton actions action ih =>
      rw [run?_append] at ran
      obtain ⟨middle, ranFront, step⟩ := Option.bind_eq_some_iff.1 ran
      obtain ⟨_, stepped, same⟩ := run?_cons_eq_some.1 step
      obtain rfl := eq_of_run?_nil same
      have reached := Reachable.run (.start launched) ranFront
      have clock := (sameDocuments_step? reached.owned stepped).clock
      -- As long as nobody is active, what was overdue stays so.
      have stays (silent : middle.active? expired.1 action = none)
          (before : expired ∈ middle.place.expired) :
          ∃ moment, first.lastActive? (actions ++ [action]) expired.1 expired.2 = some moment ∧
            moment + settings.idleWindow ≤ system.server.kernel.now := by
        obtain ⟨moment, latest, overdue⟩ := ih ranFront before
        rw [lastActive?_concat ranFront, if_neg (by simp [silent])]
        exact ⟨moment, latest, Nat.le_trans overdue clock⟩
      by_cases loops : action = .advance
      · subst loops
        cases Advances.of_advance? stepped with
        | collect | listen | handle | settle | acceptNone | acceptFails => cases member
        | acceptAgain position | accept position =>
            simp only [position, Place.expired] at member
            cases member
        | rest position =>
            rw [expired_endTurn] at member
            cases member
        | endSweep position =>
            rw [expired_endTurn] at member
            cases member
        | evict position =>
            refine stays (by simp only [active?, position]) ?_
            rw [position]
            exact List.mem_cons_of_mem _ member
        | beginSweep position =>
            obtain ⟨deadline, pends, due⟩ :=
              (mem_beginSweep reached.timely.sound expired.1 expired.2).1 member
            obtain ⟨moment, latest, rfl⟩ := deadline_of_run launched ranFront pends
            rw [lastActive?_concat ranFront, if_neg (by simp [active?, position])]
            exact ⟨moment, latest, due⟩
      · obtain ⟨-, place | ⟨events, -, serving⟩⟩ := rests_of_step? loops stepped
        · exact stays (active?_of_ne loops _ middle) (place ▸ member)
        · rw [serving] at member
          cases member

/-- A connection that is to be closed is closed in the step that acts on its completion, and
stays as it is in any other. -/
theorem closing_of_step? (reached : Reachable system)
    (closing : system.server.Closing fd generation)
    (stepped : system.step? action = some next) :
    (next.server.Closing fd generation ∧ ∀ done ∈ system.settledBy action, done.fd ≠ fd) ∨
      ∃ done, action = .advance ∧ system.settledBy action = [done] ∧ done.fd = fd ∧
        done.generation = generation ∧
        next.server.table.tenure? fd = some (.free, generation) := by
  by_cases loops : action = .advance
  · subst loops
    cases Advances.of_advance? stepped with
    | collect position | listen position | acceptNone position | acceptAgain position
    | acceptFails position | beginSweep position | rest position | endSweep position =>
        refine .inl ⟨closing, ?_⟩
        simp [settledBy, position]
    | @accept _ _ about _ _ _ _ server position waiting taken =>
        -- Of a step about another descriptor it is enough that it leaves this one alone.
        refine .inl ⟨?_, by simp [settledBy, position]⟩
        by_cases mine : fd = about
        · subst mine
          exact (Server.takeIn_cases taken).closing closing
        · exact closing.of_same ((takeInNext_spec taken).1.leaves fd mine).slot
    | @handle event events sweepDue due server position other handled =>
        refine .inl ⟨?_, by simp [settledBy, position]⟩
        cases event with
        | arrivals => exact (other rfl).elim
        | notices =>
            have same := congrArg Ledger.table (Server.ledger_notices handled)
            exact closing.of_same (congrArg (Slots.slot? · fd) same)
        | ready about readiness =>
            obtain ⟨-, acted⟩ := Server.handleReady_of_handle handled
            have handles := Server.handleReady_branch acted
            by_cases mine : fd = about
            · subst mine
              exact handles.closing closing
            · have timed := (reached.timely.clocked about).timed (by rw [position]; rfl)
              obtain ⟨retimes, -⟩ :=
                Server.adds_keepsTime.handles handles reached.timely.sound timed
              exact closing.of_same (retimes.slots fd mine)
    | @settle done rest sweepDue position =>
        have lent := reached.owned.lent_of_settling position
        have settles := Server.handleCompletion_branch lent
        by_cases mine : done.fd = fd
        · subst mine
          obtain ⟨same, freed⟩ := settles.closing closing
          exact .inr ⟨done, rfl, by simp [settledBy, position], rfl, same, freed⟩
        · refine .inl ⟨?_, by simp [settledBy, position, mine]⟩
          obtain ⟨confined, -⟩ := Server.handleCompletion_spec lent
          exact closing.of_same (confined.leaves fd (Ne.symm mine)).slot
    | @evict expired rest position =>
        refine .inl ⟨?_, by simp [settledBy, position]⟩
        obtain ⟨about, held⟩ := expired
        by_cases mine : fd = about
        · subst mine
          exact (Server.evict_branch system.server fd held).closing closing
        · have confined := Server.confined_evict system.server about held
          exact closing.of_same (confined.leaves fd mine).slot
  · rw [settledBy_of_ne loops]
    exact .inl ⟨((rests_of_step? loops stepped).1.tenure fd).trans closing, List.forall_mem_nil _⟩

/-- A run comes to a step that acts on the completion of a connection that is to be closed,
and then its slot is free. -/
def FreedIn (system : System) (fd : Fd) (generation : Nat) (actions : List Action) : Prop :=
  ∃ front back middle freed done, actions = front ++ .advance :: back ∧
    system.run? front = some middle ∧ middle.server.Closing fd generation ∧
    middle.settledBy .advance = [done] ∧ done.fd = fd ∧ done.generation = generation ∧
    middle.step? .advance = some freed ∧
    freed.server.table.tenure? fd = some (.free, generation)

theorem closing_of_run? (reached : Reachable system) (closing : system.server.Closing fd generation)
    (ran : system.run? actions = some last) :
    (last.server.Closing fd generation ∧ ∀ done ∈ tale settledBy system actions, done.fd ≠ fd) ∨
      system.FreedIn fd generation actions := by
  induction actions generalizing system with
  | nil =>
      obtain rfl := eq_of_run?_nil ran
      exact .inl ⟨closing, nofun⟩
  | cons action actions ih =>
      obtain ⟨next, stepped, rest⟩ := run?_cons_eq_some.1 ran
      rcases closing_of_step? reached closing stepped with
        ⟨closingToo, others⟩ | ⟨done, rfl, settled, mine, current, freed⟩
      · rcases ih (reached.step stepped) closingToo rest with
          ⟨ends, otherRest⟩ | ⟨front, back, middle, freed, done, rfl, ranFront, found⟩
        · refine .inl ⟨ends, fun done member => ?_⟩
          simp only [tale, stepped] at member
          rcases List.mem_append.1 member with here | later
          · exact others done here
          · exact otherRest done later
        · exact .inr ⟨action :: front, back, middle, freed, done, rfl,
            run?_cons_eq_some.2 ⟨next, stepped, ranFront⟩, found⟩
      · exact .inr ⟨[], actions, system, next, done, rfl, rfl, closing, settled, mine, current,
          stepped, freed⟩

/-- A connection that the loop has waits for a deadline. -/
theorem Timely.pends (timely : system.Timely) (idle : system.place.expired = [])
    (held : system.server.table.tenure? fd = some (.loop, generation)) :
    ∃ deadline, system.server.timers.Pends (fd, generation) deadline := by
  obtain ⟨slot, found, same⟩ := Option.map_eq_some_iff.1 held
  have custody := (Slots.custody_of_slot? found).trans (congrArg Prod.fst same)
  have timed := (timely.clocked fd).timed idle
  obtain ⟨id, known⟩ := Option.ne_none_iff_exists'.1 (timed.clocked (.inl custody))
  obtain ⟨own, present⟩ := timed.named.known id known
  obtain ⟨current, here, equal, -⟩ := timed.occupied id own present
  cases found.symm.trans here
  obtain ⟨deadline, entry⟩ := exists_pending?_of_get? present
  have mine : own = generation := equal.symm.trans (congrArg Prod.snd same)
  exact ⟨deadline, id, mine ▸ entry⟩

/-- A sweep meets the connections that were not active within the window. -/
theorem mem_evicted_of_run (launched : launch? settings tree now = some first)
    (ran : first.run? actions = some system) (fd : Fd) (generation : Nat) :
    (fd, generation) ∈ system.server.beginSweep.1 ↔
      (∃ deadline, system.server.timers.Pends (fd, generation) deadline) ∧
        ∃ moment, first.lastActive? actions fd generation = some moment ∧
          moment + settings.idleWindow ≤ system.server.kernel.now := by
  have sound := (Reachable.run (.start launched) ran).timely.sound
  rw [mem_beginSweep sound]
  constructor
  · rintro ⟨deadline, pends, due⟩
    obtain ⟨moment, latest, rfl⟩ := deadline_of_run launched ran pends
    exact ⟨⟨_, pends⟩, moment, latest, due⟩
  · rintro ⟨⟨deadline, pends⟩, moment, latest, due⟩
    obtain ⟨other, same, rfl⟩ := deadline_of_run launched ran pends
    cases latest.symm.trans same
    exact ⟨_, pends, due⟩

/-- All other timers go on waiting for the deadlines that they had. -/
theorem pends_beginSweep_of_run (launched : launch? settings tree now = some first)
    (ran : first.run? actions = some system) (fd : Fd) (generation deadline : Nat) :
    system.server.beginSweep.2.timers.Pends (fd, generation) deadline ↔
      system.server.timers.Pends (fd, generation) deadline ∧
        (fd, generation) ∉ system.server.beginSweep.1 := by
  have sound := (Reachable.run (.start launched) ran).timely.sound
  refine (sound.pends_tick system.server.kernel.now (fd, generation) deadline).trans ?_
  rw [mem_beginSweep sound]
  refine and_congr_right fun pends => ⟨fun unripe => ?_, fun none => ?_⟩
  · rintro ⟨other, pendsToo, due⟩
    -- A connection has one deadline, for it has one last activity.
    obtain ⟨moment, latest, rfl⟩ := deadline_of_run launched ran pends
    obtain ⟨momentToo, latestToo, rfl⟩ := deadline_of_run launched ran pendsToo
    cases latest.symm.trans latestToo
    omega
  · exact Nat.lt_of_not_le fun due => none ⟨deadline, pends, due⟩

/-- Whom the loop has when no timer has fired was active one window before the deadline that it
waits for. -/
theorem latest_of_held (launched : launch? settings tree now = some first)
    (ran : first.run? actions = some system) (idle : system.place.expired = [])
    (held : system.server.table.tenure? fd = some (.loop, generation)) :
    ∃ moment, first.lastActive? actions fd generation = some moment ∧
      system.server.timers.Pends (fd, generation) (moment + settings.idleWindow) := by
  obtain ⟨deadline, waits⟩ :=
    (Reachable.run (.start launched) ran).timely.pends idle held
  obtain ⟨moment, latest, rfl⟩ := deadline_of_run launched ran waits
  exact ⟨moment, latest, waits⟩

/-- The timers that are due fire when the last completion has been acted on. -/
theorem begins_of_settling {sweepDue : Bool} (position : system.place = .settling [] sweepDue)
    (due : (sweepDue || system.server.sweepOverdue) = true) :
    ∃ begun, system.step? .advance = some begun ∧
      begun.server = system.server.beginSweep.2 ∧
      begun.place = .sweeping system.server.beginSweep.1 := by
  refine ⟨{ system with
    server := system.server.beginSweep.2
    place := .sweeping system.server.beginSweep.1 }, ?_, rfl, rfl⟩
  simp only [step?, advance?, position, due, ↓reduceIte]

/-- The connection that comes next in a sweep is evicted in the next step of the loop. -/
theorem drops_of_sweeping (reached : Reachable system) {rest : List (Fd × Nat)}
    (position : system.place = .sweeping ((fd, generation) :: rest)) :
    ∃ next, system.step? .advance = some next ∧ next.place = .sweeping rest ∧
      system.server.Drops next.server fd generation := by
  obtain ⟨-, known⟩ := reached.timely.due position
  refine ⟨{ system with server := system.server.evict (fd, generation), place := .sweeping rest },
    ?_, rfl, ?_⟩
  · simp only [step?, advance?, position]
  · exact (Server.evict_branch system.server fd generation).drops reached.timely.sound known

/-- Idle eviction is exact, in every system that was launched and at any point of a run.

A step counts as many evictions as it performs, and whoever is still to be evicted was not
active for a window or longer.  To evict a connection is to close it if the loop has it, and
to mark it if a worker has it; a marked connection stays as it is until the loop acts on its
completion, and in that step its slot becomes free.

A sweep evicts those whose timers are pending and whose last activity is a window or longer
ago.  It comes to an end, and however workers and clients go on meanwhile, all other
connections keep their custody and their deadlines, and afterwards the loop has none whose
last activity was a window before the sweep. -/
theorem idle_eviction_exact (launched : launch? settings tree now = some first)
    (ran : first.run? actions = some system) :
    (∀ action next, system.step? action = some next →
      next.server.shared.counters.evicted =
        system.server.shared.counters.evicted + (system.evictedBy action).length) ∧
    (∀ expired ∈ system.place.expired,
      ∃ moment, first.lastActive? actions expired.1 expired.2 = some moment ∧
        moment + settings.idleWindow ≤ system.server.kernel.now) ∧
    (∀ fd generation rest, system.place = .sweeping ((fd, generation) :: rest) →
      ∃ next, system.step? .advance = some next ∧ next.place = .sweeping rest ∧
        system.server.Drops next.server fd generation) ∧
    (∀ fd generation, system.server.Closing fd generation →
      ∀ later last, system.run? later = some last →
        (last.server.Closing fd generation ∧ ∀ done ∈ tale settledBy system later, done.fd ≠ fd) ∨
          system.FreedIn fd generation later) ∧
    ∀ sweepDue, system.place = .settling [] sweepDue →
      (sweepDue || system.server.sweepOverdue) = true →
      ∃ begun evicted, system.step? .advance = some begun ∧ begun.place = .sweeping evicted ∧
        (evicted.map Prod.fst).Nodup ∧
        (∀ fd generation, (fd, generation) ∈ evicted ↔
          (∃ deadline, system.server.timers.Pends (fd, generation) deadline) ∧
            ∃ moment, first.lastActive? actions fd generation = some moment ∧
              moment + settings.idleWindow ≤ system.server.kernel.now) ∧
        (∃ last, begun.run? (List.replicate (evicted.length + 1) .advance) = some last ∧
          (last.place = .waiting ∨ last.place = .stopped)) ∧
        ∀ during after, (∀ events, .deliver events ∉ during) → begun.run? during = some after →
          after.place = .waiting ∨ after.place = .stopped →
          tale evictedBy begun during = evicted ∧
          system.server.Swept after.server evicted ∧
          (∀ fd generation deadline, after.server.timers.Pends (fd, generation) deadline ↔
            system.server.timers.Pends (fd, generation) deadline ∧
              (fd, generation) ∉ evicted) ∧
          ∀ fd generation, after.server.table.tenure? fd = some (.loop, generation) →
            ∃ moment,
              first.lastActive? (actions ++ .advance :: during) fd generation = some moment ∧
              system.server.kernel.now < moment + settings.idleWindow := by
  have reached := Reachable.run (.start launched) ran
  refine ⟨fun action next => evicted_of_step? reached, fun expired => overdue_of_run launched ran,
    fun fd generation rest => drops_of_sweeping reached, fun fd generation closing later last =>
    closing_of_run? reached closing, fun sweepDue position due => ?_⟩
  obtain ⟨begun, stepped, server, place⟩ := begins_of_settling position due
  have began := reached.step stepped
  have nodup := began.timely.nodup_expired
  rw [place] at nodup
  refine ⟨begun, _, stepped, place, nodup, mem_evicted_of_run launched ran, sweep_ends place, ?_⟩
  intro during after undelivered ranDuring ended
  -- Everyone whose timer fired has been met, so the loop's connections have timers again.
  have idle : after.place.expired = [] := by
    rcases ended with waits | stops
    · rw [waits]; rfl
    · rw [stops]; rfl
  have late : begun.place.isLate = true := by rw [place]; rfl
  obtain ⟨expired, swept, timers⟩ := sweeps_of_run? began late undelivered ranDuring
    (.start begun.server) (by rw [place]; exact nodup)
  rw [place, idle, List.append_nil] at expired
  change system.server.beginSweep.1 = _ at expired
  rw [List.nil_append, ← expired, server] at swept
  rw [server] at timers
  refine ⟨expired.symm, ⟨swept.counted, swept.dropped, swept.kept⟩, ?_, ?_⟩
  · intro fd generation deadline
    rw [timers]
    exact pends_beginSweep_of_run launched ran fd generation deadline
  · intro fd generation held
    have whole : first.run? (actions ++ .advance :: during) = some after := by
      rw [run?_append, ran, Option.bind_some]
      exact run?_cons_eq_some.2 ⟨begun, stepped, ranDuring⟩
    obtain ⟨moment, latest, waits⟩ := latest_of_held launched whole idle held
    rw [timers] at waits
    exact ⟨moment, latest, ((reached.timely.sound.pends_tick _ _ _).1 waits).2⟩

/-- Two connections are accepted at once.  One of them sends a byte ten seconds later, which
a worker reads, and after six seconds more the loop wakes up to a sweep. -/
def oneIdleOneActive : List Action :=
  [.outside (.arrive [.connection 7 ⟨.short [10, 0, 0, 1], 4000⟩ [] [],
      .connection 8 ⟨.short [10, 0, 0, 2], 4001⟩ [] []]),
    .deliver [.arrivals], .advance, .advance, .advance, .advance, .advance, .advance,
    .outside (.elapse 10000 []), .outside (.feed 8 [.data [71]] [] []),
    .deliver [.ready 8 ⟨true, false, false⟩], .advance,
    .proceed 0, .proceed 0, .proceed 0, .perform 0, .report 0,
    .advance, .advance, .advance, .advance,
    .outside (.elapse 6000 []), .deliver [], .advance]

/-- The window is fifteen seconds, so the idle connection is evicted and the other is not,
though both were accepted at the same time. -/
theorem idle_eviction_exact_one_of_two :
    ∃ (system begun : System) (evicted : List (Fd × Nat)),
      system.server.kernel.now = 16000 ∧ system.step? .advance = some begun ∧
      begun.place = .sweeping evicted ∧ (7, 1) ∈ evicted ∧ (8, 1) ∉ evicted := by
  have evaluated : ((launch? {} ⟨0, [], []⟩ 0).bind fun first =>
      (first.run? oneIdleOneActive).map fun system =>
        (system.place, system.server.sweepOverdue, system.server.kernel.now)) =
      some (.settling [] false, true, 16000) := by decide +kernel
  have latest : ((launch? {} ⟨0, [], []⟩ 0).map fun first =>
      (first.lastActive? oneIdleOneActive 7 1, first.lastActive? oneIdleOneActive 8 1)) =
      some (some 0, some 10000) := by decide +kernel
  have timer : ((launch? {} ⟨0, [], []⟩ 0).bind fun first =>
      (first.run? oneIdleOneActive).map fun system => system.server.timers.pending? ⟨0, 0⟩) =
      some (some (15000, 7, 1)) := by decide +kernel
  simp only [Option.bind_eq_some_iff, Option.map_eq_some_iff, Prod.mk.injEq] at evaluated
  obtain ⟨first, launched, system, ran, settling, overdue, now⟩ := evaluated
  simp only [launched, ran, Option.bind_some, Option.map_some, Option.some.injEq,
    Prod.mk.injEq] at latest timer
  obtain ⟨idle, active⟩ := latest
  obtain ⟨-, -, -, -, sweeps⟩ := idle_eviction_exact launched ran
  obtain ⟨begun, evicted, stepped, place, -, exact, -⟩ := sweeps false settling (by simp [overdue])
  refine ⟨system, begun, evicted, now, stepped, place, ?_, fun member => ?_⟩
  · exact (exact 7 1).2 ⟨⟨15000, ⟨0, 0⟩, timer⟩, 0, idle, by rw [now]; decide⟩
  · obtain ⟨-, moment, same, due⟩ := (exact 8 1).1 member
    cases active.symm.trans same
    rw [now] at due
    exact absurd due (by decide)

end System

end FileServer
