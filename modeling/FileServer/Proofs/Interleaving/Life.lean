import FileServer.Proofs.Idle.Schedule
import FileServer.Proofs.Interleaving.Activity
import FileServer.Proofs.Interleaving.Marks
import FileServer.Proofs.Interleaving.Sockets

/-!
# The server up to its end

After the turn in which a stop was asked for, the loop closes everything in order.  It
stops the alarm clock and the pool, drops the completions, closes the connections one by
one, and clears the timers.  Stopping the pool takes some sections, and until the last
worker has stopped the workers go on side by side with the loop; tasks that wait are
dropped, those in their hands still come to their end and leave completions.

A life is a system together with how far the loop has come with this.  What holds of it
while the loop runs is known.  Afterwards no completion is acted on any more, so that a
connection may stay lent for ever; but its timer, its place in the counters and its socket
are those of a connection all the same until it is closed.
-/

namespace FileServer

/-- How far the loop has come with closing everything. -/
inductive Ending where
  /-- The loop runs, or has just ended. -/
  | unbegun
  /-- The alarm clock is stopped. -/
  | disarmed
  /-- The workers are told to stop. -/
  | flagged
  /-- The queue of the pool is closed. -/
  | shut
  /-- The queue is emptied, and so many workers are known to have stopped. -/
  | joining (count : Nat)
  /-- There are no workers any more. -/
  | joined
  /-- The completions are dropped, and these connections are still to be closed. -/
  | closing (fds : List Fd)
  /-- Everything is closed. -/
  | returned
  deriving DecidableEq, Repr

namespace Ending

/-- Whether the workers are told to stop. -/
@[simp] def hasFlagged : Ending → Bool
  | .unbegun | .disarmed => false
  | .flagged | .shut | .joining _ | .joined | .closing _ | .returned => true

/-- Whether the queue of the pool is emptied. -/
@[simp] def hasDrained : Ending → Bool
  | .joining _ | .joined | .closing _ | .returned => true
  | .unbegun | .disarmed | .flagged | .shut => false

/-- Whether the workers are gone. -/
@[simp] def hasJoined : Ending → Bool
  | .joined | .closing _ | .returned => true
  | .unbegun | .disarmed | .flagged | .shut | .joining _ => false

end Ending

/-- The server in the middle of a turn, or of closing everything after the last one. -/
structure Life where
  system : System
  ending : Ending

namespace Life

/-- A server that has not begun to close anything. -/
def ofSystem (system : System) : Life :=
  ⟨system, .unbegun⟩

/-- The loop has changed the server and come further. -/
def goOn (life : Life) (server : Server) (ending : Ending) : Life :=
  ⟨{ life.system with server }, ending⟩

/-- The loop has ended and takes its next step.  A pool that was told to stop before is
left alone, and a worker that has not stopped is waited for. -/
def conclude? (life : Life) : Option Life :=
  let server := life.system.server
  match life.ending with
  | .unbegun => some (life.goOn { server with kernel := server.kernel.setAlarm 0 } .disarmed)
  | .disarmed =>
      if server.pool.stopped then
        some (life.goOn server .joined)
      else
        some (life.goOn { server with pool := { server.pool with stopped := true } } .flagged)
  | .flagged => some (life.goOn (server.setQueue server.pool.queue.close) .shut)
  | .shut => some (life.goOn (server.setQueue server.pool.queue.drain.2) (.joining 0))
  | .joining count =>
      match server.pool.workers[count]? with
      | some .stopped => some (life.goOn server (.joining (count + 1)))
      | some _ => none
      | none =>
          some ⟨{ life.system with
            server := { server with pool := { server.pool with workers := [] } }
            stages := [] }, .joined⟩
  | .joined =>
      some (life.goOn { server with shared := server.shared.takeCompletions.2 }
        (.closing server.table.openFds))
  | .closing (fd :: rest) => some (life.goOn (server.closeNow fd) (.closing rest))
  | .closing [] =>
      some (life.goOn { server with timers := server.timers.clear, timerIds := .empty } .returned)
  | .returned => none

/-- The life after an action.  What the loop does depends on whether it has ended. -/
def step? (life : Life) : Action → Option Life
  | .advance =>
      if life.system.place = .stopped then
        life.conclude?
      else
        life.system.advance?.map fun system => { life with system }
  | action => (life.system.step? action).map fun system => { life with system }

/-- The life after a sequence of actions. -/
def run? (life : Life) (actions : List Action) : Option Life :=
  actions.foldlM step? life

theorem run?_cons_eq_some {life last : Life} {action : Action} {actions : List Action} :
    life.run? (action :: actions) = some last ↔
      ∃ next, life.step? action = some next ∧ next.run? actions = some last := by
  rw [run?, List.foldlM_cons]
  exact Option.bind_eq_some_iff

theorem eq_of_run?_nil {life last : Life} (ran : life.run? [] = some last) : last = life :=
  (Option.some.inj ran).symm

theorem run?_append {life : Life} (front back : List Action) :
    life.run? (front ++ back) = (life.run? front).bind fun middle => middle.run? back :=
  List.foldlM_append

/-- What the actions of a run tell, in order. -/
def tale {β : Type} (tells : Life → Action → List β) : Life → List Action → List β
  | _, [] => []
  | life, action :: rest =>
      tells life action ++
        match life.step? action with
        | some next => tale tells next rest
        | none => []

/-- The loop that has ended closes a connection, or it leaves connections, sockets and counters
alone. -/
theorem conclude?_cases {life next : Life} (concluded : life.conclude? = some next) :
    next.system.place = life.system.place ∧
      ((∃ fd, next.system.server = life.system.server.closeNow fd) ∨
        next.system.server.table = life.system.server.table ∧
          next.system.server.kernel.history.closed = life.system.server.kernel.history.closed ∧
          next.system.server.shared.counters = life.system.server.shared.counters) := by
  cases ending : life.ending with
  | closing fds =>
      cases fds with
      | nil =>
          simp only [conclude?, ending] at concluded
          cases concluded
          exact ⟨rfl, .inr ⟨rfl, rfl, rfl⟩⟩
      | cons fd rest =>
          simp only [conclude?, ending] at concluded
          cases concluded
          exact ⟨rfl, .inl ⟨fd, rfl⟩⟩
  | unbegun | flagged | shut | joined =>
      simp only [conclude?, ending] at concluded
      cases concluded
      exact ⟨rfl, .inr ⟨rfl, rfl, rfl⟩⟩
  | disarmed | joining count =>
      simp only [conclude?, ending] at concluded
      split at concluded <;> cases concluded <;> exact ⟨rfl, .inr ⟨rfl, rfl, rfl⟩⟩
  | returned => simp [conclude?, ending] at concluded

/-- What a step of a life is: a step of the system, or one of the loop that has ended. -/
inductive Steps (life : Life) (action : Action) : Life → Prop
  | runs {next : System} (goesOn : action = .advance → life.system.place ≠ .stopped)
      (stepped : life.system.step? action = some next) :
      Steps life action { life with system := next }
  | concludes {next : Life} (loops : action = .advance) (ended : life.system.place = .stopped)
      (concluded : life.conclude? = some next) : Steps life action next

theorem steps_of_step? {life next : Life} {action : Action}
    (stepped : life.step? action = some next) : life.Steps action next := by
  cases action with
  | advance =>
      simp only [step?] at stepped
      split at stepped
      · next ended => exact .concludes rfl ended stepped
      · next running =>
          obtain ⟨system, advanced, rfl⟩ := Option.map_eq_some_iff.1 stepped
          exact .runs (fun _ => running) advanced
  | outside | proceed | perform | report | wake | deliver =>
      simp only [step?, Option.map_eq_some_iff] at stepped
      obtain ⟨system, moved, rfl⟩ := stepped
      exact .runs nofun moved

end Life

namespace Slots

variable {before after : Slots} {fd : Fd}

/-- Custody and loan of a descriptor follow from who has which connection of it. -/
theorem custody_of_tenure (same : after.tenure? fd = before.tenure? fd) :
    after.custody fd = before.custody fd := by
  have firsts := congrArg (Option.map Prod.fst) same
  simp only [tenure?, Option.map_map] at firsts
  exact congrArg (Option.getD · Custody.free) firsts

theorem lent_of_tenure (same : after.tenure? fd = before.tenure? fd) :
    after.lent fd = before.lent fd := by
  have lent (table : Slots) : table.lent fd = (table.tenure? fd).bind fun tenure =>
      Slot.task? fd ⟨tenure.1, tenure.2, .fresh⟩ := by
    simp only [Slots.lent, tenure?, Option.bind_map]
    rfl
  rw [lent, lent, same]

end Slots

namespace System

variable {system next : System} {action : Action}

/-! ## The workers on their own -/

/-- What is left as it is while the loop does nothing: connections do not change hands, the
books stay in order, and tasks become fewer. -/
structure Labours (before after : System) : Prop where
  place : after.place = before.place
  tenure : ∀ fd, after.server.table.tenure? fd = before.server.table.tenure? fd
  ledger : after.server.ledger = { before.server.ledger with table := after.server.table }
  tasks : ∀ task ∈ after.tasks, task ∈ before.tasks
  items : ∀ task ∈ after.server.pool.queue.items, task ∈ before.server.pool.queue.items
  workers : after.server.pool.workers.length = before.server.pool.workers.length
  stopped : after.server.pool.stopped = before.server.pool.stopped

theorem Labours.of_same (place : next.place = system.place)
    (ledger : next.server.ledger = system.server.ledger)
    (pool : next.server.pool = system.server.pool) : system.Labours next where
  place := place
  tenure fd := congrArg (fun ledger => ledger.table.tenure? fd) ledger
  ledger := by
    have table : next.server.table = system.server.table := congrArg Ledger.table ledger
    rw [ledger, table]
    rfl
  tasks task member := by rwa [System.tasks, pool] at member
  items task member := by rwa [pool] at member
  workers := by rw [pool]
  stopped := by rw [pool]

/-- Whatever happens while the loop neither waits nor takes a step. -/
theorem labours_of_other (awake : system.place ≠ .waiting) (other : action ≠ .advance)
    (stepped : system.step? action = some next) : system.Labours next := by
  cases action with
  | advance => exact (other rfl).elim
  | outside circumstance =>
      cases stepped
      cases circumstance <;> exact .of_same rfl rfl rfl
  | wake worker =>
      simp only [step?, wake?] at stepped
      split at stepped
      · cases stepped
        exact .of_same rfl rfl rfl
      · cases stepped
  | deliver events =>
      simp only [step?, deliver?] at stepped
      cases stepped
  | perform worker =>
      have rests := (rests_of_step? other stepped).1
      obtain ⟨task, slot, busy, clear, found, rfl⟩ := perform?_eq_some stepped
      refine ⟨rfl, rests.tenure, ?_, fun _ => id, fun _ => id, rfl, rfl⟩
      simp only [Server.ledger, Task.perform]
      split <;> rfl
  | proceed worker =>
      have tasks := tasks_of_proceed? stepped
      simp only [step?, proceed?] at stepped
      split at stepped
      · next worker present clear =>
          cases stepped
          have items := Worker.items_step system.server.pool.stopped system.server.pool.queue worker
          exact ⟨rfl, fun _ => rfl, rfl, fun _ member => tasks.subset member,
            fun _ member => items.subset member, List.length_set .., rfl⟩
      · cases stepped
  | report worker =>
      obtain ⟨task, outcome, tasks, -⟩ := tasks_of_report? stepped
      simp only [step?, report?] at stepped
      split at stepped
      · cases stepped
        exact ⟨rfl, fun _ => rfl, rfl,
          fun _ member => tasks.symm.subset (List.mem_cons_of_mem task member), fun _ => id,
          List.length_set .., rfl⟩
      · cases stepped

/-- Nobody tells the pool to stop while the loop runs. -/
theorem Reachable.unstopped (reached : Reachable system) :
    system.server.pool.stopped = false := by
  induction reached with
  | start launched =>
      obtain ⟨-, rfl⟩ := launch?_eq_some launched
      rfl
  | step earlier stepped ih =>
      cases leavesMarks_of_step? earlier.owned stepped with
      | none same => exact (congrArg Marks.poolStopped same).trans ih
      | reads _ marks | works _ _ marks | sends _ _ _ _ marks =>
          exact (congrArg Marks.poolStopped marks).trans ih

end System

/-! ## Closing everything -/

/-- A list of timers that was in order is empty after it was cleared. -/
theorem Timers.Sound.keeps_clear {α : Type} {timers : Timers α} (sound : timers.Sound) :
    timers.clear.Keeps [] := by
  obtain ⟨order, keeps⟩ := sound
  obtain ⟨next, cleared, empty, -⟩ := keeps.clear
  rwa [Timers.clear, cleared, Option.getD_some]

theorem Timers.Keeps.get?_of_nil {α : Type} {timers : Timers α} (empty : timers.Keeps [])
    (id : TimerId) : timers.get? id = none := by
  rw [Timers.get?_eq, Timers.pending?_of_vacant (empty.vacant List.not_mem_nil), Option.map_none]

namespace Life

variable {life next : Life} {action : Action} {limit : Nat}

/-- Nothing is left of the connections. -/
structure Closed (server : Server) : Prop where
  custody : ∀ fd, server.table.custody fd = .free
  timers : server.timers.schedule? = some [] ∧ server.timers.size = 0
  timerIds : server.timerIds = .empty

/-- The loop has ended and is closing everything.  Timers and counters are those of the
connections that are left, and each of these is still to be closed. -/
structure Closes (limit : Nat) (life : Life) : Prop where
  place : life.system.place = .stopped
  timely : life.system.Timely
  balanced : life.system.server.ledger.Balanced limit
  entrusted : life.system.Entrusted
  unstopped : life.ending.hasFlagged = false → life.system.server.pool.stopped = false
  drained : life.ending.hasDrained = true → life.system.server.pool.queue.items = []
  joined : life.ending.hasJoined = true → life.system.server.pool.workers = []
  left : ∀ fds, life.ending = .closing fds →
    ∀ fd, life.system.server.table.custody fd ≠ .free → fd ∈ fds
  closed : life.ending = .returned → Closed life.system.server

/-- What a life has come to: the loop runs, or it has ended and everything is being
closed. -/
inductive Reached (limit : Nat) (life : Life) : Prop
  | runs (ending : life.ending = .unbegun) (reached : System.Reachable life.system)
      (balanced : life.system.server.ledger.Balanced limit)
  | closes (closes : life.Closes limit)

theorem reached_launch {settings : Settings} {tree : FileTree} {now : Nat} {first : System}
    (launched : System.launch? settings tree now = some first) :
    (ofSystem first).Reached settings.maxConnections :=
  .runs rfl (.start launched) (System.balanced_launch launched)

/-- Where the loop has just ended everything is as it was while it ran. -/
theorem closes_of_ended (ending : life.ending = .unbegun) (ended : life.system.place = .stopped)
    (reached : System.Reachable life.system)
    (balanced : life.system.server.ledger.Balanced limit) : life.Closes limit where
  place := ended
  timely := reached.timely
  balanced := balanced
  entrusted := reached.owned.entrusted
  unstopped _ := reached.unstopped
  drained drained := by simp [ending, Ending.hasDrained] at drained
  joined joined := by simp [ending, Ending.hasJoined] at joined
  left fds closing := by simp [ending] at closing
  closed returned := by simp [ending] at returned

/-- Workers go on while everything is being closed. -/
theorem Closes.labours {after : System} (closes : life.Closes limit)
    (labours : life.system.Labours after) (moves : life.system.Moves after) :
    { life with system := after }.Closes limit := by
  have timers : after.server.timers = life.system.server.timers :=
    congrArg Ledger.timers labours.ledger
  have timerIds : after.server.timerIds = life.system.server.timerIds :=
    congrArg Ledger.timerIds labours.ledger
  have custody (fd : Fd) := Slots.custody_of_tenure (labours.tenure fd)
  refine ⟨labours.place.trans closes.place, closes.timely.of_moves moves,
    closes.timely.balanced_of_moves closes.balanced moves, ?_, ?_, ?_, ?_, ?_, ?_⟩
  · intro task member
    rw [Slots.lent_of_tenure (labours.tenure task.fd)]
    exact closes.entrusted task (labours.tasks task member)
  · exact fun unflagged => labours.stopped.trans (closes.unstopped unflagged)
  · intro drained
    rw [List.eq_nil_iff_forall_not_mem]
    intro task member
    have before := labours.items task member
    rw [closes.drained drained] at before
    cases before
  · intro joined
    have none := labours.workers
    rw [closes.joined joined] at none
    exact List.length_eq_zero_iff.1 none
  · intro fds closing fd used
    exact closes.left fds closing fd (custody fd ▸ used)
  · intro returned
    have closed := closes.closed returned
    exact ⟨fun fd => (custody fd).trans (closed.custody fd), timers ▸ closed.timers,
      timerIds ▸ closed.timerIds⟩

/-- A step of the loop that only concerns the alarm clock, the pool or the completions. -/
theorem Closes.aside {after : System} {ending : Ending} (closes : life.Closes limit)
    (place : after.place = life.system.place)
    (ledger : after.server.ledger = life.system.server.ledger)
    (tasks : ∀ task ∈ after.tasks, task ∈ life.system.tasks)
    (unstopped : ending.hasFlagged = false → after.server.pool.stopped = false)
    (drained : ending.hasDrained = true → after.server.pool.queue.items = [])
    (joined : ending.hasJoined = true → after.server.pool.workers = [])
    (left : ∀ fds, ending = .closing fds →
      ∀ fd, life.system.server.table.custody fd ≠ .free → fd ∈ fds)
    (unfinished : ending ≠ .returned) : (Life.mk after ending).Closes limit := by
  have table : after.server.table = life.system.server.table := congrArg Ledger.table ledger
  have still : life.system.Moves after := .still ledger (by rw [place])
  refine ⟨place.trans closes.place, closes.timely.of_moves still, ledger ▸ closes.balanced, ?_,
    unstopped, drained, joined, ?_, fun returned => (unfinished returned).elim⟩
  · intro task member
    rw [table]
    exact closes.entrusted task (tasks task member)
  · intro fds closing fd used
    exact left fds closing fd (table ▸ used)

/-- A connection is closed. -/
theorem Closes.closeNow {fd : Fd} {rest : List Fd} (closes : life.Closes limit)
    (ending : life.ending = .closing (fd :: rest)) :
    (life.goOn (life.system.server.closeNow fd) (.closing rest)).Closes limit := by
  have idle : life.system.place.expired = [] := by
    rw [closes.place]
    rfl
  have confined := Server.confined_closeNow life.system.server fd
  have drained := closes.drained (by rw [ending]; rfl)
  have joined := closes.joined (by rw [ending]; rfl)
  have keeps : (life.system.server.closeNow fd).ledger.Balanced limit ∧
      Ledger.KeepsTime fd life.system.server.ledger (life.system.server.closeNow fd).ledger := by
    by_cases used : life.system.server.table.custody fd = .free
    · rw [Server.closeNow, if_pos used]
      exact ⟨closes.balanced, .refl fd _⟩
    · have time := Server.keepsTime_closeNow used
      exact ⟨closes.timely.balanced_of_keeps idle closes.balanced rfl time
        (Server.keepsBooks_closeNow used), time⟩
  refine ⟨closes.place, closes.timely.of_keepsTime idle idle keeps.2, keeps.1, ?_,
    by simp [goOn], ?_, ?_, ?_, by simp [goOn]⟩
  · intro task member
    -- There is none left.
    simp [System.tasks, goOn, Pool.running, confined.pool, drained, joined] at member
  · exact fun _ => (congrArg (fun pool => pool.queue.items) confined.pool).trans drained
  · exact fun _ => (congrArg Pool.workers confined.pool).trans joined
  · intro fds same other used
    cases same
    by_cases mine : other = fd
    · subst mine
      exact (used (Server.custody_closeNow _ other)).elim
    · have custody : (life.system.server.closeNow fd).table.custody other =
          life.system.server.table.custody other := by
        rw [Slots.custody, (confined.leaves other mine).slot, ← Slots.custody]
      have member := closes.left (fd :: rest) ending other (custody ▸ used)
      exact (List.mem_cons.1 member).resolve_left mine

/-- The timers are cleared after the last connection. -/
theorem Closes.clear (closes : life.Closes limit) (ending : life.ending = .closing []) :
    (life.goOn { life.system.server with
      timers := life.system.server.timers.clear
      timerIds := .empty } .returned).Closes limit := by
  have free (fd : Fd) : life.system.server.table.custody fd = .free := by
    by_contra used
    cases closes.left [] ending fd used
  have empty := closes.timely.sound.keeps_clear
  refine ⟨closes.place, ⟨⟨[], empty⟩, fun fd => .inl ⟨?_, ?_⟩⟩, ?_, closes.entrusted,
    by simp [goOn], fun _ => closes.drained (by rw [ending]; rfl),
    fun _ => closes.joined (by rw [ending]; rfl), by simp [goOn],
    fun _ => ⟨free, ⟨empty.schedule?, empty.stocked.size⟩, rfl⟩⟩
  · simp [System.fired, goOn, closes.place, Place.expired]
  · refine Ledger.Untimed.timed ⟨rfl, fun id generation => ?_⟩ (.inl (free fd))
    exact (empty.get?_of_nil id).trans_ne (by simp)
  · obtain ⟨settings, regular, accepted, live, bounded, once⟩ := closes.balanced
    refine ⟨settings, regular, accepted, live, bounded, ?_⟩
    have none (ledger : Ledger) (same : ledger.table = life.system.server.table)
        (regular : ledger.table.Regular) : ledger.forsakenFds = [] := by
      rw [List.eq_nil_iff_forall_not_mem]
      intro fd member
      have closing := ((Ledger.mem_forsakenFds regular).1 member).1
      rw [same, free fd] at closing
      cases closing
    rw [none _ rfl regular] at once
    exact Nat.le_trans once (Nat.le_add_right _ _)

theorem Closes.conclude? (closes : life.Closes limit) (concluded : life.conclude? = some next) :
    next.Closes limit := by
  simp only [Life.conclude?] at concluded
  split at concluded
  · next ending =>
      cases concluded
      exact closes.aside rfl rfl (fun _ => id)
        (fun _ => closes.unstopped (by rw [ending]; rfl)) (by simp) (by simp) (by simp) (by simp)
  · next ending =>
      have unstopped := closes.unstopped (by rw [ending]; rfl)
      rw [if_neg (by simp [unstopped])] at concluded
      cases concluded
      exact closes.aside rfl rfl (fun _ => id) (by simp) (by simp) (by simp) (by simp) (by simp)
  · next ending =>
      cases concluded
      exact closes.aside rfl rfl (fun _ => id) (by simp) (by simp) (by simp) (by simp) (by simp)
  · next ending =>
      cases concluded
      refine closes.aside rfl rfl ?_ (by simp) (fun _ => rfl) (by simp) (by simp) (by simp)
      intro task member
      simpa [System.tasks, Server.setQueue, Queue.drain, Pool.running] using Or.inr member
  · next count ending =>
      have drained := closes.drained (by rw [ending]; rfl)
      split at concluded
      · cases concluded
        exact closes.aside rfl rfl (fun _ => id) (by simp) (fun _ => drained) (by simp) (by simp)
          (by simp)
      · cases concluded
      · cases concluded
        refine closes.aside rfl rfl ?_ (by simp) (fun _ => drained) (fun _ => rfl) (by simp)
          (by simp)
        intro task member
        simp [System.tasks, Pool.running, drained] at member
  · next ending =>
      have drained := closes.drained (by rw [ending]; rfl)
      have joined := closes.joined (by rw [ending]; rfl)
      cases concluded
      refine closes.aside rfl rfl (fun _ => id) (by simp) (fun _ => drained) (fun _ => joined) ?_
        (by simp)
      intro fds same fd used
      cases same
      exact (Ledger.mem_openFds closes.balanced.regular).2 used
  · next fd rest ending =>
      cases concluded
      exact closes.closeNow ending
  · next ending =>
      cases concluded
      exact closes.clear ending
  · cases concluded

theorem Reached.step? (reached : life.Reached limit) (stepped : life.step? action = some next) :
    next.Reached limit := by
  cases steps_of_step? stepped with
  | @runs after goesOn moved =>
      cases reached with
      | runs ending reached balanced =>
          have moves := System.Moves.of_step? reached.owned moved
          exact .runs ending (reached.step moved) (reached.timely.balanced_of_moves balanced moves)
      | closes closes =>
          have other : action ≠ .advance := fun loops => goesOn loops closes.place
          have awake : life.system.place ≠ .waiting := by simp [closes.place]
          exact .closes (closes.labours (System.labours_of_other awake other moved)
            (.of_other closes.entrusted other moved))
  | concludes loops ended concluded =>
      cases reached with
      | runs ending reached balanced =>
          exact .closes ((closes_of_ended ending ended reached balanced).conclude? concluded)
      | closes closes => exact .closes (closes.conclude? concluded)

end Life

end FileServer
