import FileServer.Proofs.Interleaving.Ownership

/-!
# The turns of the loop are runs of the system

The loop as it is run lets the workers work at fixed moments, in a fixed order,
and up to the point where none can go on.  That is one of the orders in which
loop and workers can follow each other: each turn is a sequence of steps of the
system, from one wait to the next.  So what holds of all systems that can be
reached holds of the server whenever the loop is about to wait.

Between two turns, and wherever a turn calls the workers, no worker is in the
middle of a task's report.  Such a system is calm.
-/

namespace FileServer

/-- A task is carried out by working on the connection and then completing it. -/
theorem Task.run_eq_perform (task : Task) (tree : FileTree) (root : Text) (slot : Slot)
    (shared : Shared) :
    task.run tree root slot shared =
      ((task.perform tree root slot shared).2.1,
        (task.perform tree root slot shared).2.2.complete
          (task.completion (task.perform tree root slot shared).1)) := rfl

namespace Server

/-- Sets the pool. -/
def setPool (server : Server) (pool : Pool Task) : Server :=
  { server with pool }

/-- Work on connections does not depend on the pool. -/
theorem carryOut_setPool (server : Server) (task : Task) (pool : Pool Task) :
    (server.setPool pool).carryOut task = (server.carryOut task).setPool pool := by
  simp only [carryOut, setPool]
  split <;> rfl

theorem foldl_carryOut_setPool (tasks : List Task) (server : Server) (pool : Pool Task) :
    tasks.foldl carryOut (server.setPool pool) = (tasks.foldl carryOut server).setPool pool := by
  induction tasks generalizing server with
  | nil => rfl
  | cons task tasks ih => rw [List.foldl_cons, List.foldl_cons, carryOut_setPool, ih]

end Server

namespace System

/-- A system whose workers all have nothing to report. -/
def calm (server : Server) (place : Place) : System where
  server
  stages := server.pool.workers.map fun _ => .clear
  place

variable {server : Server} {place : Place}

theorem stage_calm {index : Nat} {worker : Worker Task}
    (found : server.pool.workers[index]? = some worker) :
    (calm server place).stages[index]? = some .clear := by
  rw [calm, List.getElem?_map, found]
  rfl

/-! ## Sections of the pool -/

variable {done rest : List (Worker Task)} {queue : Queue Task} {stopped : Bool}

theorem worker_between (server : Server) (done rest : List (Worker Task)) (worker : Worker Task)
    (queue : Queue Task) (stopped : Bool) :
    (server.setPool ⟨queue, done ++ worker :: rest, stopped⟩).pool.workers[done.length]? =
      some worker := by
  simp [Server.setPool]

/-- A worker of a calm system runs a section of the pool. -/
theorem step?_proceed (server : Server) (place : Place) (done rest : List (Worker Task))
    (worker : Worker Task) (queue : Queue Task) (stopped : Bool) :
    (calm (server.setPool ⟨queue, done ++ worker :: rest, stopped⟩) place).step?
        (.proceed done.length) =
      some (calm (server.setPool ⟨(worker.step stopped queue).2,
        done ++ (worker.step stopped queue).1 :: rest, stopped⟩) place) := by
  simp only [step?, proceed?, stage_calm (worker_between server done rest worker queue stopped)]
  simp [calm, Server.setPool, Server.setQueue, Server.setWorker]

theorem Reachable.stepWorker {worker : Worker Task}
    (reached : Reachable (calm (server.setPool ⟨queue, done ++ worker :: rest, stopped⟩) place)) :
    Reachable (calm (server.setPool ⟨(worker.step stopped queue).2,
      done ++ (worker.step stopped queue).1 :: rest, stopped⟩) place) :=
  reached.step (step?_proceed server place done rest worker queue stopped)

theorem Reachable.settleWorker {worker : Worker Task}
    (reached : Reachable (calm (server.setPool ⟨queue, done ++ worker :: rest, stopped⟩) place)) :
    Reachable (calm (server.setPool ⟨(worker.settle stopped queue).2,
      done ++ (worker.settle stopped queue).1 :: rest, stopped⟩) place) :=
  reached.stepWorker.stepWorker.stepWorker

/-- The workers of a calm system run, one after the other, until they can only end
tasks. -/
theorem Reachable.settleWorkers
    (reached : Reachable (calm (server.setPool ⟨queue, done ++ rest, stopped⟩) place)) :
    Reachable (calm (server.setPool ⟨(Pool.settleWorkers stopped rest queue).2,
      done ++ (Pool.settleWorkers stopped rest queue).1, stopped⟩) place) := by
  induction rest generalizing done queue with
  | nil => exact reached
  | cons worker rest ih =>
      have settled := reached.settleWorker
      rw [List.append_cons] at settled
      have others := ih settled
      rwa [List.append_assoc] at others

/-! ## Tasks -/

/-- A worker of a calm system ends its task: it works on the connection, reports,
and wakes the loop. -/
theorem run?_endTask {task : Task} {slot : Slot} (held : server.table.slot? task.fd = some slot)
    (place : Place) (done rest : List (Worker Task)) (queue : Queue Task) (stopped : Bool) :
    (calm (server.setPool ⟨queue, done ++ .busy task :: rest, stopped⟩) place).run?
        [.perform done.length, .report done.length, .wake done.length] =
      some (calm ((server.carryOut task).setPool ⟨queue, done ++ .idle :: rest, stopped⟩)
        place) := by
  have found := worker_between server done rest (.busy task) queue stopped
  simp only [run?, List.foldlM_cons, List.foldlM_nil, step?, perform?, stage_calm found]
  simp [calm, Server.setPool, held, report?, wake?, Server.carryOut, Task.run_eq_perform,
    Server.putSlot, Server.setWorker, Shared.complete]

theorem Reachable.endTask {task : Task}
    (reached : Reachable
      (calm (server.setPool ⟨queue, done ++ .busy task :: rest, stopped⟩) place)) :
    Reachable (calm ((server.carryOut task).setPool ⟨queue, done ++ .idle :: rest, stopped⟩)
      place) := by
  obtain ⟨slot, held, -⟩ := reached.owned.entrusted.slot_of_busy
    (worker_between server done rest (.busy task) queue stopped)
  change server.table.slot? task.fd = some slot at held
  exact reached.run (run?_endTask held place done rest queue stopped)

/-- The workers of a calm system, one after the other, end the tasks that can end. -/
theorem Reachable.releaseWorkers (ready : Task → Bool)
    (reached : Reachable (calm (server.setPool ⟨queue, done ++ rest, stopped⟩) place)) :
    Reachable (calm ((((rest.filterMap Worker.task?).filter ready).foldl Server.carryOut
      server).setPool ⟨queue, done ++ rest.map (Worker.release ready), stopped⟩) place) := by
  induction rest generalizing server done with
  | nil => exact reached
  | cons worker rest ih =>
      -- The workers left are those behind this one, whatever it does.
      have stays : ∀ (server : Server) (next : Worker Task),
          Reachable (calm (server.setPool ⟨queue, done ++ next :: rest, stopped⟩) place) →
          Reachable (calm ((((rest.filterMap Worker.task?).filter ready).foldl Server.carryOut
            server).setPool
              ⟨queue, done ++ next :: rest.map (Worker.release ready), stopped⟩) place) := by
        intro server next reached
        rw [List.append_cons] at reached ⊢
        exact ih reached
      cases worker with
      | busy task =>
          cases ends : ready task with
          | true =>
              have ended := stays _ _ reached.endTask
              simpa [Worker.task?, Worker.release, ends] using ended
          | false =>
              have kept := stays _ _ reached
              simpa [Worker.task?, Worker.release, ends] using kept
      | idle | waiting | granted | stopped => exact stays _ _ reached

/-- Workers that run for some rounds, and the tasks that they end. -/
theorem Reachable.runFor {pool : Pool Task} (ready : Task → Bool) (rounds : Nat)
    (reached : Reachable (calm (server.setPool pool) place)) :
    Reachable (calm (((pool.runFor ready rounds).1.foldl Server.carryOut server).setPool
      (pool.runFor ready rounds).2) place) := by
  induction rounds generalizing server pool with
  | zero => exact reached
  | succ rounds ih =>
      have settled : Reachable (calm (server.setPool pool.settle) place) :=
        @Reachable.settleWorkers server place [] pool.workers pool.queue pool.stopped reached
      have released := @Reachable.releaseWorkers server place [] pool.settle.workers
        pool.settle.queue pool.settle.stopped ready settled
      change Reachable (calm (((pool.settle.running.filter ready).foldl Server.carryOut
        server).setPool (pool.settle.release ready).2) place) at released
      cases ended : pool.settle.running.filter ready with
      | nil =>
          simp only [Pool.runFor, Pool.release, ended]
          exact settled
      | cons task tasks =>
          rw [ended] at released
          simp only [Pool.runFor, Pool.release, ended, List.foldl_append]
          exact ih released

/-- The workers of a calm system do all that they can. -/
theorem Reachable.work (reached : Reachable (calm server place)) :
    Reachable (calm server.work place) := by
  have worked := @Reachable.runFor server place server.pool server.canFinish
    (server.pool.queue.items.length + server.pool.running.length + 1) reached
  rwa [← Server.foldl_carryOut_setPool] at worked

/-! ## Waiting -/

theorem Reachable.outside (reached : Reachable (calm server place)) (circumstance : Circumstance) :
    Reachable (calm (server.after circumstance) place) :=
  @Reachable.step _ _ (.outside circumstance) reached rfl

theorem Reachable.wait (reached : Reachable (calm server place)) (turn : Turn) :
    Reachable (calm (server.wait turn) place) :=
  (reached.outside (.elapse turn.elapsed turn.gates)).work

theorem Reachable.outsideAll (reached : Reachable (calm server place))
    (circumstances : List Circumstance) :
    Reachable (calm (circumstances.foldl Server.after server) place) := by
  induction circumstances generalizing server with
  | nil => exact reached
  | cons circumstance circumstances ih => exact ih (reached.outside circumstance)

end System

/-! ## Delivery -/

/-- What a happening is outside of the loop. -/
def Happening.circumstances : Happening → List Circumstance
  | .arrivals waiting => [.arrive waiting]
  | .signals sent => sent.map .signal
  | .activity fd _ incoming outgoing failing => [.feed fd incoming outgoing failing]

/-- The event that tells a happening. -/
def Happening.event : Happening → Event
  | .arrivals _ => .arrivals
  | .signals _ => .notices
  | .activity fd readiness _ _ _ => .ready fd readiness

namespace Server

/-- Disarms the descriptors whose events are delivered. -/
def disarmAll (server : Server) (events : List Event) : Server :=
  { server with kernel := server.kernel.disarmAll events }

theorem feed_disarm (kernel : Kernel) (fd other : Fd) (incoming : List Receive)
    (outgoing : List Transmit) (failing : List Call) :
    (kernel.disarm fd).feed other incoming outgoing failing =
      (kernel.feed other incoming outgoing failing).disarm fd := by
  cases known : kernel.sockets.contains other with
  | true => simp [Kernel.feed, Kernel.disarm, known]
  | false => simp [Kernel.feed, Kernel.disarm, known]

/-- What happens outside does not depend on what is armed. -/
theorem after_disarmAll (server : Server) (event : Event) (circumstance : Circumstance) :
    (server.disarmAll [event]).after circumstance =
      (server.after circumstance).disarmAll [event] := by
  cases event with
  | arrivals => rfl
  | notices => rfl
  | ready fd readiness =>
      cases circumstance with
      | elapse | arrive | signal => rfl
      | feed other incoming outgoing failing =>
          simp only [after, disarmAll, Kernel.after, Kernel.disarmAll, List.foldl_cons,
            List.foldl_nil, feed_disarm]

theorem foldl_after_disarmAll (server : Server) (event : Event)
    (circumstances : List Circumstance) :
    circumstances.foldl after (server.disarmAll [event]) =
      (circumstances.foldl after server).disarmAll [event] := by
  induction circumstances generalizing server with
  | nil => rfl
  | cons circumstance circumstances ih =>
      rw [List.foldl_cons, List.foldl_cons, after_disarmAll, ih]

/-- Signals are written to the channel in order. -/
theorem foldl_after_signals (signals : List Signal) (server : Server) :
    (signals.map Circumstance.signal).foldl after server =
      { server with shared := signals.foldl Shared.send server.shared } := by
  induction signals generalizing server with
  | nil => rfl
  | cons signal signals ih => rw [List.map_cons, List.foldl_cons, ih]; rfl

theorem deliver_eq (server : Server) (happening : Happening) :
    server.deliver happening =
      (happening.event, (happening.circumstances.foldl after server).disarmAll
        [happening.event]) := by
  cases happening with
  | arrivals arrivals => rfl
  | signals signals =>
      rw [Happening.circumstances, foldl_after_signals]
      rfl
  | activity fd readiness incoming outgoing failing => rfl

/-- A batch is delivered by letting all of it happen and disarming for its
events. -/
theorem deliverAll_eq (happenings : List Happening) (server : Server) :
    deliverAll happenings server =
      (happenings.map Happening.event,
        ((happenings.flatMap Happening.circumstances).foldl after server).disarmAll
          (happenings.map Happening.event)) := by
  induction happenings generalizing server with
  | nil => rfl
  | cons happening happenings ih =>
      simp only [deliverAll, deliver_eq, ih, foldl_after_disarmAll, List.map_cons,
        List.flatMap_cons, List.foldl_append]
      rfl

/-! ## Accepting -/

theorem watch_setArrivals (server : Server) (fd : Fd) (generation : Nat)
    (arrivals : List Arrival) :
    (server.setArrivals arrivals).watch fd generation =
      (server.watch fd generation).map fun next => next.setArrivals arrivals := by
  have registered : (server.setArrivals arrivals).kernel.register? fd .readable =
      (server.kernel.register? fd .readable).map fun kernel => { kernel with arrivals } := by
    change (if server.kernel.fails fd .register || server.kernel.registrations.contains fd then _
      else _) = _
    simp only [Kernel.register?]
    cases server.kernel.fails fd .register || server.kernel.registrations.contains fd <;> rfl
  simp only [watch, registered]
  cases server.kernel.register? fd .readable with
  | none =>
      simp only [Option.map_none, release, setArrivals, Except.map]
      split
      · split <;> rfl
      · rfl
  | some kernel =>
      simp only [Option.map_some, setArrivals]
      split <;> rfl

/-- Which connections wait to be accepted makes no difference to one that is. -/
theorem takeIn_setArrivals (server : Server) (fd : Fd) (peer : Address)
    (arrivals : List Arrival) :
    (server.setArrivals arrivals).takeIn fd peer =
      (server.takeIn fd peer).map fun next => next.setArrivals arrivals := by
  have full : (server.setArrivals arrivals).isFull fd = server.isFull fd := rfl
  have fails : (server.setArrivals arrivals).kernel.fails fd .setNonblocking =
      server.kernel.fails fd .setNonblocking := rfl
  have table : (server.setArrivals arrivals).table = server.table := rfl
  simp only [takeIn, full, fails, table]
  cases server.isFull fd with
  | true => rfl
  | false =>
      cases server.kernel.fails fd .setNonblocking with
      | true => rfl
      | false =>
          cases server.table.open? fd peer with
          | none => rfl
          | some opened => exact watch_setArrivals { server with table := opened.2 } fd _ arrivals

end Server

namespace System

variable {server next last : Server} {place after : Place} {events : List Event} {due : Bool}

/-- In a calm system the loop takes a step that leaves the workers as they are. -/
theorem Reachable.advance (reached : Reachable (calm server place))
    (workers : next.pool.workers = server.pool.workers)
    (stepped : (calm server place).advance? =
      some { calm server place with server := next, place := after }) :
    Reachable (calm next after) := by
  have advanced := @Reachable.step _ _ .advance reached stepped
  rwa [calm, ← workers] at advanced

/-- In a calm system the loop accepts a connection. -/
theorem advance?_accept {fd : Fd} {peer : Address} {outgoing : List Transmit}
    {failing : List Call} {rest : List Arrival}
    (taken : Server.takeIn { server with
      kernel := server.kernel.openSocket fd outgoing failing } fd peer = .ok next) :
    (calm (server.setArrivals (.connection fd peer outgoing failing :: rest))
      (.accepting events due)).advance? =
        some { calm (server.setArrivals (.connection fd peer outgoing failing :: rest))
          (.accepting events due) with server := next.setArrivals rest } := by
  have same := Server.takeIn_setArrivals
    { server with kernel := server.kernel.openSocket fd outgoing failing } fd peer rest
  rw [taken] at same
  simp only [Except.map, Server.setArrivals, Kernel.openSocket] at same
  simp only [advance?, accept?, calm, Server.setArrivals, Kernel.openSocket, same]

/-- New connections are accepted one by one. -/
theorem Reachable.takeInAll {arrivals left : List Arrival}
    (reached : Reachable (calm (server.setArrivals arrivals) (.accepting events due)))
    (taken : Server.takeInAll arrivals server = .ok (left, last)) :
    Reachable (calm (last.setArrivals left) (.serving events due)) := by
  induction arrivals generalizing server with
  | nil =>
      cases taken
      exact reached.advance rfl rfl
  | cons arrival rest ih =>
      cases arrival with
      | failure kind =>
          cases kind with
          | interrupted => exact ih (reached.advance rfl rfl) taken
          | _ =>
              cases taken
              exact reached.advance rfl rfl
      | connection fd peer outgoing failing =>
          simp only [Server.takeInAll] at taken
          split at taken
          · next opened tookIn =>
              refine ih (reached.advance ?_ (advance?_accept tookIn)) taken
              have confined := (Server.takeIn_spec tookIn).1
              exact congrArg Pool.workers confined.pool
          · cases taken

theorem Reachable.handle {event : Event} {sweep : Bool}
    (reached : Reachable (calm server (.serving (event :: events) due)))
    (handled : server.handle event = .ok (sweep, next)) :
    Reachable (calm next (.serving events (due || sweep))) := by
  cases event with
  | arrivals =>
      have accepting : Reachable (calm (server.setArrivals server.kernel.arrivals)
          (.accepting events due)) := reached.advance rfl rfl
      simp only [Server.handle, Server.handleArrivals] at handled
      split at handled
      · next left last taken =>
          cases handled
          rw [Bool.or_false]
          exact accepting.takeInAll taken
      · cases handled
  | notices =>
      simp only [Server.handle, Except.ok.injEq] at handled
      have confined := Server.confined_handleNotices server 0
      rw [handled] at confined
      refine reached.advance (congrArg Pool.workers confined.pool) ?_
      simp only [advance?, calm, Server.handle, handled]
  | ready fd readiness =>
      obtain ⟨-, acted⟩ := Server.handleReady_of_handle handled
      refine reached.advance (Server.workers_handleReady acted) ?_
      simp only [advance?, calm, handled]

/-- A batch of events is handled. -/
theorem Reachable.handleAll {sweep : Bool}
    (reached : Reachable (calm server (.serving events due)))
    (handled : Server.handleAll events server = .ok (sweep, last)) :
    Reachable (calm last (.serving [] (due || sweep))) := by
  induction events generalizing server due sweep with
  | nil =>
      cases handled
      rwa [Bool.or_false]
  | cons event events ih =>
      simp only [Server.handleAll] at handled
      split at handled
      · cases handled
      · next first next acted =>
          obtain ⟨⟨later, rest⟩, others, same⟩ := exists_of_map_eq_ok handled
          cases same
          rw [← Bool.or_assoc]
          exact ih (reached.handle acted) others

/-- Completions that were taken are acted on. -/
theorem Reachable.settleCompletions {completions : List Completion}
    (reached : Reachable (calm server (.settling completions due))) :
    Reachable (calm (completions.foldl Server.handleCompletion server) (.settling [] due)) := by
  induction completions generalizing server with
  | nil => exact reached
  | cons done rest ih =>
      refine ih (reached.advance ?_ rfl)
      have member : done.task ∈ (calm server (.settling (done :: rest) due)).units := by
        simp [units, System.completions, calm, Place.taken]
      have confined := (Server.handleCompletion_spec (reached.owned.lent_of_mem member)).1
      exact congrArg Pool.workers confined.pool

/-- Timers that have fired are acted on. -/
theorem Reachable.evictAll {expired : List (Fd × Nat)}
    (reached : Reachable (calm server (.sweeping expired))) :
    Reachable (calm (expired.foldl Server.evict server) (.sweeping [])) := by
  induction expired generalizing server with
  | nil => exact reached
  | cons timer rest ih =>
      refine ih (reached.advance ?_ rfl)
      exact congrArg Pool.workers (Server.confined_evict server timer.1 timer.2).pool

/-- Where a turn ends: the loop waits again unless a stop was asked for. -/
def restingPlace (server : Server) : Place :=
  if server.stopping then .stopped else .waiting

theorem Reachable.endSweep (reached : Reachable (calm server (.sweeping []))) :
    Reachable (calm server.endSweep (restingPlace server.endSweep)) :=
  reached.advance rfl rfl

/-- A turn that ends with a sweep. -/
theorem Reachable.sweep (sweeps : (due || server.sweepOverdue) = true)
    (reached : Reachable (calm server (.settling [] due))) :
    Reachable (calm server.sweep (restingPlace server.sweep)) := by
  have begun : Reachable (calm server.beginSweep.2 (.sweeping server.beginSweep.1)) := by
    refine reached.advance rfl ?_
    simp only [advance?, calm, sweeps, ↓reduceIte]
  rw [Server.sweep_eq]
  exact begun.evictAll.endSweep

theorem Reachable.endTurn (sweeps : (due || server.sweepOverdue) = false)
    (reached : Reachable (calm server (.settling [] due))) :
    Reachable (calm server (restingPlace server)) := by
  refine reached.advance rfl ?_
  simp only [advance?, calm, sweeps]
  rfl

theorem Reachable.settle (reached : Reachable (calm server (.serving [] due))) :
    Reachable (calm (server.settle due) (restingPlace (server.settle due))) := by
  have taken : Reachable (calm
      { server.work with shared := server.work.shared.takeCompletions.2 }
      (.settling server.work.shared.takeCompletions.1 due)) := reached.work.advance rfl rfl
  have drained : Reachable (calm server.work.drainCompletions (.settling [] due)) :=
    taken.settleCompletions
  simp only [Server.settle]
  split
  · next sweeps => exact drained.sweep sweeps
  · next quiet => exact drained.endTurn (Bool.not_eq_true _ ▸ quiet)

/-! ## Runs -/

theorem Reachable.takeEvents {happenings : List Happening} {ending : TurnEnd}
    (reached : Reachable (calm server .waiting))
    (taken : server.takeEvents happenings = .ok (ending, next)) :
    ending = (if next.stopping then .stopped else .goesOn) ∧
      Reachable (calm next (restingPlace next)) := by
  simp only [Server.takeEvents, Server.deliverAll_eq] at taken
  split at taken
  · cases taken
  · next sweepDue handled acted =>
      cases taken
      refine ⟨rfl, Reachable.settle ?_⟩
      have happened := reached.outsideAll (happenings.flatMap Happening.circumstances)
      have delivered : Reachable (calm
          (((happenings.flatMap Happening.circumstances).foldl Server.after server).disarmAll
            (happenings.map Happening.event))
          (.serving (happenings.map Happening.event) false)) :=
        @Reachable.step _ _ (.deliver (happenings.map Happening.event)) happened rfl
      have served := delivered.handleAll acted
      rwa [Bool.false_or] at served

/-- A turn that the loop goes on after is a run of the system from one wait to the
next. -/
theorem Reachable.turn {turn : Turn} (reached : Reachable (calm server .waiting))
    (turned : server.turn turn = .ok (.goesOn, next)) : Reachable (calm next .waiting) := by
  have events {happenings : List Happening}
      (taken : (server.wait turn).takeEvents happenings = .ok (.goesOn, next)) :
      Reachable (calm next .waiting) := by
    obtain ⟨ending, rested⟩ := (reached.wait turn).takeEvents taken
    cases stopping : next.stopping with
    | true => simp [stopping] at ending
    | false => simpa [restingPlace, stopping] using rested
  simp only [Server.turn] at turned
  split at turned
  · exact events turned
  · exact events turned
  · cases turned

/-- Each wait of a run is a wait of the system. -/
theorem Reachable.runTurns {turns : List Turn} {run : Run}
    (reached : Reachable (calm server .waiting))
    (ran : Server.runTurns turns server = .ok run) :
    ∀ state ∈ run.states, Reachable (calm state .waiting) := by
  induction turns generalizing server run with
  | nil =>
      cases ran
      intro state member
      cases member
  | cons turn turns ih =>
      simp only [Server.runTurns] at ran
      split at ran
      · cases ran
      · next next turned =>
          have rested := reached.turn turned
          obtain ⟨rest, others, rfl⟩ := exists_of_map_eq_ok ran
          intro state member
          rcases List.mem_cons.1 member with rfl | later
          · exact rested
          · exact ih rested others state later
      · cases ran
        intro state member
        cases member

/-- Whenever the loop of a server is about to wait, the server is one that the
system comes to. -/
theorem reachable_run {settings : Settings} {tree : FileTree} {now : Nat} {turns : List Turn}
    {run : Run}
    (created : Server.create settings tree { now, forgetsClosed := true } = .ok server)
    (ran : server.run turns = .ok run) :
    ∀ state ∈ run.states, Reachable (calm state .waiting) := by
  refine (@Reachable.start settings tree now _ ?_).runTurns ran
  simp only [launch?, created]
  rfl

end System

end FileServer
