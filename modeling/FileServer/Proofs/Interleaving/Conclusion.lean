import FileServer.Proofs.Interleaving.CleanShutdown
import FileServer.Proofs.Interleaving.Turns
import FileServer.Proofs.Work.Calls

/-!
# The end of a run is the end of a life

The server as it is run closes everything in one go: the pool is stopped, the tasks in the
hands of its workers come to their end one after the other, and then the connections are
closed.  This is one of the orders in which the loop can come to its end while the workers
go on, so what holds of all lives holds of what is left after a run.
-/

namespace FileServer

/-- A worker without a task stops as soon as the pool is told to and has no task left. -/
theorem Worker.step_of_spent {α : Type} {queue : Queue α} {worker : Worker α}
    (closed : queue.isClosed = true) (empty : queue.items = []) (free : worker.task? = none) :
    worker.step true queue = (.stopped, queue) := by
  obtain ⟨items, ⟨permits, shut⟩, capacity⟩ := queue
  cases empty
  cases (closed : shut = true)
  cases worker with
  | busy task => cases free
  | idle | waiting | granted | stopped => rfl

namespace Life

/-- The lives that a server can have. -/
inductive Lived : Life → Prop where
  | start {settings : Settings} {tree : FileTree} {now : Nat} {system : System}
      (launched : System.launch? settings tree now = some system) : Lived (ofSystem system)
  | step {life next : Life} {action : Action} (lived : Lived life)
      (stepped : life.step? action = some next) : Lived next

variable {life next : Life} {action : Action} {server : Server} {queue : Queue Task}
  {done rest : List (Worker Task)} {worker : Worker Task}

theorem Lived.exists_run? (lived : life.Lived) :
    ∃ (settings : Settings) (tree : FileTree) (now : Nat) (first : System) (actions : List Action),
      System.launch? settings tree now = some first ∧
        (ofSystem first).run? actions = some life := by
  induction lived with
  | start launched => exact ⟨_, _, _, _, [], launched, rfl⟩
  | @step life next action earlier stepped ih =>
      obtain ⟨settings, tree, now, first, actions, launched, ran⟩ := ih
      refine ⟨settings, tree, now, first, actions ++ [action], launched, ?_⟩
      rw [run?_append, ran]
      exact run?_cons_eq_some.2 ⟨next, stepped, rfl⟩

theorem Lived.reached (lived : life.Lived) : ∃ limit, life.Reached limit := by
  induction lived with
  | start launched => exact ⟨_, reached_launch launched⟩
  | step earlier stepped ih =>
      obtain ⟨limit, reached⟩ := ih
      exact ⟨limit, reached.step? stepped⟩

/-- As long as the loop runs, a life is a run of the system. -/
theorem step?_of_system {system after : System} {ending : Ending}
    (stepped : system.step? action = some after) :
    (Life.mk system ending).step? action = some ⟨after, ending⟩ := by
  cases action with
  | advance =>
      have running : system.place ≠ .stopped := by
        intro ended
        simp [System.step?, System.advance?, ended] at stepped
      rw [System.step?] at stepped
      simp [step?, running, stepped]
  | outside | proceed | perform | report | wake | deliver => simp [step?, stepped]

theorem lived_of_reachable {system : System} (reached : System.Reachable system) :
    (ofSystem system).Lived := by
  induction reached with
  | start launched => exact .start launched
  | step earlier stepped ih => exact ih.step (step?_of_system stepped)

/-- The loop that has ended takes its next step. -/
theorem Lived.conclude (lived : life.Lived) (ended : life.system.place = .stopped)
    (concluded : life.conclude? = some next) : next.Lived := by
  refine @Lived.step _ _ .advance lived ?_
  simp [step?, ended, concluded]

/-! ## The workers stop -/

/-- A server that waits for the workers at a place, with nothing to report. -/
def awaiting (server : Server) (count : Nat) : Life :=
  ⟨System.calm server .stopped, .joining count⟩

/-- While the loop has ended the system goes on by itself. -/
theorem Lived.run {system after : System} {ending : Ending} {actions : List Action}
    (lived : (Life.mk system ending).Lived) (ran : system.run? actions = some after) :
    (Life.mk after ending).Lived := by
  induction actions generalizing system with
  | nil =>
      obtain rfl := System.eq_of_run?_nil ran
      exact lived
  | cons action actions ih =>
      obtain ⟨next, stepped, rest⟩ := System.run?_cons_eq_some.1 ran
      exact ih (lived.step (step?_of_system stepped)) rest

/-- Each task in the hands of a worker has a connection, also after the loop has ended. -/
theorem Lived.slot_of_busy (lived : life.Lived) {index : Nat} {task : Task}
    (busy : life.system.server.pool.workers[index]? = some (.busy task)) :
    ∃ slot, life.system.server.table.slot? task.fd = some slot := by
  have entrusted : life.system.Entrusted := by
    obtain ⟨limit, reached⟩ := lived.reached
    cases reached with
    | runs _ reached _ => exact reached.owned.entrusted
    | closes closes => exact closes.entrusted
  obtain ⟨slot, held, -⟩ := entrusted.slot_of_busy busy
  exact ⟨slot, held⟩

/-- A worker that has no task stops, and the loop goes on to the next one. -/
theorem Lived.stopFree (closed : queue.isClosed = true) (empty : queue.items = [])
    (free : worker.task? = none)
    (lived : (awaiting (server.setPool ⟨queue, done ++ worker :: rest, true⟩)
      done.length).Lived) :
    (awaiting (server.setPool ⟨queue, done ++ .stopped :: rest, true⟩)
      (done.length + 1)).Lived := by
  have stepped := System.step?_proceed server .stopped done rest worker queue true
  rw [Worker.step_of_spent closed empty free] at stepped
  refine Lived.conclude (lived.step (step?_of_system stepped)) rfl ?_
  simp only [conclude?, System.calm, System.worker_between, goOn]
  rfl

/-- A worker ends its task if it has one, and then it stops. -/
theorem Lived.stopWorker (closed : queue.isClosed = true) (empty : queue.items = [])
    (lived : (awaiting (server.setPool ⟨queue, done ++ worker :: rest, true⟩)
      done.length).Lived) :
    (awaiting ((worker.task?.toList.foldl Server.carryOut server).setPool
      ⟨queue, done ++ .stopped :: rest, true⟩) (done.length + 1)).Lived := by
  cases worker with
  | busy task =>
      have found := System.worker_between server done rest (.busy task) queue true
      obtain ⟨slot, held⟩ := lived.slot_of_busy found
      change server.table.slot? task.fd = some slot at held
      have ended := lived.run (System.run?_endTask held .stopped done rest queue true)
      exact Lived.stopFree closed empty rfl ended
  | idle | waiting | granted | stopped => exact lived.stopFree closed empty rfl

/-- The workers stop one after the other. -/
theorem Lived.stopWorkers (closed : queue.isClosed = true) (empty : queue.items = [])
    (lived : (awaiting (server.setPool ⟨queue, done ++ rest, true⟩) done.length).Lived) :
    (Life.mk (System.calm (((rest.filterMap Worker.task?).foldl Server.carryOut server).setPool
      ⟨queue, [], true⟩) .stopped) .joined).Lived := by
  induction rest generalizing server done with
  | nil =>
      refine lived.conclude rfl ?_
      simp [conclude?, awaiting, System.calm, Server.setPool]
  | cons worker rest ih =>
      have stopped := lived.stopWorker closed empty
      have behind : done.length + 1 = (done ++ [Worker.stopped]).length := by simp
      rw [List.append_cons, behind] at stopped
      have others := ih stopped
      rw [← List.foldl_append] at others
      have tasks : (worker :: rest).filterMap Worker.task? =
          worker.task?.toList ++ rest.filterMap Worker.task? := by
        cases worker <;> rfl
      rwa [tasks]

/-- The tasks in the hands of workers come to their end when a pool is stopped. -/
theorem stopPool_eq (unstopped : server.pool.stopped = false) :
    server.stopPool = (server.pool.running.foldl Server.carryOut server).setPool
      ⟨server.pool.queue.close.drain.2, [], true⟩ := by
  have stopped : server.pool.stop.2 =
      ⟨server.pool.queue.close.drain.2, server.pool.workers, true⟩ := by
    simp [Pool.stop, unstopped]
  have spent : (⟨server.pool.queue.close.drain.2, server.pool.workers, true⟩ :
    Pool Task).Spent := ⟨rfl, rfl, rfl⟩
  rw [Server.stopPool, stopped, Pool.join, spent.run_eq]
  exact Server.foldl_carryOut_setPool server.pool.running server _

/-- The pool of a server whose loop has ended is stopped. -/
theorem Lived.stopPool (lived : (Life.mk (System.calm server .stopped) .disarmed).Lived)
    (unstopped : server.pool.stopped = false) :
    (Life.mk (System.calm server.stopPool .stopped) .joined).Lived := by
  have flagged := @Lived.conclude _ ((Life.mk (System.calm server .stopped) .disarmed).goOn
    { server with pool := { server.pool with stopped := true } } .flagged) lived rfl (by
      simp [conclude?, System.calm, unstopped])
  have shut := Lived.conclude flagged rfl rfl
  have drained := Lived.conclude shut rfl rfl
  rw [stopPool_eq unstopped]
  exact @Lived.stopWorkers server server.pool.queue.close.drain.2 [] server.pool.workers rfl rfl
    drained

/-! ## Everything else is closed -/

/-- The connections are closed one after the other. -/
theorem Lived.closeAll {fds : List Fd}
    (lived : (Life.mk (System.calm server .stopped) (.closing fds)).Lived) :
    (Life.mk (System.calm (fds.foldl Server.closeNow server) .stopped) (.closing [])).Lived := by
  induction fds generalizing server with
  | nil => exact lived
  | cons fd rest ih =>
      have closed := Lived.conclude lived rfl rfl
      have pool : (server.closeNow fd).pool = server.pool :=
        (Server.confined_closeNow server fd).pool
      refine @ih (server.closeNow fd) ?_
      rw [System.calm, pool]
      exact closed

/-- Closing everything after a stop, as it is run, is the end of a life. -/
theorem Lived.shutdown (lived : (ofSystem (System.calm server .stopped)).Lived)
    (unstopped : server.pool.stopped = false) :
    ∃ last : Life, last.Lived ∧ last.ending = .returned ∧
      last.system.server = server.shutdown := by
  have disarmed : (Life.mk (System.calm { server with kernel := server.kernel.setAlarm 0 }
      .stopped) .disarmed).Lived := Lived.conclude lived rfl rfl
  have joined := disarmed.stopPool unstopped
  rw [Server.shutdown]
  generalize { server with kernel := server.kernel.setAlarm 0 }.stopPool = stopped at joined
  have taken : (Life.mk (System.calm
      { stopped with shared := stopped.shared.takeCompletions.2 } .stopped)
      (.closing stopped.table.openFds)).Lived := Lived.conclude joined rfl rfl
  exact ⟨_, Lived.conclude taken.closeAll rfl rfl, rfl, rfl⟩

/-! ## Runs of the program -/

/-- What is left after a turn in which a stop was heeded. -/
theorem lived_of_lastTurn {turn : Turn} {last : Server}
    (reached : System.Reachable (System.calm server .waiting))
    (turned : server.turn turn = .ok (.stopped, last)) :
    (ofSystem (System.calm last .stopped)).Lived := by
  have events {happenings : List Happening}
      (taken : (server.wait turn).takeEvents happenings = .ok (.stopped, last)) :
      System.Reachable (System.calm last .stopped) := by
    obtain ⟨ending, rested⟩ := (reached.wait turn).takeEvents taken
    cases stopping : last.stopping with
    | true => simpa [System.restingPlace, stopping] using rested
    | false => simp [stopping] at ending
  simp only [Server.turn] at turned
  split at turned
  · exact lived_of_reachable (events turned)
  · exact lived_of_reachable (events turned)
  · cases turned

theorem exists_lived_of_runTurns {turns : List Turn} {run : Run}
    (reached : System.Reachable (System.calm server .waiting))
    (ran : Server.runTurns turns server = .ok run) (stopped : run.ending = .stopped) :
    ∃ last : Life, last.Lived ∧ last.ending = .returned ∧ last.system.server = run.final := by
  induction turns generalizing server run with
  | nil =>
      cases ran
      cases stopped
  | cons turn turns ih =>
      simp only [Server.runTurns] at ran
      split at ran
      · cases ran
      · next next turned =>
          obtain ⟨rest, others, rfl⟩ := exists_of_map_eq_ok ran
          exact @ih next rest (reached.turn turned) others stopped
      · next ending last goesOn turned =>
          cases ran
          cases (stopped : ending = .stopped)
          have lived := lived_of_lastTurn reached turned
          obtain ⟨limit, now⟩ := lived.reached
          refine lived.shutdown ?_
          cases now with
          | runs _ reached _ => exact reached.unstopped
          | closes closes => exact closes.unstopped rfl

/-- A run of the program that a stop ends is a life that has returned, and so nothing is
left after it. -/
theorem gone_of_run {settings : Settings} {tree : FileTree} {now : Nat} {turns : List Turn}
    {run : Run}
    (created : Server.create settings tree { now, forgetsClosed := true } = .ok server)
    (ran : server.run turns = .ok run) (stopped : run.ending = .stopped) :
    Gone run.final := by
  have reached : System.Reachable (System.start server) := by
    refine @System.Reachable.start settings tree now _ ?_
    simp only [System.launch?, created]
  obtain ⟨last, lived, returned, same⟩ := exists_lived_of_runTurns reached ran stopped
  obtain ⟨_, _, _, _, _, launched, goesOn⟩ := lived.exists_run?
  rw [← same]
  exact gone_of_run? launched goesOn returned

end Life

end FileServer
