import FileServer.Proofs.Work.Crew

/-!
# Whole calls of a pool are sections of a crew

The server makes the calls of its pool one after the other, and its functions say what
a whole call does: handing in a task, running the workers as far as they come, stopping,
and waiting for the workers.  Each of them is a run of a crew with nothing in between,
so what holds between any two sections holds of the pools that the server has.
-/

namespace FileServer

namespace Crew

variable {α : Type} {crew later last : Crew α}

theorem run?_append (crew : Crew α) (front back : List (Section α)) :
    crew.run? (front ++ back) = (crew.run? front).bind (run? · back) := by
  induction front generalizing crew with
  | nil => rfl
  | cons first rest ih =>
      simp only [List.cons_append, run?, Option.bind_assoc]
      exact congrArg _ (funext fun middle => ih middle)

/-- Some sections lead to a pool, and some tasks come to their end in them. -/
structure Leads (crew : Crew α) (pool : Pool (Submission α)) (ended : List (Submission α))
    (later : Crew α) : Prop where
  sections : ∃ sections, crew.run? sections = some later
  pool : later.pool = pool
  ended : later.ended.map (·.1.2) = crew.ended.map (·.1.2) ++ ended
  stopping : later.stopping = crew.stopping

theorem leads_refl (crew : Crew α) : crew.Leads crew.pool [] crew :=
  ⟨⟨[], rfl⟩, rfl, (List.append_nil _).symm, rfl⟩

theorem Leads.trans {pool final : Pool (Submission α)} {ended more : List (Submission α)}
    (early : crew.Leads pool ended later) (late : later.Leads final more last) :
    crew.Leads final (ended ++ more) last := by
  obtain ⟨front, ranFront⟩ := early.sections
  obtain ⟨back, ranBack⟩ := late.sections
  refine ⟨⟨front ++ back, by rw [run?_append, ranFront]; exact ranBack⟩, late.pool, ?_,
    late.stopping.trans early.stopping⟩
  rw [late.ended, early.ended, List.append_assoc]

/-! ## Handing in a task -/

/-- A call that hands in a task is three sections if the pool accepts it. -/
theorem run?_submit {pool : Pool (Submission α)} {task : α}
    (accepted : crew.pool.submit? ⟨crew.calls, task⟩ = some pool) :
    (crew.run? [.submit task, .append crew.arriving.length, .post crew.posting.length]).map
        (fun later => (later.pool, later.confirmed)) =
      some (pool, crew.confirmed ++ [⟨crew.calls, task⟩]) := by
  unfold Pool.submit? at accepted
  split at accepted
  · cases accepted
  · next unset =>
      obtain ⟨queue, pushed, rfl⟩ := Option.map_eq_some_iff.1 accepted
      obtain ⟨grown, appended, rfl⟩ := Option.map_eq_some_iff.1 pushed
      simp [run?, step?, submit, unset, append, appended, post]

/-- A call that hands in a task in vain is one section or two. -/
theorem run?_submit_none {task : α} (refused : crew.pool.submit? ⟨crew.calls, task⟩ = none) :
    ∃ sections, (crew.run? sections).map (fun later => (later.pool, later.rejected)) =
      some (crew.pool, crew.rejected ++ [⟨crew.calls, task⟩]) := by
  unfold Pool.submit? at refused
  split at refused
  · next set => exact ⟨[.submit task], by simp [run?, step?, submit, set]⟩
  · next unset =>
      have full := Option.map_eq_none_iff.1 (Option.map_eq_none_iff.1 refused)
      exact ⟨[.submit task, .append crew.arriving.length],
        by simp [run?, step?, submit, unset, append, full]⟩

/-! ## Stopping -/

/-- A call that stops the pool is three sections. -/
theorem run?_stop (unbegun : crew.stopping = .unbegun) (unset : crew.pool.stopped = false) :
    (crew.run? [.shutdown, .shutdown, .shutdown]).map
        (fun later => (later.pool, later.dropped, later.stopping)) =
      some (crew.pool.stop.2, crew.dropped ++ crew.pool.stop.1, .joining 0) := by
  simp [run?, step?, shutdown?, unbegun, Pool.stop, unset]

/-! ## Running the workers -/

/-- A worker that has a task rests, and any other makes a section. -/
theorem leads_step {index : Nat} {worker : Worker (Submission α)}
    (held : crew.pool.workers[index]? = some worker) :
    ∃ later, crew.Leads
      { crew.pool with
        queue := (worker.step crew.pool.stopped crew.pool.queue).2
        workers := crew.pool.workers.set index
          (worker.step crew.pool.stopped crew.pool.queue).1 } [] later := by
  cases free : worker.task? with
  | none =>
      obtain ⟨later, worked⟩ : ∃ later, crew.work? index worker = some later := by
        simp [work?, free]
      have ran : crew.run? [.work index] = some later := by
        simp only [run?, step?, held, worked, Option.bind_some]
      simp only [work?, free, Option.some.injEq] at worked
      subst worked
      exact ⟨_, ⟨[.work index], ran⟩, rfl, (List.append_nil _).symm, rfl⟩
  | some task =>
      cases worker with
      | idle | waiting | granted | stopped => cases free
      | busy task =>
          have same : crew.pool.workers.set index (.busy task) = crew.pool.workers := by
            obtain ⟨inside, found⟩ := List.getElem?_eq_some_iff.1 held
            rw [← found, List.set_getElem_self]
          refine ⟨crew, ?_⟩
          simp only [Worker.step, same]
          exact leads_refl crew

/-- A worker settles in three sections at most. -/
theorem leads_settle {index : Nat} {worker : Worker (Submission α)}
    (held : crew.pool.workers[index]? = some worker) :
    ∃ later, crew.Leads
      { crew.pool with
        queue := (worker.settle crew.pool.stopped crew.pool.queue).2
        workers := crew.pool.workers.set index
          (worker.settle crew.pool.stopped crew.pool.queue).1 } [] later := by
  obtain ⟨inside, -⟩ := List.getElem?_eq_some_iff.1 held
  obtain ⟨first, leadsFirst⟩ := leads_step held
  have heldFirst : first.pool.workers[index]? =
      some (worker.step crew.pool.stopped crew.pool.queue).1 := by
    rw [leadsFirst.pool]
    exact List.getElem?_set_self inside
  obtain ⟨second, leadsSecond⟩ := leads_step heldFirst
  rw [leadsFirst.pool] at leadsSecond
  have heldSecond := congrArg (·.workers[index]?) leadsSecond.pool
  dsimp only at heldSecond
  rw [List.getElem?_set_self (by rwa [List.length_set])] at heldSecond
  obtain ⟨third, leadsThird⟩ := leads_step heldSecond
  rw [leadsSecond.pool] at leadsThird
  refine ⟨third, ?_⟩
  have whole := (leadsFirst.trans leadsSecond).trans leadsThird
  simpa only [List.set_set, List.nil_append, Worker.settle] using whole

/-- The workers settle one after the other. -/
theorem leads_settleWorkers (front : List (Worker (Submission α)))
    {back : List (Worker (Submission α))} (split : crew.pool.workers = front ++ back) :
    ∃ later, crew.Leads
      { crew.pool with
        queue := (Pool.settleWorkers crew.pool.stopped back crew.pool.queue).2
        workers := front ++ (Pool.settleWorkers crew.pool.stopped back crew.pool.queue).1 }
      [] later := by
  induction back generalizing crew front with
  | nil =>
      refine ⟨crew, ?_⟩
      simp only [Pool.settleWorkers, ← split]
      exact leads_refl crew
  | cons worker back ih =>
      have held : crew.pool.workers[front.length]? = some worker := by
        rw [split, List.getElem?_append_right (Nat.le_refl _), Nat.sub_self]
        rfl
      obtain ⟨middle, leads⟩ := leads_settle held
      have splitMiddle : middle.pool.workers =
          (front ++ [(worker.settle crew.pool.stopped crew.pool.queue).1]) ++ back := by
        rw [leads.pool]
        simp [split]
      obtain ⟨later, leadsRest⟩ := ih _ splitMiddle
      rw [leads.pool] at leadsRest
      refine ⟨later, ?_⟩
      have whole := leads.trans leadsRest
      simpa only [Pool.settleWorkers, List.append_assoc, List.singleton_append, List.append_nil]
        using whole

theorem leads_poolSettle (crew : Crew α) : ∃ later, crew.Leads crew.pool.settle [] later :=
  leads_settleWorkers [] (List.nil_append _).symm

/-- A worker releases its task, if this can end, in one section. -/
theorem leads_release (ready : Submission α → Bool) {front back : List (Worker (Submission α))}
    {worker : Worker (Submission α)} (split : crew.pool.workers = front ++ worker :: back) :
    ∃ later, crew.Leads { crew.pool with workers := front ++ worker.release ready :: back }
      (worker.task?.toList.filter ready) later := by
  by_cases ends : ∃ task, worker = .busy task ∧ ready task = true
  · obtain ⟨task, rfl, able⟩ := ends
    have held : crew.pool.workers[front.length]? = some (.busy task) := by
      rw [split, List.getElem?_append_right (Nat.le_refl _), Nat.sub_self]
      rfl
    obtain ⟨later, finished⟩ :
        ∃ later, crew.finish? front.length false (.busy task) = some later := ⟨_, rfl⟩
    have ran : crew.run? [.finish front.length false] = some later := by
      simp only [run?, step?, held, finished, Option.bind_some]
    cases finished
    refine ⟨_, ⟨[.finish front.length false], ran⟩, ?_, ?_, rfl⟩
    · simp [Worker.release, able, split]
    · simp [Worker.task?, able]
  · have same : worker.release ready = worker := by
      cases worker with
      | idle | waiting | granted | stopped => rfl
      | busy task => exact if_neg fun able => ends ⟨task, rfl, able⟩
    have nothing : worker.task?.toList.filter ready = [] := by
      cases worker with
      | idle | waiting | granted | stopped => rfl
      | busy task =>
          exact List.filter_eq_nil_iff.2 fun other member able =>
            ends ⟨task, rfl, by rwa [List.mem_singleton.1 member] at able⟩
    refine ⟨crew, ?_⟩
    rw [same, nothing, ← split]
    exact leads_refl crew

/-- The tasks that can end do so one after the other. -/
theorem leads_releaseWorkers (ready : Submission α → Bool)
    (front : List (Worker (Submission α))) {back : List (Worker (Submission α))}
    (split : crew.pool.workers = front ++ back) :
    ∃ later, crew.Leads
      { crew.pool with workers := front ++ back.map (Worker.release ready) }
      ((back.filterMap Worker.task?).filter ready) later := by
  induction back generalizing crew front with
  | nil =>
      refine ⟨crew, ?_⟩
      simp only [List.map_nil, ← split]
      exact leads_refl crew
  | cons worker back ih =>
      obtain ⟨middle, leads⟩ := leads_release ready split
      obtain ⟨later, leadsRest⟩ := ih (front ++ [worker.release ready]) (by rw [leads.pool]; simp)
      rw [leads.pool] at leadsRest
      have ended : ((worker :: back).filterMap Worker.task?).filter ready =
          worker.task?.toList.filter ready ++ (back.filterMap Worker.task?).filter ready := by
        rw [List.filterMap_cons, ← List.filter_append]
        cases worker.task? <;> rfl
      refine ⟨later, ?_⟩
      rw [ended]
      simpa only [List.map_cons, List.append_assoc, List.singleton_append] using
        leads.trans leadsRest

theorem leads_poolRelease (crew : Crew α) (ready : Submission α → Bool) :
    ∃ later, crew.Leads (crew.pool.release ready).2 (crew.pool.release ready).1 later :=
  leads_releaseWorkers ready [] (List.nil_append _).symm

theorem leads_runFor (crew : Crew α) (ready : Submission α → Bool) (rounds : Nat) :
    ∃ later, crew.Leads (crew.pool.runFor ready rounds).2 (crew.pool.runFor ready rounds).1
      later := by
  induction rounds generalizing crew with
  | zero => exact ⟨crew, leads_refl crew⟩
  | succ rounds ih =>
      obtain ⟨settled, leadsSettled⟩ := leads_poolSettle crew
      rw [Pool.runFor]
      split
      · exact ⟨settled, leadsSettled⟩
      · next ended next _ released =>
          obtain ⟨middle, leadsMiddle⟩ := leads_poolRelease settled ready
          rw [leadsSettled.pool, released] at leadsMiddle
          obtain ⟨later, leadsLater⟩ := ih middle
          rw [leadsMiddle.pool] at leadsLater
          exact ⟨later, (leadsSettled.trans leadsMiddle).trans leadsLater⟩

/-- Running the workers until nothing can go on is a run of sections, in which the same tasks
come to their end. -/
theorem leads_run (crew : Crew α) (ready : Submission α → Bool) :
    ∃ later, crew.Leads (crew.pool.run ready).2 (crew.pool.run ready).1 later :=
  leads_runFor crew ready _

end Crew

/-! ## Waiting for the workers -/

/-- A worker that is not busy has stopped. -/
def Worker.quit {α : Type} : Worker α → Worker α
  | .busy task => .busy task
  | _ => .stopped

namespace Pool

variable {α : Type}

/-- A pool whose flag is set and whose queue is closed and empty. -/
structure Spent (pool : Pool α) : Prop where
  flag : pool.stopped = true
  closed : pool.queue.isClosed = true
  empty : pool.queue.items = []

theorem settle_of_spent {queue : Queue α} (closed : queue.isClosed = true)
    (empty : queue.items = []) (worker : Worker α) :
    worker.settle true queue = (worker.quit, queue) := by
  obtain ⟨items, ⟨permits, shut⟩, capacity⟩ := queue
  cases empty
  cases (closed : shut = true)
  cases worker <;> rfl

theorem settleWorkers_of_spent {queue : Queue α} (closed : queue.isClosed = true)
    (empty : queue.items = []) (workers : List (Worker α)) :
    settleWorkers true workers queue = (workers.map Worker.quit, queue) := by
  induction workers with
  | nil => rfl
  | cons worker rest ih =>
      simp only [settleWorkers, settle_of_spent closed empty, ih, List.map_cons]

theorem Spent.settle_eq {pool : Pool α} (spent : pool.Spent) :
    pool.settle = { pool with workers := pool.workers.map Worker.quit } := by
  simp only [settle, spent.flag, settleWorkers_of_spent spent.closed spent.empty]

/-- The workers of a spent pool quit, and the tasks in their hands are still there. -/
theorem running_quit (pool : Pool α) :
    { pool with workers := pool.workers.map Worker.quit }.running = pool.running := by
  simp only [running, List.filterMap_map]
  refine congrArg (List.filterMap · pool.workers) (funext fun worker => ?_)
  cases worker <;> rfl

/-- Without a task in any hands, all workers of a spent pool stop. -/
theorem Spent.runFor_idle {pool : Pool α} (spent : pool.Spent) (idle : pool.running = [])
    (ready : α → Bool) (rounds : Nat) :
    pool.runFor ready (rounds + 1) =
      ([], { pool with workers := pool.workers.map fun _ => .stopped }) := by
  have all : pool.workers.map Worker.quit = pool.workers.map fun _ => .stopped := by
    refine List.map_congr_left fun worker member => ?_
    cases worker with
    | busy task => cases List.filterMap_eq_nil_iff.1 idle _ member
    | idle | waiting | granted | stopped => rfl
  have nothing : pool.settle.running.filter ready = [] := by
    rw [spent.settle_eq, running_quit, idle]
    rfl
  rw [runFor, release, nothing, spent.settle_eq, all]

/-- In a spent pool every task in the hands of a worker comes to its end, and then all workers
stop. -/
theorem Spent.run_eq {pool : Pool α} (spent : pool.Spent) :
    pool.run (fun _ => true) =
      (pool.running, { pool with workers := pool.workers.map fun _ => .stopped }) := by
  rw [run, spent.empty, List.length_nil, Nat.zero_add]
  cases busy : pool.running with
  | nil => exact spent.runFor_idle busy _ _
  | cons task rest =>
      have ended : pool.settle.running.filter (fun _ => true) = task :: rest := by
        rw [spent.settle_eq, running_quit, busy]
        exact List.filter_eq_self.2 fun _ _ => rfl
      have next : Spent { pool with
          workers := (pool.workers.map Worker.quit).map (Worker.release fun _ => true) } :=
        ⟨spent.flag, spent.closed, spent.empty⟩
      have idle : running { pool with
          workers := (pool.workers.map Worker.quit).map (Worker.release fun _ => true) } = [] := by
        simp only [running, List.filterMap_map]
        refine List.filterMap_eq_nil_iff.2 fun worker _ => ?_
        cases worker <;> rfl
      have final := next.runFor_idle idle (fun _ => true) rest.length
      rw [List.length_cons, runFor, release, ended]
      simp only [spent.settle_eq]
      rw [final, List.append_nil]
      simp only [List.map_map]
      rfl

end Pool

namespace Crew

variable {α : Type} {crew : Crew α}

/-- A call that waits for stopped workers goes through all of them and returns. -/
theorem run?_join {count : Nat} (joining : crew.stopping = .joining count)
    (stopped : ∀ worker ∈ crew.pool.workers, worker = .stopped) :
    ∃ sections, crew.run? sections =
      some { crew with pool := { crew.pool with workers := [] }, stopping := .returned } := by
  induction left : crew.pool.workers.length - count generalizing crew count with
  | zero =>
      have behind : crew.pool.workers[count]? = none := List.getElem?_eq_none (by omega)
      exact ⟨[.shutdown], by simp [run?, step?, shutdown?, joining, behind]⟩
  | succ left ih =>
      have inside : count < crew.pool.workers.length := by omega
      have found : crew.pool.workers[count]? = some .stopped := by
        rw [List.getElem?_eq_getElem inside, stopped _ (List.getElem_mem inside)]
      have stepped :
          crew.step? .shutdown = some { crew with stopping := .joining (count + 1) } := by
        simp only [step?, shutdown?, joining, found]
      generalize nextEq : { crew with stopping := .joining (count + 1) } = next at stepped
      have samePool : next.pool = crew.pool := by rw [← nextEq]
      have sameRest : { next with pool := { next.pool with workers := [] }, stopping := .returned } =
          { crew with pool := { crew.pool with workers := [] }, stopping := .returned } := by
        rw [← nextEq]
      obtain ⟨sections, ran⟩ := @ih next (count + 1) (by rw [← nextEq]) (by rwa [samePool])
        (by rw [samePool]; omega)
      exact ⟨.shutdown :: sections, by rw [run?, stepped, ← sameRest]; exact ran⟩

/-- Waiting for the workers of a pool that was stopped is a run of sections to where the call
returns, and the same tasks come to their end. -/
theorem run?_pool_join (joining : crew.stopping = .joining 0) (spent : crew.pool.Spent) :
    ∃ sections later, crew.run? sections = some later ∧ later.pool = crew.pool.join.2 ∧
      later.stopping = .returned ∧
      later.ended.map (·.1.2) = crew.ended.map (·.1.2) ++ crew.pool.join.1 := by
  obtain ⟨settled, leads⟩ := leads_run crew fun _ => true
  have result : crew.pool.run (fun _ => true) = _ := spent.run_eq
  obtain ⟨front, ranFront⟩ := leads.sections
  have stopped : ∀ worker ∈ settled.pool.workers, worker = .stopped := by
    intro worker member
    rw [leads.pool, result] at member
    obtain ⟨-, -, rfl⟩ := List.mem_map.1 member
    rfl
  obtain ⟨back, ranBack⟩ := run?_join (leads.stopping.trans joining) stopped
  have ran : crew.run? (front ++ back) = settled.run? back := by
    rw [run?_append, ranFront, Option.bind_some]
  refine ⟨front ++ back, _, ran.trans ranBack, ?_, rfl, leads.ended⟩
  rw [leads.pool]
  rfl

end Crew

end FileServer
