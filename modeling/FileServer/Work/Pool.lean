import FileServer.Work.Queue

/-!
# Pools of workers

The workers of a pool take tasks from one queue, the oldest first.  A worker is a
small machine whose steps are the sections it runs under a lock; a task in its
hands ends whenever the task itself can, well or not, and the worker goes on.
When the pool stops, the tasks still in the queue are dropped and those in the
hands of workers come to their end.
-/

namespace FileServer

/-- Where a worker is. -/
inductive Worker (α : Type) where
  /-- About to check whether the pool has stopped. -/
  | idle
  /-- Trying to get a permit. -/
  | waiting
  /-- Holds a permit and is about to remove a task from the queue. -/
  | granted
  /-- Has a task in its hands. -/
  | busy (task : α)
  | stopped
  deriving DecidableEq, Repr

/-- Workers and the queue they share. -/
structure Pool (α : Type) where
  queue : Queue α
  workers : List (Worker α)
  stopped : Bool
  deriving DecidableEq, Repr

namespace Worker

variable {α : Type}

/-- The task in the hands of a worker. -/
def task? : Worker α → Option α
  | .busy task => some task
  | _ => none

/-- One section of a worker.  A worker with a task in its hands, or a stopped one,
stays as it is. -/
def step (stopped : Bool) (queue : Queue α) : Worker α → Worker α × Queue α
  | .idle => (if stopped then .stopped else .waiting, queue)
  | .waiting =>
      match queue.wait with
      | (.granted, rest) => (.granted, rest)
      | (.refused, rest) => (.stopped, rest)
      | (.blocked, rest) => (.waiting, rest)
  | .granted =>
      match queue.remove with
      | (some task, rest) => (.busy task, rest)
      | (none, rest) => (.stopped, rest)
  | .busy task => (.busy task, queue)
  | .stopped => (.stopped, queue)

/-- Runs a worker until it has a task, has to wait, or stops: three sections at
most. -/
def settle (stopped : Bool) (queue : Queue α) (worker : Worker α) : Worker α × Queue α :=
  let (first, queue) := worker.step stopped queue
  let (second, queue) := first.step stopped queue
  second.step stopped queue

/-- The worker after its task has ended, if it could end. -/
def release (ready : α → Bool) : Worker α → Worker α
  | .busy task => if ready task then .idle else .busy task
  | worker => worker

end Worker

namespace Pool

variable {α : Type}

/-- A pool needs a worker and room for a task. -/
def start? (threads capacity : Nat) : Option (Pool α) :=
  if threads = 0 ∨ capacity = 0 then
    none
  else
    some {
      queue := .ofCapacity capacity
      workers := List.replicate threads .idle
      stopped := false }

/-- The number of workers. -/
def threads (pool : Pool α) : Nat :=
  pool.workers.length

/-- The tasks in the hands of workers. -/
def running (pool : Pool α) : List α :=
  pool.workers.filterMap Worker.task?

/-- Hands a task to the pool; `none` means that it was rejected. -/
def submit? (pool : Pool α) (task : α) : Option (Pool α) :=
  if pool.stopped then
    none
  else
    (pool.queue.push? task).map fun queue => { pool with queue }

/-- Runs one worker after the other until none can go on without ending a
task. -/
def settleWorkers (stopped : Bool) : List (Worker α) → Queue α → List (Worker α) × Queue α
  | [], queue => ([], queue)
  | worker :: rest, queue =>
      let (settled, queue) := worker.settle stopped queue
      let (others, queue) := settleWorkers stopped rest queue
      (settled :: others, queue)

/-- Runs all workers until none can go on without ending a task. -/
def settle (pool : Pool α) : Pool α :=
  let (workers, queue) := settleWorkers pool.stopped pool.workers pool.queue
  { pool with workers, queue }

/-- Ends the tasks in the hands of workers that can end. -/
def release (pool : Pool α) (ready : α → Bool) : List α × Pool α :=
  (pool.running.filter ready, { pool with workers := pool.workers.map (Worker.release ready) })

/-- Runs the workers until nothing can go on.  The result has the tasks that came
to their end, in order.  The number bounds the rounds, and each round but the
last ends a task. -/
def runFor (ready : α → Bool) : Nat → Pool α → List α × Pool α
  | 0, pool => ([], pool)
  | rounds + 1, pool =>
      match pool.settle.release ready with
      | ([], _) => ([], pool.settle)
      | (ended, next) =>
          let (more, last) := runFor ready rounds next
          (ended ++ more, last)

/-- Runs the workers until nothing can go on. -/
def run (pool : Pool α) (ready : α → Bool) : List α × Pool α :=
  runFor ready (pool.queue.items.length + pool.running.length + 1) pool

/-- Stops the pool.  The result has the tasks that are dropped from the queue; a
stopped pool is left alone. -/
def stop (pool : Pool α) : List α × Pool α :=
  if pool.stopped then
    ([], pool)
  else
    let (dropped, queue) := pool.queue.close.drain
    (dropped, { pool with queue, stopped := true })

/-- Waits until all workers have stopped.  The result has the tasks that were in
their hands. -/
def join (pool : Pool α) : List α × Pool α :=
  let (ended, last) := pool.run fun _ => true
  (ended, { last with workers := [] })

end Pool

end FileServer
