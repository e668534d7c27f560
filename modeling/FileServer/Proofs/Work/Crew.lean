import FileServer.Work.Pool

/-!
# A pool in the middle of its calls

The calls of a pool are made of sections, each under a lock of its own: handing in a
task reads the flag, puts the task into the queue, and posts a permit; a worker reads
the flag, takes a permit, and removes a task; stopping sets the flag, closes the queue,
empties it, and waits for one worker after the other.  A crew is a pool with all that
is between two of its sections, and any section that is due may be next.

The pool itself is one of the functions that make whole calls, so a crew has nothing
that decides differently: each of these calls is some sections of a crew in a row.
-/

namespace FileServer

/-- A task that was handed in, and the number of the call. -/
structure Submission (α : Type) where
  number : Nat
  task : α
  deriving DecidableEq, Repr

/-- How far a pool has come with stopping. -/
inductive Stopping where
  | unbegun
  /-- The flag is set. -/
  | flagged
  /-- The queue is closed. -/
  | closed
  /-- The queue is emptied, and so many workers are known to have stopped. -/
  | joining (count : Nat)
  | returned
  deriving DecidableEq, Repr

/-- A pool between two sections of its calls, and what has become of all that was handed
in. -/
structure Crew (α : Type) where
  pool : Pool (Submission α)
  /-- How many calls have handed in a task. -/
  calls : Nat
  /-- Calls that have found the flag unset. -/
  arriving : List (Submission α)
  /-- Calls whose task is in the queue and has no permit yet. -/
  posting : List (Submission α)
  stopping : Stopping
  /-- Tasks that came into the queue, in order. -/
  accepted : List (Submission α)
  /-- Tasks whose call has returned without an error. -/
  confirmed : List (Submission α)
  /-- Tasks whose call has returned with an error. -/
  rejected : List (Submission α)
  /-- Tasks that were removed from the queue by a worker, in order. -/
  taken : List (Nat × Submission α)
  /-- Tasks that came to their end, with a panic or without. -/
  ended : List ((Nat × Submission α) × Bool)
  /-- Tasks that were in the queue when it was emptied. -/
  dropped : List (Submission α)
  deriving DecidableEq, Repr

namespace Crew

variable {α : Type}

/-- A pool at which no call was made yet. -/
def ofPool (pool : Pool (Submission α)) : Crew α where
  pool
  calls := 0
  arriving := []
  posting := []
  stopping := .unbegun
  accepted := []
  confirmed := []
  rejected := []
  taken := []
  ended := []
  dropped := []

/-- A section that may be next. -/
inductive Section (α : Type) where
  /-- A call hands in a task and reads the flag. -/
  | submit (task : α)
  /-- A call puts its task into the queue. -/
  | append (index : Nat)
  /-- A call posts the permit for its task. -/
  | post (index : Nat)
  /-- A worker reads the flag, takes a permit, or removes a task. -/
  | work (index : Nat)
  /-- The task of a worker comes to its end. -/
  | finish (index : Nat) (panicked : Bool)
  /-- Stopping goes on. -/
  | shutdown
  deriving DecidableEq, Repr

/-- A call reads the flag. -/
def submit (crew : Crew α) (task : α) : Crew α :=
  let submission : Submission α := ⟨crew.calls, task⟩
  if crew.pool.stopped then
    { crew with calls := crew.calls + 1, rejected := crew.rejected ++ [submission] }
  else
    { crew with calls := crew.calls + 1, arriving := crew.arriving ++ [submission] }

/-- A call puts its task into the queue. -/
def append (crew : Crew α) (index : Nat) (submission : Submission α) : Crew α :=
  let left := { crew with arriving := crew.arriving.eraseIdx index }
  match crew.pool.queue.append? submission with
  | none => { left with rejected := crew.rejected ++ [submission] }
  | some queue =>
      { left with
        pool := { crew.pool with queue }
        posting := crew.posting ++ [submission]
        accepted := crew.accepted ++ [submission] }

/-- A call posts its permit and returns. -/
def post (crew : Crew α) (index : Nat) (submission : Submission α) : Crew α :=
  { crew with
    pool := { crew.pool with queue := crew.pool.queue.post }
    posting := crew.posting.eraseIdx index
    confirmed := crew.confirmed ++ [submission] }

/-- A worker that has no task makes its next section. -/
def work? (crew : Crew α) (index : Nat) (worker : Worker (Submission α)) : Option (Crew α) :=
  match worker.task? with
  | some _ => none
  | none =>
      let (next, queue) := worker.step crew.pool.stopped crew.pool.queue
      some { crew with
        pool := { crew.pool with queue, workers := crew.pool.workers.set index next }
        taken := crew.taken ++ (next.task?.map fun submission => (index, submission)).toList }

/-- The task of a worker comes to its end.  The worker catches a panic and goes on. -/
def finish? (crew : Crew α) (index : Nat) (panicked : Bool) (worker : Worker (Submission α)) :
    Option (Crew α) :=
  worker.task?.map fun submission =>
    { crew with
      pool := { crew.pool with
        workers := crew.pool.workers.set index (worker.release fun _ => true) }
      ended := crew.ended ++ [((index, submission), panicked)] }

/-- Stopping goes on.  It waits for a worker that has not stopped, and once it has returned
another call returns at once. -/
def shutdown? (crew : Crew α) : Option (Crew α) :=
  match crew.stopping with
  | .unbegun => some { crew with pool := { crew.pool with stopped := true }, stopping := .flagged }
  | .flagged =>
      some { crew with
        pool := { crew.pool with queue := crew.pool.queue.close }
        stopping := .closed }
  | .closed =>
      let (dropped, queue) := crew.pool.queue.drain
      some { crew with
        pool := { crew.pool with queue }
        stopping := .joining 0
        dropped := crew.dropped ++ dropped }
  | .joining count =>
      match crew.pool.workers[count]? with
      | none => some { crew with pool := { crew.pool with workers := [] }, stopping := .returned }
      | some .stopped => some { crew with stopping := .joining (count + 1) }
      | some _ => none
  | .returned => some crew

/-- One section; `none` if it is not due. -/
def step? (crew : Crew α) : Section α → Option (Crew α)
  | .submit task => some (crew.submit task)
  | .append index => crew.arriving[index]?.map (crew.append index)
  | .post index => crew.posting[index]?.map (crew.post index)
  | .work index => crew.pool.workers[index]?.bind (crew.work? index)
  | .finish index panicked => crew.pool.workers[index]?.bind (crew.finish? index panicked)
  | .shutdown => crew.shutdown?

/-- Any number of sections, in order. -/
def run? (crew : Crew α) : List (Section α) → Option (Crew α)
  | [] => some crew
  | first :: rest => (crew.step? first).bind (run? · rest)

/-- The task in the hands of a worker. -/
def hand (crew : Crew α) (worker : Nat) : Option (Submission α) :=
  crew.pool.workers[worker]?.bind Worker.task?

/-- What a worker has taken, in order. -/
def takenBy (crew : Crew α) (worker : Nat) : List (Submission α) :=
  (crew.taken.filter (·.1 = worker)).map Prod.snd

/-- What a worker has brought to its end, in order. -/
def endedBy (crew : Crew α) (worker : Nat) : List (Submission α) :=
  (crew.ended.filter (·.1.1 = worker)).map fun ended => ended.1.2

end Crew

namespace Worker

variable {α : Type}

/-- Whether a worker has a permit and no task yet. -/
def isGranted : Worker α → Bool
  | .granted => true
  | _ => false

/-- Whether a worker has not stopped. -/
def isWorking : Worker α → Bool
  | .stopped => false
  | _ => true

/-- What a section of a worker without a task does. -/
inductive Steps (stopped : Bool) (queue : Queue α) : Worker α → Worker α → Queue α → Prop
  /-- The flag is not set. -/
  | goesOn (unset : stopped = false) : Steps stopped queue .idle .waiting queue
  /-- The flag is set. -/
  | leaves (set : stopped = true) : Steps stopped queue .idle .stopped queue
  /-- There is a permit. -/
  | gets {permits : Nat} (isOpen : queue.isClosed = false)
      (available : queue.available.permits = permits + 1) :
      Steps stopped queue .waiting .granted
        { queue with available := { queue.available with permits } }
  /-- There is none. -/
  | waits (isOpen : queue.isClosed = false) (lacking : queue.available.permits = 0) :
      Steps stopped queue .waiting .waiting queue
  /-- The queue is closed. -/
  | refused (closed : queue.isClosed = true) : Steps stopped queue .waiting .stopped queue
  /-- There is a task. -/
  | takes {task : α} {rest : List α} (found : queue.items = task :: rest) :
      Steps stopped queue .granted (.busy task) { queue with items := rest }
  /-- The queue was emptied. -/
  | misses (empty : queue.items = []) : Steps stopped queue .granted .stopped queue
  | rests : Steps stopped queue .stopped .stopped queue

/-- A section of a worker without a task. -/
theorem steps_step {worker : Worker α} (free : worker.task? = none) (stopped : Bool)
    (queue : Queue α) :
    Steps stopped queue worker (worker.step stopped queue).1 (worker.step stopped queue).2 := by
  cases worker with
  | idle =>
      cases stopped with
      | true => exact .leaves rfl
      | false => exact .goesOn rfl
  | waiting =>
      obtain ⟨items, ⟨permits, closed⟩, capacity⟩ := queue
      cases closed with
      | true => exact .refused rfl
      | false =>
          cases permits with
          | zero => exact .waits rfl rfl
          | succ permits => exact .gets rfl rfl
  | granted =>
      obtain ⟨items, available, capacity⟩ := queue
      cases items with
      | nil => exact .misses rfl
      | cons task rest => exact .takes rfl
  | busy task => cases free
  | stopped => exact .rests

end Worker

end FileServer
