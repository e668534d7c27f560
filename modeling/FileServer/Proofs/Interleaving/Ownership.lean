import FileServer.Proofs.Interleaving.Handlers
import FileServer.Proofs.Interleaving.System

/-!
# Who may touch a connection

A task that waits in the queue or is in the hands of a worker, and a completion
that the loop has not acted on, are the units of work under way for a descriptor.
However loop and workers take turns, a connection is lent exactly while there is a
unit for it.  Then there is just one, and it carries the generation of the slot.
The loop therefore never touches a connection that a worker may still touch, and
neither a task nor a completion ever meets a later connection of its descriptor.
-/

namespace FileServer

/-- Replacing an element of a list exchanges what the two elements contribute. -/
theorem filterMap_set_perm {α β : Type} (image : α → Option β) {values : List α} {index : Nat}
    {old : α} (present : values[index]? = some old) (new : α) :
    ((image old).toList ++ (values.set index new).filterMap image).Perm
      ((image new).toList ++ values.filterMap image) := by
  induction values generalizing index with
  | nil => simp at present
  | cons head rest ih =>
      have split (value : α) :
          (value :: rest).filterMap image = (image value).toList ++ rest.filterMap image := by
        cases found : image value <;> simp [found]
      cases index with
      | zero =>
          simp only [List.getElem?_cons_zero, Option.some.injEq] at present
          subst present
          rw [List.set_cons_zero, split, split, ← List.append_assoc, ← List.append_assoc]
          exact List.perm_append_comm.append_right _
      | succ index =>
          rw [List.getElem?_cons_succ] at present
          have inner := (ih present).append_left (image head).toList
          have setSplit : (head :: rest.set index new).filterMap image =
              (image head).toList ++ (rest.set index new).filterMap image := by
            cases found : image head <;> simp [found]
          rw [List.set_cons_succ, split, setSplit, ← List.append_assoc]
          refine (List.perm_append_comm.append_right _).trans ?_
          rw [List.append_assoc, ← List.append_assoc (image new).toList]
          refine inner.trans ?_
          rw [← List.append_assoc]
          exact List.perm_append_comm.append_right _

namespace System

/-- The tasks that wait in the queue or are in the hands of workers. -/
def tasks (system : System) : List Task :=
  system.server.pool.queue.items ++ system.server.pool.running

/-- The completions that the loop has not acted on. -/
def completions (system : System) : List Completion :=
  system.place.taken ++ system.server.shared.completions

/-- The units of work under way: tasks, and completions as the tasks they
complete. -/
def units (system : System) : List Task :=
  system.tasks ++ system.completions.map Completion.task

/-- The units of work under way for a descriptor. -/
def outstanding (system : System) (fd : Fd) : List Task :=
  system.units.filter fun task => task.fd = fd

/-- A connection is lent exactly for the one unit of work under way for it. -/
def Owned (system : System) : Prop :=
  ∀ fd, (system.outstanding fd).Perm (system.server.table.lent fd).toList

variable {system next : System}

/-- There is no unit of work for a connection that is not lent, and one for a lent
connection. -/
theorem Owned.outstanding_eq (owned : system.Owned) (fd : Fd) :
    system.outstanding fd = (system.server.table.lent fd).toList := by
  have same := owned fd
  cases lent : system.server.table.lent fd with
  | none =>
      rw [lent] at same
      exact List.perm_nil.1 same
  | some task =>
      rw [lent] at same
      exact List.perm_singleton.1 same

/-- What is lent has a unit of work. -/
theorem Owned.lent_of_mem (owned : system.Owned) {task : Task} (member : task ∈ system.units) :
    system.server.table.lent task.fd = some task := by
  have found : task ∈ system.outstanding task.fd := by
    simp [outstanding, member]
  rw [owned.outstanding_eq] at found
  simpa using found

/-- The completion that the loop acts on next belongs to a lent connection. -/
theorem Owned.lent_of_settling (owned : system.Owned) {done : Completion}
    {rest : List Completion} {sweepDue : Bool}
    (position : system.place = .settling (done :: rest) sweepDue) :
    system.server.table.lent done.fd = some done.task := by
  have left : done ∈ system.completions := by simp [completions, position, Place.taken]
  exact owned.lent_of_mem (List.mem_append_right _ (List.mem_map_of_mem left))

/-- The connection of each task that waits or is in the hands of a worker is lent for it. -/
def Entrusted (system : System) : Prop :=
  ∀ task ∈ system.tasks, system.server.table.lent task.fd = some task

theorem Owned.entrusted (owned : system.Owned) : system.Entrusted :=
  fun _ member => owned.lent_of_mem (List.mem_append_left _ member)

/-- The connection of a task in the hands of a worker has a slot and is lent for it. -/
theorem Entrusted.slot_of_busy (entrusted : system.Entrusted) {worker : Nat} {task : Task}
    (busy : system.server.pool.workers[worker]? = some (.busy task)) :
    ∃ slot, system.server.table.slot? task.fd = some slot ∧
      task.generation = slot.generation ∧ (slot.custody = .worker ∨ slot.custody = .closing) := by
  have member : task ∈ system.tasks := List.mem_append_right _
    (List.mem_filterMap.2 ⟨_, List.mem_of_getElem? busy, rfl⟩)
  obtain ⟨slot, here, same, lent⟩ := Slots.slot?_of_lent (entrusted task member)
  exact ⟨slot, here, congrArg Task.generation same, lent⟩

theorem Entrusted.lent (entrusted : system.Entrusted) {worker : Nat} {task : Task} {slot : Slot}
    (busy : system.server.pool.workers[worker]? = some (.busy task))
    (found : system.server.table.slot? task.fd = some slot) :
    slot.generation = task.generation ∧ (slot.custody = .worker ∨ slot.custody = .closing) := by
  obtain ⟨held, here, same, lent⟩ := entrusted.slot_of_busy busy
  cases found.symm.trans here
  exact ⟨same.symm, lent⟩

/-! ## Keeping the balance -/

/-- Units that are gained and lost have to be lent and given back. -/
theorem Owned.exchange (owned : system.Owned) (gained lost : List Task)
    (units : (lost ++ next.units).Perm (gained ++ system.units))
    (lent : ∀ fd,
      (lost.filter (fun task => task.fd = fd) ++ (next.server.table.lent fd).toList).Perm
        (gained.filter (fun task => task.fd = fd) ++ (system.server.table.lent fd).toList)) :
    next.Owned := by
  intro fd
  have filtered := units.filter fun task => decide (task.fd = fd)
  rw [List.filter_append, List.filter_append] at filtered
  have balanced := (owned fd).append_left (gained.filter fun task => decide (task.fd = fd))
  exact (List.perm_append_left_iff _).1 ((filtered.trans balanced).trans (lent fd).symm)

/-- Units that only change their places. -/
theorem Owned.of_perm (owned : system.Owned) (units : next.units.Perm system.units)
    (lent : ∀ fd, next.server.table.lent fd = system.server.table.lent fd) : next.Owned := by
  refine owned.exchange [] [] units fun fd => ?_
  rw [lent fd]

/-- Neither units nor slots change. -/
theorem Owned.of_same (owned : system.Owned) (tasks : next.tasks = system.tasks)
    (completions : next.completions = system.completions)
    (table : next.server.table = system.server.table) : next.Owned := by
  refine owned.of_perm ?_ fun fd => by rw [table]
  rw [units, units, tasks, completions]

/-- A new unit, for which its connection is lent. -/
theorem Owned.lend (owned : system.Owned) {task : Task}
    (units : next.units.Perm (task :: system.units))
    (held : system.server.table.lent task.fd = none)
    (lent : next.server.table.lent task.fd = some task)
    (others : ∀ fd, fd ≠ task.fd →
      next.server.table.lent fd = system.server.table.lent fd) : next.Owned := by
  refine owned.exchange [task] [] units fun fd => ?_
  by_cases mine : fd = task.fd
  · subst mine
    simp [held, lent]
  · rw [others fd mine, List.filter_cons_of_neg (by simpa using Ne.symm mine)]

/-- A unit that is done with, for which its connection was lent. -/
theorem Owned.settle (owned : system.Owned) (task : Task)
    (units : (task :: next.units).Perm system.units)
    (held : next.server.table.lent task.fd = none)
    (others : ∀ fd, fd ≠ task.fd →
      next.server.table.lent fd = system.server.table.lent fd) : next.Owned := by
  have lent : system.server.table.lent task.fd = some task :=
    owned.lent_of_mem (units.subset List.mem_cons_self)
  refine owned.exchange [] [task] units fun fd => ?_
  by_cases mine : fd = task.fd
  · subst mine
    simp [held, lent]
  · rw [others fd mine, List.filter_cons_of_neg (by simpa using Ne.symm mine)]

/-- A change that is confined to a descriptor and leaves its loan as it was. -/
theorem Owned.of_confined (owned : system.Owned) {fd : Fd}
    (confined : Server.Confined fd system.server next.server)
    (taken : next.place.taken = system.place.taken)
    (lent : next.server.table.lent fd = system.server.table.lent fd) : next.Owned := by
  refine owned.of_perm ?_ fun other => ?_
  · simp only [units, tasks, completions, confined.pool, confined.completions, taken]
    exact .refl _
  · by_cases mine : other = fd
    · rw [mine, lent]
    · exact (confined.leaves other mine).lent

/-! ## Steps of the workers -/

/-- A section of the pool moves tasks, and none is lost. -/
theorem Worker.step_perm (stopped : Bool) (queue : Queue Task) (worker : Worker Task) :
    ((worker.step stopped queue).2.items ++ (worker.step stopped queue).1.task?.toList).Perm
      (queue.items ++ worker.task?.toList) := by
  cases worker with
  | idle => cases stopped <;> exact .refl _
  | waiting =>
      simp only [Worker.step, Queue.wait]
      generalize queue.available.attempt = answer
      obtain ⟨attempt, available⟩ := answer
      cases attempt <;> exact .refl _
  | granted =>
      simp only [Worker.step, Queue.remove]
      cases items : queue.items with
      | nil => simp [items, Worker.task?]
      | cons item rest =>
          simp only [Worker.task?, Option.toList_some, Option.toList_none, List.append_nil]
          exact List.perm_append_comm
  | busy task => exact .refl _
  | stopped => exact .refl _

/-- Nor does it add one to the queue. -/
theorem Worker.items_step (stopped : Bool) (queue : Queue Task) (worker : Worker Task) :
    (worker.step stopped queue).2.items <:+ queue.items := by
  cases worker with
  | idle | busy | stopped => exact List.suffix_rfl
  | waiting =>
      simp only [Worker.step, Queue.wait]
      generalize queue.available.attempt = answer
      obtain ⟨attempt, available⟩ := answer
      cases attempt <;> exact List.suffix_rfl
  | granted =>
      simp only [Worker.step, Queue.remove]
      cases items : queue.items with
      | nil => simp [items]
      | cons item rest => exact List.suffix_cons item rest

theorem tasks_of_proceed? {index : Nat} (stepped : system.proceed? index = some next) :
    next.tasks.Perm system.tasks := by
  simp only [System.proceed?] at stepped
  split at stepped
  · next worker present _ =>
      cases stepped
      refine List.perm_iff_count.2 fun task => ?_
      have moved := (Worker.step_perm system.server.pool.stopped system.server.pool.queue
        worker).count_eq task
      have exchanged := (filterMap_set_perm Worker.task? present
        (worker.step system.server.pool.stopped system.server.pool.queue).1).count_eq task
      simp only [List.count_append] at moved exchanged
      simp only [tasks, Pool.running, Server.setWorker, Server.setQueue, List.count_append]
      omega
  · cases stepped

theorem Owned.proceed? (owned : system.Owned) {index : Nat}
    (stepped : system.proceed? index = some next) : next.Owned := by
  have tasks := tasks_of_proceed? stepped
  simp only [System.proceed?] at stepped
  split at stepped
  · cases stepped
    exact owned.of_perm (tasks.append_right _) fun fd => rfl
  · cases stepped

/-- A task that is reported is no task any more. -/
theorem tasks_of_report? {index : Nat} (stepped : system.report? index = some next) :
    ∃ task outcome, system.tasks.Perm (task :: next.tasks) ∧
      next.completions = system.completions ++ [task.completion outcome] := by
  simp only [System.report?] at stepped
  split at stepped
  · next task outcome present _ =>
      cases stepped
      refine ⟨task, outcome, List.perm_iff_count.2 fun unit => ?_, ?_⟩
      · have exchanged := (filterMap_set_perm Worker.task? present .idle).count_eq unit
        simp only [Worker.task?, Option.toList_some, Option.toList_none, List.count_append,
          List.nil_append] at exchanged
        simp only [tasks, Pool.running, Server.setWorker, List.count_append, List.count_cons,
          List.count_nil] at exchanged ⊢
        omega
      · simp only [completions, Server.setWorker, Shared.append, List.append_assoc]
  · cases stepped

/-- Working on a connection keeps its custody and its generation. -/
theorem task?_perform (task : Task) (tree : FileTree) (root : Text) (slot : Slot)
    (shared : Shared) (fd : Fd) :
    (task.perform tree root slot shared).2.1.task? fd = slot.task? fd := by
  simp only [Task.perform, Task.work]
  split
  · split <;> rfl
  · rfl

theorem completions_perform (task : Task) (tree : FileTree) (root : Text) (slot : Slot)
    (shared : Shared) :
    (task.perform tree root slot shared).2.2.completions = shared.completions := by
  simp only [Task.perform]
  split <;> rfl

theorem Owned.perform? (owned : system.Owned) {index : Nat}
    (stepped : system.perform? index = some next) : next.Owned := by
  simp only [System.perform?] at stepped
  split at stepped
  · next task _ _ =>
      split at stepped
      · cases stepped
      · next slot found =>
          have lent := task?_perform task system.server.tree system.server.settings.docRoot slot
            system.server.shared
          have same := completions_perform task system.server.tree
            system.server.settings.docRoot slot system.server.shared
          generalize task.perform _ _ slot _ = performed at stepped lent same
          obtain ⟨outcome, worked, shared⟩ := performed
          cases stepped
          refine owned.of_confined
            ((Server.confined_putSlot _ task.fd worked).trans (Server.confined_shared _ _ same))
            rfl ?_
          rw [Slots.lent_of_slot? found, ← lent task.fd]
          exact Slots.lent_of_slot? (Slots.slot?_set_of_slot? found worked)
  · cases stepped

theorem Owned.report? (owned : system.Owned) {index : Nat}
    (stepped : system.report? index = some next) : next.Owned := by
  obtain ⟨task, outcome, tasks, completions⟩ := tasks_of_report? stepped
  have table : next.server.table = system.server.table := by
    simp only [System.report?] at stepped
    split at stepped
    · cases stepped
      rfl
    · cases stepped
  refine owned.of_perm (List.perm_iff_count.2 fun unit => ?_) fun fd => by rw [table]
  have gone := tasks.count_eq unit
  simp only [units, completions, List.map_append, List.map_cons, List.map_nil,
    Completion.task_completion, List.count_append, List.count_cons, List.count_nil] at gone ⊢
  omega

theorem Owned.wake? (owned : system.Owned) {index : Nat}
    (stepped : system.wake? index = some next) : next.Owned := by
  simp only [System.wake?] at stepped
  split at stepped
  · cases stepped
    exact owned.of_same rfl rfl rfl
  · cases stepped

/-! ## Steps of the loop -/

theorem Owned.deliver? (owned : system.Owned) {events : List Event}
    (stepped : system.deliver? events = some next) : next.Owned := by
  simp only [System.deliver?] at stepped
  split at stepped
  · next place =>
      cases stepped
      exact owned.of_same rfl (by simp [completions, place, Place.taken]) rfl
  · cases stepped

theorem Server.confined_setArrivals (server : Server) (fd : Fd) (arrivals : List Arrival) :
    Server.Confined fd server (server.setArrivals arrivals) :=
  ⟨rfl, rfl, fun _ _ => ⟨rfl, rfl, rfl, rfl⟩⟩

/-- A handler that lends a connection adds its task to the queue. -/
theorem Owned.of_lends (owned : system.Owned) {task : Task}
    (lends : Server.Lends task system.server next.server)
    (taken : next.place.taken = system.place.taken) : next.Owned := by
  refine owned.lend (List.perm_iff_count.2 fun unit => ?_) lends.held lends.lent
    fun fd differ => (lends.leaves fd differ).lent
  simp only [units, tasks, completions, Pool.running, lends.items, lends.workers,
    lends.completions, taken, List.count_append, List.count_cons, List.count_nil]
  omega

/-- Taking in a connection that waits concerns its descriptor alone. -/
theorem takeInNext_spec {fd : Fd} {peer : Address} {outgoing : List Transmit}
    {failing : List Call} {rest : List Arrival} {server : Server}
    (taken : system.takeInNext fd peer outgoing failing rest = .ok server) :
    Server.Confined fd system.server server ∧
      server.table.lent fd = system.server.table.lent fd := by
  obtain ⟨confined, lent⟩ := Server.takeIn_spec taken
  have opened := (Server.confined_setArrivals system.server fd rest).trans
    (Server.confined_openSocket _ fd outgoing failing)
  exact ⟨opened.trans confined, lent⟩

/-- A turn that ends gives nothing back and takes nothing. -/
theorem Owned.endTurn (owned : system.Owned) (taken : system.place.taken = []) :
    system.endTurn.Owned := by
  refine owned.of_same rfl ?_ rfl
  simp only [completions, System.endTurn, taken]
  split <;> rfl

theorem Owned.handle (owned : system.Owned) {event : Event} {due : Bool} {server : Server}
    (other : event ≠ .arrivals) (handled : system.server.handle event = .ok (due, server))
    {place : Place} (taken : place.taken = system.place.taken) :
    Owned { system with server, place } := by
  cases event with
  | arrivals => exact (other rfl).elim
  | notices =>
      simp only [Server.handle, Except.ok.injEq] at handled
      have confined := Server.confined_handleNotices system.server
      rw [handled] at confined
      exact owned.of_confined (confined 0) taken (Server.Confined.leaves_all confined 0).lent
  | ready fd readiness =>
      obtain ⟨-, ready⟩ := Server.handleReady_of_handle handled
      rcases Server.handleReady_cases ready with ⟨confined, lent⟩ | ⟨task, rfl, lends⟩
      · exact owned.of_confined confined taken lent
      · exact owned.of_lends lends taken

/-- The completion that is acted on is the one unit of its descriptor. -/
theorem Owned.handleCompletion (owned : system.Owned) {done : Completion}
    {rest : List Completion} {sweepDue : Bool}
    (place : system.place = .settling (done :: rest) sweepDue) :
    Owned { system with
      server := system.server.handleCompletion done
      place := .settling rest sweepDue } := by
  have member : done.task ∈ system.units := by
    simp [units, completions, place, Place.taken]
  obtain ⟨confined, held⟩ := Server.handleCompletion_spec (owned.lent_of_mem member)
  refine owned.settle done.task (List.perm_iff_count.2 fun unit => ?_) held
    fun fd differ => (confined.leaves fd differ).lent
  simp only [units, tasks, completions, place, Place.taken, Pool.running, confined.pool,
    confined.completions, List.count_append, List.count_cons, List.map_append, List.map_cons]
  omega

theorem Owned.advances (owned : system.Owned) (advances : system.Advances next) :
    next.Owned := by
  cases advances with
  | collect place =>
      refine owned.of_same rfl ?_ rfl
      simp [completions, place, Place.taken, Shared.takeCompletions]
  | listen place => exact owned.of_same rfl (by simp [completions, place, Place.taken]) rfl
  | handle place other handled =>
      refine owned.handle other handled ?_
      simp [place, Place.taken]
  | acceptNone place => exact owned.of_same rfl (by simp [completions, place, Place.taken]) rfl
  | acceptAgain => exact owned.of_same rfl rfl rfl
  | acceptFails place =>
      refine owned.of_same rfl ?_ rfl
      simp [completions, place, Place.taken, Server.setArrivals]
  | accept place waiting taken =>
      obtain ⟨confined, lent⟩ := takeInNext_spec taken
      exact owned.of_confined confined rfl lent
  | settle place => exact owned.handleCompletion place
  | beginSweep place =>
      refine owned.of_same rfl ?_ rfl
      simp [completions, place, Place.taken, Server.beginSweep]
  | rest place => exact owned.endTurn (by simp [place, Place.taken])
  | @evict expired rest place =>
      refine owned.of_confined (Server.confined_evict _ expired.1 expired.2) ?_
        (Server.lent_evict _ expired.1 expired.2)
      simp [place, Place.taken]
  | endSweep place =>
      refine Owned.endTurn (owned.of_same rfl rfl rfl) ?_
      simp [place, Place.taken]

/-! ## Runs -/

theorem Owned.step? (owned : system.Owned) {action : Action}
    (stepped : system.step? action = some next) : next.Owned := by
  cases action with
  | outside circumstance =>
      simp only [System.step?, Option.some.injEq] at stepped
      subst stepped
      refine owned.of_same rfl ?_ rfl
      cases circumstance <;> rfl
  | proceed worker => exact owned.proceed? stepped
  | perform worker => exact owned.perform? stepped
  | report worker => exact owned.report? stepped
  | wake worker => exact owned.wake? stepped
  | deliver events => exact owned.deliver? stepped
  | advance => exact owned.advances (.of_advance? stepped)

/-- When the loop starts no connection is open and nothing is under way. -/
theorem owned_launch {settings : Settings} {tree : FileTree} {now : Nat}
    (launched : launch? settings tree now = some system) : system.Owned := by
  obtain ⟨-, rfl⟩ := launch?_eq_some launched
  intro fd
  have idle : (List.replicate settings.threads (Worker.idle : Worker Task)).filterMap
      Worker.task? = [] := by
    simp [Worker.task?]
  have unused : (Slots.ofLimit settings.maxFd).lent fd = none := by
    rw [Slots.lent, Slots.slot?_ofLimit, Option.bind_none]
  simp [start, outstanding, units, tasks, completions, Place.taken, Server.armAlarm,
    Pool.running, Queue.ofCapacity, Shared.start, idle, unused]

theorem Reachable.owned (reachable : Reachable system) : system.Owned := by
  induction reachable with
  | start launched => exact owned_launch launched
  | step _ stepped ih => exact ih.step? stepped

/-! ## What the loop may not touch -/

/-- The number that the kernel hands out for a new connection in the next step of
the loop. -/
def incoming? (system : System) : Option Fd :=
  match system.place, system.server.kernel.arrivals with
  | .accepting _ _, .connection fd _ _ _ :: _ => some fd
  | _, _ => none

/-- While a task is under way there is no completion for its descriptor. -/
theorem Owned.completion_ne (owned : system.Owned) {task : Task} (member : task ∈ system.tasks)
    {done : Completion} (reported : done ∈ system.completions) : done.fd ≠ task.fd := by
  intro same
  have one := owned.outstanding_eq task.fd
  rw [owned.lent_of_mem (List.mem_append_left _ member)] at one
  have first : 0 < (system.tasks.filter fun unit => unit.fd = task.fd).length :=
    List.length_pos_of_mem (List.mem_filter.2 ⟨member, by simp⟩)
  have second : 0 < ((system.completions.map Completion.task).filter
      fun unit => unit.fd = task.fd).length :=
    List.length_pos_of_mem
      (List.mem_filter.2 ⟨List.mem_map_of_mem reported, decide_eq_true same⟩)
  have total := congrArg List.length one
  simp only [outstanding, units, List.filter_append, List.length_append, Option.toList_some,
    List.length_singleton] at total
  omega

/-- No step of the loop touches a connection that there is a task for. -/
theorem Owned.untouched (owned : system.Owned)
    (fresh : ∀ fd, system.incoming? = some fd → system.server.table.custody fd = .free)
    (advances : system.Advances next) {task : Task} (member : task ∈ system.tasks) :
    Server.Untouched task.fd system.server next.server := by
  have lent := owned.lent_of_mem (List.mem_append_left _ member)
  have unchanged {server : Server} (leaves : Server.Leaves task.fd system.server server) :
      Server.Untouched task.fd system.server server := leaves.untouched
  cases advances with
  | collect | beginSweep | endSweep => exact unchanged ⟨rfl, rfl, rfl, rfl⟩
  | listen | acceptNone | rest => exact unchanged (.refl _ _)
  | acceptAgain | acceptFails => exact unchanged ⟨rfl, rfl, rfl, rfl⟩
  | handle place other handled => exact Server.untouched_handle lent other handled
  | @accept events sweepDue fd peer outgoing failing rest server place waiting taken =>
      -- The number is free, so it is not that of the task.
      have unused := fresh fd (by simp [incoming?, place, waiting])
      have apart : task.fd ≠ fd := by
        intro same
        rw [same, Slots.lent_of_free unused] at lent
        cases lent
      exact unchanged ((takeInNext_spec taken).1.leaves _ apart)
  | @settle done rest sweepDue place =>
      have reported : done ∈ system.completions := by
        simp [completions, place, Place.taken]
      have unit : done.task ∈ system.units :=
        List.mem_append_right _ (List.mem_map_of_mem reported)
      obtain ⟨confined, -⟩ := Server.handleCompletion_spec (owned.lent_of_mem unit)
      exact unchanged (confined.leaves _ (Ne.symm (owned.completion_ne member reported)))
  | @evict expired rest place =>
      by_cases mine : task.fd = expired.1
      · rw [mine] at lent ⊢
        exact Server.untouched_evict lent expired.2
      · exact unchanged ((Server.confined_evict _ expired.1 expired.2).leaves _ mine)

/-- Whatever the order in which loop, workers and the world outside take their
steps: a connection that is with the workers has exactly one unit of work under
way, which carries the generation of the slot, and any other descriptor has none.
So tasks and completions meet the connection they are for, and no step of the loop
touches a connection that there is a task for, provided that the kernel does not
hand out a number that is in use. -/
theorem exclusive_ownership (reachable : Reachable system) :
    (∀ fd slot, system.server.table.slot? fd = some slot →
      (slot.custody = .worker ∨ slot.custody = .closing →
        system.outstanding fd = [⟨fd, slot.generation⟩]) ∧
      (slot.custody = .free ∨ slot.custody = .loop → system.outstanding fd = [])) ∧
    (∀ fd, system.server.table.slot? fd = none → system.outstanding fd = []) ∧
    (∀ task ∈ system.tasks, ∃ slot,
      system.server.table.slot? task.fd = some slot ∧ slot.generation = task.generation) ∧
    (∀ done ∈ system.completions, ∃ slot,
      system.server.table.slot? done.fd = some slot ∧ slot.generation = done.generation) ∧
    ((∀ fd, system.incoming? = some fd → system.server.table.custody fd = .free) →
      ∀ next, system.advance? = some next →
        ∀ task ∈ system.tasks, Server.Untouched task.fd system.server next.server) := by
  have owned := reachable.owned
  have current {task : Task} (member : task ∈ system.units) : ∃ slot,
      system.server.table.slot? task.fd = some slot ∧ slot.generation = task.generation := by
    obtain ⟨slot, found, same, -⟩ := Slots.slot?_of_lent (owned.lent_of_mem member)
    exact ⟨slot, found, (congrArg Task.generation same).symm⟩
  refine ⟨?_, ?_, ?_, ?_, ?_⟩
  · intro fd slot found
    rw [owned.outstanding_eq, Slots.lent_of_slot? found]
    constructor
    · rintro (custody | custody) <;> simp [Slot.task?, custody]
    · rintro (custody | custody) <;> simp [Slot.task?, custody]
  · intro fd unknown
    rw [owned.outstanding_eq, Slots.lent, unknown]
    rfl
  · intro task member
    exact current (List.mem_append_left _ member)
  · intro done member
    exact current (List.mem_append_right _ (List.mem_map_of_mem member))
  · intro fresh next stepped task member
    exact owned.untouched fresh (.of_advance? stepped) member

/-- A connection is accepted, read and lent; while a worker has it in its hands the
other side hangs up. -/
def hangupDuringWork : List Action :=
  [.outside (.arrive [.connection 7 ⟨.short [10, 0, 0, 1], 4000⟩ [] []]),
    .deliver [.arrivals], .advance, .advance, .advance, .advance, .advance,
    .outside (.feed 7 [.data [71]] [] []),
    .deliver [.ready 7 ⟨true, false, false⟩], .advance,
    .proceed 0, .proceed 0, .proceed 0, .advance, .advance,
    .deliver [.ready 7 ⟨true, true, true⟩], .advance]

/-- After such a run the connection is to be closed later, and the task is still its
only unit of work. -/
theorem exclusive_ownership_hangup :
    ∃ system : System, Reachable system ∧ system.server.table.custody 7 = .closing ∧
      system.outstanding 7 = [⟨7, 1⟩] := by
  have evaluated : (((launch? {} ⟨0, [], []⟩ 0).bind fun first =>
      first.run? hangupDuringWork).bind fun system =>
        (system.server.table.slot? 7).map fun slot => (slot.custody, slot.generation)) =
      some (.closing, 1) := by decide +kernel
  simp only [Option.bind_eq_some_iff, Option.map_eq_some_iff, Prod.mk.injEq] at evaluated
  obtain ⟨system, ⟨first, launched, ran⟩, slot, found, custody, generation⟩ := evaluated
  have reachable : Reachable system := (Reachable.start launched).run ran
  refine ⟨system, reachable, ?_, ?_⟩
  · rw [Slots.custody_of_slot? found, custody]
  · rw [((exclusive_ownership reachable).1 7 slot found).1 (.inr custody), generation]

end System

end FileServer
