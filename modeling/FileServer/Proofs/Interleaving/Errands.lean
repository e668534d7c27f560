import FileServer.Proofs.Exchange.History
import FileServer.Proofs.Interleaving.Ownership

/-!
# What the work on a connection has come to

A unit of work is on an errand: its task waits in the queue, is in the hands of a
worker before or after the work on the connection, or is reported by a completion.
What the loop does with the connection later depends on the outcome alone, so the
outcome has to fit the connection for as long as the errand lasts.  It does: the
connection is lent for the errand, and nobody else touches it.
-/

namespace FileServer

/-- What a worker has found out about the task in its hands. -/
def Stage.outcome? : Stage → Option Processed
  | .worked outcome => some outcome
  | .clear | .reported => none

namespace Connection

/-- The state of a connection that an errand has come so far with. -/
def Fits (connection : Connection) : Option Processed → Prop
  | none => connection.isAnswering = false
  | some .needMore => connection.isAnswering = false ∧ connection.input.used < inputCapacity
  | some .respond => connection.isAnswering = true
  | some .close => True

/-- An answer that was just made is to be sent. -/
theorem Answers.isAnswering {before after : Connection} {reply : Reply}
    (answers : before.Answers after reply) : after.isAnswering = true := by
  have filled : 0 < after.output.used := by
    rw [answers.head.used]
    exact List.length_pos_iff.2 (reply.text_ne_nil after.keepAlive)
  have sent := answers.haveSent
  have total := answers.toSend
  simp only [Connection.isAnswering, decide_eq_true_eq]
  omega

/-- The outcome of working on the received bytes fits the connection. -/
theorem fits_process {before after : Connection} {tree : FileTree} {root : Text}
    {outcome : Processed} (unanswered : before.isAnswering = false)
    (processed : before.process? tree root = some (outcome, after)) :
    after.Fits (some outcome) := by
  obtain ⟨verdict, parser, -, worked⟩ := process?_cases processed
  rcases worked with ⟨rfl, rfl, rfl⟩ | ⟨reply, replied, responded⟩
  · refine ⟨unanswered, ?_⟩
    unfold process? at processed
    split at processed
    · cases processed
    · next verdict parser advanced =>
        dsimp only at processed
        split at processed
        · next waiting =>
            cases verdict with
            | incomplete =>
                simp only [reply?] at waiting
                split at waiting
                · assumption
                · cases waiting
            | complete | malformed => cases waiting
        · next reply found =>
            simp only [Option.some.injEq] at processed
            rcases respond_cases { before with parser } reply with
              ⟨next, answered, -⟩ | ⟨next, refused, -⟩
            · cases answered.symm.trans processed
            · cases refused.symm.trans processed
  · rcases respond_cases { before with parser } reply with
      ⟨next, answered, answers⟩ | ⟨next, refused, -⟩
    · cases responded.symm.trans answered
      exact answers.isAnswering
    · cases responded.symm.trans refused
      trivial

end Connection

/-- Work on a task changes the connection alone. -/
theorem Task.work_eq (task : Task) (tree : FileTree) (root : Text) (slot : Slot) :
    ∃ connection, (task.work tree root slot).2 = { slot with connection } := by
  simp only [work]
  split
  · split <;> exact ⟨_, rfl⟩
  · exact ⟨_, rfl⟩

/-- The outcome of a task fits the connection that it was worked on. -/
theorem Task.fits_work (task : Task) (tree : FileTree) (root : Text) {slot : Slot}
    (unanswered : slot.connection.isAnswering = false) :
    (task.work tree root slot).2.connection.Fits (some (task.work tree root slot).1) := by
  simp only [work]
  split
  · split
    · next processed => exact Connection.fits_process unanswered processed
    · trivial
  · trivial

namespace Server

/-- The connection of a descriptor is as it was, whoever may touch it. -/
def SameConnection (fd : Fd) (before after : Server) : Prop :=
  (after.table.slot? fd).map Slot.connection = (before.table.slot? fd).map Slot.connection

/-- What is not touched keeps its connection. -/
theorem Untouched.sameConnection {fd : Fd} {before after : Server}
    (untouched : Untouched fd before after) : SameConnection fd before after := by
  rcases untouched.slot with same | later
  · exact congrArg _ same
  · rw [SameConnection, later, Option.map_map]
    congr 1
    funext slot
    cases custody : slot.custody <;> simp [Slot.deferClose, custody]

end Server

namespace System

variable {system next : System}

/-- A task on its way, and the outcome of the work once that is done. -/
inductive Errand (system : System) : Task → Option Processed → Prop
  | queued {task : Task} (waiting : task ∈ system.server.pool.queue.items) :
      Errand system task none
  | held {index : Nat} {task : Task} {stage : Stage}
      (worker : system.server.pool.workers[index]? = some (.busy task))
      (reached : system.stages[index]? = some stage) : Errand system task stage.outcome?
  | reported {done : Completion} (left : done ∈ system.completions) :
      Errand system done.task (some done.outcome)

/-- Whatever is on an errand is a unit of work. -/
theorem Errand.unit {task : Task} {progress : Option Processed}
    (errand : system.Errand task progress) : task ∈ system.units := by
  cases errand with
  | queued waiting =>
      exact List.mem_append_left _ (List.mem_append_left _ waiting)
  | held worker =>
      apply List.mem_append_left
      apply List.mem_append_right
      exact List.mem_filterMap.2 ⟨_, List.mem_of_getElem? worker, rfl⟩
  | reported left => exact List.mem_append_right _ (List.mem_map_of_mem left)

/-- Errands that are still under way were under way before. -/
theorem Errand.mono {task : Task} {progress : Option Processed}
    (errand : next.Errand task progress) (pool : next.server.pool = system.server.pool)
    (stages : next.stages = system.stages)
    (completions : ∀ done ∈ next.completions, done ∈ system.completions) :
    system.Errand task progress := by
  cases errand with
  | queued waiting => exact .queued (pool ▸ waiting)
  | held worker reached => exact .held (pool ▸ worker) (stages ▸ reached)
  | reported left => exact .reported (completions _ left)

/-- Apart from one unit of work for a descriptor, all units are for others. -/
theorem Owned.apart (owned : system.Owned) {task : Task} {others : List Task}
    (units : system.units.Perm (task :: others)) {other : Task} (member : other ∈ others) :
    other.fd ≠ task.fd := by
  intro same
  have filtered := (units.filter fun unit => decide (unit.fd = task.fd)).length_eq
  have one := congrArg List.length (owned.outstanding_eq task.fd)
  rw [owned.lent_of_mem (units.symm.subset List.mem_cons_self)] at one
  have second : 0 < (others.filter fun unit => unit.fd = task.fd).length :=
    List.length_pos_of_mem (List.mem_filter.2 ⟨member, by simpa using same⟩)
  simp only [outstanding, Option.toList_some, List.length_singleton] at one
  rw [List.filter_cons_of_pos (by simp), List.length_cons] at filtered
  omega

/-- The units of work besides the task in the hands of one worker. -/
theorem units_of_busy {index : Nat} {task : Task}
    (worker : system.server.pool.workers[index]? = some (.busy task)) :
    system.units.Perm (task :: (system.server.pool.queue.items ++
      (system.server.pool.workers.set index .idle).filterMap Worker.task? ++
        system.completions.map Completion.task)) := by
  refine List.perm_iff_count.2 fun unit => ?_
  have exchanged := (filterMap_set_perm Worker.task? worker .idle).count_eq unit
  simp only [Worker.task?, Option.toList_some, Option.toList_none, List.count_append,
    List.count_cons, List.count_nil, List.nil_append] at exchanged
  simp only [units, tasks, Pool.running, List.count_append, List.count_cons]
  omega

/-- While one worker goes on with its task, any other errand is for another
descriptor. -/
theorem Errand.besides {index : Nat} {task other : Task} {progress : Option Processed}
    (errand : next.Errand other progress) (owned : system.Owned)
    (worker : system.server.pool.workers[index]? = some (.busy task))
    (items : next.server.pool.queue.items = system.server.pool.queue.items)
    (workers : next.server.pool.workers = system.server.pool.workers)
    (stages : ∀ position, position ≠ index → next.stages[position]? = system.stages[position]?)
    (completions : next.completions = system.completions) :
    (∃ stage, other = task ∧ next.stages[index]? = some stage ∧ progress = stage.outcome?) ∨
      system.Errand other progress ∧ other.fd ≠ task.fd := by
  have apart := @Owned.apart _ owned _ _ (units_of_busy worker) other
  cases errand with
  | queued waiting =>
      rw [items] at waiting
      refine .inr ⟨.queued waiting, apart ?_⟩
      exact List.mem_append_left _ (List.mem_append_left _ waiting)
  | @held position _ stage busy reached =>
      rw [workers] at busy
      by_cases same : position = index
      · subst same
        cases worker.symm.trans busy
        exact .inl ⟨stage, rfl, reached, rfl⟩
      · rw [stages position same] at reached
        refine .inr ⟨.held busy reached, apart ?_⟩
        apply List.mem_append_left
        apply List.mem_append_right
        refine List.mem_filterMap.2 ⟨.busy other, ?_, rfl⟩
        apply List.mem_of_getElem? (i := position)
        rw [List.getElem?_set_ne (Ne.symm same), busy]
  | reported left =>
      rw [completions] at left
      exact .inr ⟨.reported left, apart (List.mem_append_right _ (List.mem_map_of_mem left))⟩

/-- Every errand has come as far as its connection shows. -/
def Faithful (system : System) : Prop :=
  ∀ task progress, system.Errand task progress →
    ∀ slot, system.server.table.slot? task.fd = some slot → slot.connection.Fits progress

/-- There is no errand for a connection that is not lent. -/
theorem Errand.fd_ne (owned : system.Owned) {fd : Fd} (held : system.server.table.lent fd = none)
    {task : Task} {progress : Option Processed} (errand : system.Errand task progress) :
    task.fd ≠ fd := by
  intro same
  have lent := owned.lent_of_mem errand.unit
  rw [same, held] at lent
  cases lent

/-- Errands are as far as before while there are only fewer of them and their
connections stay as they are. -/
theorem Faithful.mono (faithful : system.Faithful)
    (errands : ∀ task progress, next.Errand task progress → system.Errand task progress)
    (connections : ∀ task progress, next.Errand task progress →
      Server.SameConnection task.fd system.server next.server) : next.Faithful := by
  intro task progress errand slot found
  have same := connections task progress errand
  rw [Server.SameConnection, found, Option.map_some] at same
  obtain ⟨before, present, equal⟩ := Option.map_eq_some_iff.1 same.symm
  rw [← equal]
  exact faithful task progress (errands task progress errand) before present

/-! ## Steps of the workers -/

/-- A worker that runs a section of the pool only moves a task on. -/
theorem Errand.of_proceed? {index : Nat} (stepped : system.proceed? index = some next)
    {task : Task} {progress : Option Processed} (errand : next.Errand task progress) :
    system.Errand task progress := by
  simp only [System.proceed?] at stepped
  split at stepped
  · next worker present clear =>
      cases stepped
      have moved := Worker.step_perm system.server.pool.stopped system.server.pool.queue worker
      -- A task that the worker has now came from the queue or was in its hands.
      have before (member : task ∈ (worker.step system.server.pool.stopped
          system.server.pool.queue).2.items ++ (worker.step system.server.pool.stopped
            system.server.pool.queue).1.task?.toList) : system.Errand task none := by
        rcases List.mem_append.1 (moved.subset member) with waiting | busy
        · exact .queued waiting
        · cases worker with
          | busy held =>
              simp only [Worker.task?, Option.toList_some, List.mem_singleton] at busy
              subst busy
              exact .held present clear
          | idle | waiting | granted | stopped => simp [Worker.task?] at busy
      cases errand with
      | queued waiting => exact before (List.mem_append_left _ waiting)
      | @held position _ stage busy reached =>
          simp only [Server.setWorker, Server.setQueue] at busy
          by_cases same : index = position
          · subst same
            cases clear.symm.trans reached
            have inside := (List.getElem?_eq_some_iff.1 present).1
            rw [List.getElem?_set_self inside, Option.some.injEq] at busy
            refine before (List.mem_append_right _ ?_)
            rw [busy]
            simp [Worker.task?]
          · rw [List.getElem?_set_ne same] at busy
            exact .held busy reached
      | reported left => exact .reported left
  · cases stepped

theorem Faithful.proceed? (faithful : system.Faithful) {index : Nat}
    (stepped : system.proceed? index = some next) : next.Faithful := by
  refine faithful.mono (fun _ _ errand => errand.of_proceed? stepped) ?_
  simp only [System.proceed?] at stepped
  split at stepped
  · cases stepped
    exact fun _ _ _ => rfl
  · cases stepped

/-- A worker without a report yet works on the connection of its task. -/
theorem perform?_eq_some {index : Nat} (stepped : system.perform? index = some next) :
    ∃ task slot, system.server.pool.workers[index]? = some (.busy task) ∧
      system.stages[index]? = some .clear ∧
      system.server.table.slot? task.fd = some slot ∧
      next = { system with
        server := { system.server.putSlot task.fd
            (task.work system.server.tree system.server.settings.docRoot slot).2 with
          shared := (task.perform system.server.tree system.server.settings.docRoot slot
            system.server.shared).2.2 }
        stages := system.stages.set index
          (.worked (task.work system.server.tree system.server.settings.docRoot slot).1) } := by
  simp only [System.perform?] at stepped
  split at stepped
  · next task busy clear =>
      split at stepped
      · cases stepped
      · next slot found =>
          cases stepped
          exact ⟨task, slot, busy, clear, found, rfl⟩
  · cases stepped

/-- A worker that has worked on a connection knows an outcome that fits it. -/
theorem Faithful.perform? (faithful : system.Faithful) (owned : system.Owned) {index : Nat}
    (stepped : system.perform? index = some next) : next.Faithful := by
  obtain ⟨task, slot, busy, clear, found, rfl⟩ := perform?_eq_some stepped
  have unanswered := faithful task none (.held busy clear) slot found
  intro other progress errand held present
  have completions := completions_perform task system.server.tree system.server.settings.docRoot
    slot system.server.shared
  rcases errand.besides owned busy rfl rfl
      (fun position differ => List.getElem?_set_ne (Ne.symm differ))
      (congrArg (system.place.taken ++ ·) completions) with
    ⟨stage, rfl, reached, rfl⟩ | ⟨before, differ⟩
  · have inside := (List.getElem?_eq_some_iff.1 clear).1
    rw [List.getElem?_set_self inside] at reached
    cases reached
    change (system.server.table.set other.fd _).slot? other.fd = _ at present
    rw [Slots.slot?_set_of_slot? found] at present
    cases present
    exact other.fits_work _ _ unanswered
  · change (system.server.table.set task.fd _).slot? other.fd = _ at present
    rw [Slots.slot?_set_of_ne differ] at present
    exact faithful other progress before held present

/-- A completion says what its worker has found out. -/
theorem Errand.of_report? {index : Nat} (stepped : system.report? index = some next)
    {other : Task} {progress : Option Processed} (errand : next.Errand other progress) :
    system.Errand other progress := by
  simp only [System.report?] at stepped
  split at stepped
  · next task outcome busy worked =>
      cases stepped
      cases errand with
      | queued waiting => exact .queued waiting
      | @held position _ stage worker reached =>
          by_cases same : index = position
          · subst same
            have inside := (List.getElem?_eq_some_iff.1 busy).1
            simp only [Server.setWorker, List.getElem?_set_self inside, Option.some.injEq,
              reduceCtorEq] at worker
          · rw [List.getElem?_set_ne same] at reached
            simp only [Server.setWorker, List.getElem?_set_ne same] at worker
            exact .held worker reached
      | @reported done left =>
          simp only [completions, Server.setWorker, Shared.append, ← List.append_assoc] at left
          rcases List.mem_append.1 left with before | new
          · exact .reported before
          · rw [List.mem_singleton] at new
            subst new
            exact .held busy worked
  · cases stepped

theorem Faithful.report? (faithful : system.Faithful) {index : Nat}
    (stepped : system.report? index = some next) : next.Faithful := by
  refine faithful.mono (fun _ _ errand => errand.of_report? stepped) ?_
  simp only [System.report?] at stepped
  split at stepped
  · cases stepped
    exact fun _ _ _ => rfl
  · cases stepped

/-- Waking the loop ends no errand and begins none. -/
theorem Errand.of_wake? {index : Nat} (stepped : system.wake? index = some next)
    {other : Task} {progress : Option Processed} (errand : next.Errand other progress) :
    system.Errand other progress := by
  simp only [System.wake?] at stepped
  split at stepped
  · next reported =>
      cases stepped
      cases errand with
      | queued waiting => exact .queued waiting
      | @held position _ stage worker reached =>
          by_cases same : index = position
          · subst same
            have inside := (List.getElem?_eq_some_iff.1 reported).1
            rw [List.getElem?_set_self inside] at reached
            cases reached
            exact @Errand.held system index other .reported worker reported
          · rw [List.getElem?_set_ne same] at reached
            exact .held worker reached
      | reported left => exact .reported left
  · cases stepped

theorem Faithful.wake? (faithful : system.Faithful) {index : Nat}
    (stepped : system.wake? index = some next) : next.Faithful := by
  refine faithful.mono (fun _ _ errand => errand.of_wake? stepped) ?_
  simp only [System.wake?] at stepped
  split at stepped
  · cases stepped
    exact fun _ _ _ => rfl
  · cases stepped

/-! ## Steps of the loop -/

/-- A handler that is confined to one descriptor begins no errand. -/
theorem Errand.of_confined {fd : Fd} {task : Task} {progress : Option Processed}
    (errand : next.Errand task progress)
    (confined : Server.Confined fd system.server next.server) (stages : next.stages = system.stages)
    (taken : ∀ done ∈ next.place.taken, done ∈ system.place.taken) :
    system.Errand task progress := by
  refine errand.mono confined.pool stages fun done left => ?_
  rcases List.mem_append.1 left with early | late
  · exact List.mem_append_left _ (taken done early)
  · exact List.mem_append_right _ (confined.completions ▸ late)

/-- The loop changes the connection of one descriptor at most, and only one that is
not lent, and takes no completion back. -/
theorem Faithful.of_confined (faithful : system.Faithful) (owned : next.Owned) {fd : Fd}
    (confined : Server.Confined fd system.server next.server) (stages : next.stages = system.stages)
    (taken : ∀ done ∈ next.place.taken, done ∈ system.place.taken)
    (unlent : next.server.table.lent fd = none ∨
      Server.SameConnection fd system.server next.server) : next.Faithful := by
  refine faithful.mono (fun _ _ errand => errand.of_confined confined stages taken) ?_
  intro task progress errand
  by_cases mine : task.fd = fd
  · rcases unlent with held | same
    · exact (errand.fd_ne owned held mine).elim
    · exact mine ▸ same
  · exact congrArg _ (confined.leaves task.fd mine).slot

/-- A step that leaves connections, tasks and completions alone. -/
theorem Faithful.of_same (faithful : system.Faithful)
    (pool : next.server.pool = system.server.pool) (stages : next.stages = system.stages)
    (completions : next.completions = system.completions)
    (table : next.server.table = system.server.table) : next.Faithful := by
  refine faithful.mono ?_ ?_
  · intro task progress errand
    exact errand.mono pool stages fun done left => completions ▸ left
  · intro task progress _
    rw [Server.SameConnection, table]

/-- Handing a connection over begins one errand. -/
theorem Errand.of_lends {task other : Task} {progress : Option Processed}
    (errand : next.Errand other progress) (lends : Server.Lends task system.server next.server)
    (stages : next.stages = system.stages) (taken : next.place.taken = system.place.taken) :
    system.Errand other progress ∨ other = task ∧ progress = none := by
  cases errand with
  | queued waiting =>
      rw [lends.items] at waiting
      rcases List.mem_append.1 waiting with old | new
      · exact .inl (.queued old)
      · exact .inr ⟨List.mem_singleton.1 new, rfl⟩
  | held worker reached =>
      rw [lends.workers] at worker
      rw [stages] at reached
      exact .inl (.held worker reached)
  | reported left =>
      rw [completions, taken, lends.completions] at left
      exact .inl (.reported left)

/-- A connection that is handed over without an answer under way. -/
theorem Faithful.of_lends (faithful : system.Faithful) (owned : system.Owned) {task : Task}
    (lends : Server.Lends task system.server next.server) (stages : next.stages = system.stages)
    (taken : next.place.taken = system.place.taken)
    (unanswered : ∀ slot, next.server.table.slot? task.fd = some slot →
      slot.connection.isAnswering = false) : next.Faithful := by
  intro other progress errand slot found
  rcases errand.of_lends lends stages taken with before | ⟨rfl, rfl⟩
  · have differ := before.fd_ne owned lends.held
    rw [(lends.leaves other.fd differ).slot] at found
    exact faithful other progress before slot found
  · exact unanswered slot found

/-- The loop begins an errand only for a connection that it hands over. -/
theorem Errand.of_advances (owned : system.Owned) (advances : system.Advances next) {task : Task}
    {progress : Option Processed} (errand : next.Errand task progress) :
    system.Errand task progress ∨
      progress = none ∧ system.server.table.lent task.fd = none := by
  cases advances with
  | collect position =>
      refine .inl (errand.mono rfl rfl fun done left => ?_)
      simpa [completions, position, Place.taken, Shared.takeCompletions] using left
  | listen position | acceptNone position | acceptFails position =>
      refine .inl (errand.mono rfl rfl fun done left => ?_)
      simpa [completions, position, Place.taken, Server.setArrivals] using left
  | acceptAgain => exact .inl (errand.mono rfl rfl fun _ left => left)
  | @handle event events sweepDue due server position other handled =>
      have taken : (Place.serving events (sweepDue || due)).taken = system.place.taken := by
        rw [position]
        rfl
      cases event with
      | arrivals => exact (other rfl).elim
      | notices =>
          simp only [Server.handle, Except.ok.injEq] at handled
          have confined := Server.confined_handleNotices system.server 0
          rw [handled] at confined
          exact .inl (errand.of_confined confined rfl fun _ left => taken ▸ left)
      | ready fd readiness =>
          obtain ⟨-, acted⟩ := Server.handleReady_of_handle handled
          rcases Server.handleReady_cases acted with ⟨confined, -⟩ | ⟨new, -, lends⟩
          · exact .inl (errand.of_confined confined rfl fun _ left => taken ▸ left)
          · rcases errand.of_lends lends rfl taken with before | ⟨rfl, first⟩
            · exact .inl before
            · exact .inr ⟨first, lends.held⟩
  | accept position waiting accepted =>
      exact .inl (errand.of_confined (takeInNext_spec accepted).1 rfl fun _ left => left)
  | @settle done rest sweepDue position =>
      obtain ⟨confined, -⟩ := Server.handleCompletion_spec (owned.lent_of_settling position)
      refine .inl (errand.of_confined confined rfl fun other remains => ?_)
      simp only [position, Place.taken] at remains ⊢
      exact List.mem_cons_of_mem done remains
  | beginSweep position =>
      refine .inl (errand.mono rfl rfl fun done left => ?_)
      simpa [completions, position, Place.taken, Server.beginSweep] using left
  | rest position =>
      refine .inl (errand.mono rfl rfl fun done left => ?_)
      simp only [completions, endTurn] at left ⊢
      split at left <;> simpa [position, Place.taken] using left
  | @evict expired rest position =>
      have confined := Server.confined_evict system.server expired.1 expired.2
      exact .inl (errand.of_confined confined rfl (by simp [Place.taken]))
  | endSweep position =>
      refine .inl (errand.mono rfl rfl fun done left => ?_)
      simp only [completions, endTurn] at left ⊢
      split at left <;> simpa [position, Place.taken, Server.endSweep] using left

end System

end FileServer
