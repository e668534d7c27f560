import FileServer.Proofs.Work.Crew
import Mathlib.Data.List.Nodup
import Mathlib.Data.List.Perm.Basic

/-!
# A task that was accepted is carried out once or dropped

A task comes into the queue, gets a permit, and is removed in sections of three
different threads, and stopping may come in between any two of them.  What is accepted
is at each moment split into three parts in the order of acceptance: what workers have
taken, what was dropped, and what is still in the queue.

Permits and tasks are counted against each other.  A task in the queue has its permit
posted, or its call is about to post it, or a worker has taken the permit and is about
to remove a task.  So a worker with a permit finds a task unless the queue was emptied,
and no worker stops before the pool does.
-/

namespace FileServer

/-- Whether the queue is closed. -/
def Stopping.hasClosed : Stopping → Bool
  | .unbegun | .flagged => false
  | .closed | .joining _ | .returned => true

/-- Whether the queue is emptied. -/
def Stopping.hasDrained : Stopping → Bool
  | .unbegun | .flagged | .closed => false
  | .joining _ | .returned => true

namespace Crew

variable {α : Type}

/-- The number of workers that have not stopped. -/
def working (crew : Crew α) : Nat :=
  crew.pool.workers.countP Worker.isWorking

/-- The number of workers that have a permit and no task yet. -/
def granted (crew : Crew α) : Nat :=
  crew.pool.workers.countP Worker.isGranted

/-- What holds of a crew between any two sections. -/
structure Sound (threads capacity : Nat) (crew : Crew α) : Prop where
  size : crew.pool.workers.length = if crew.stopping = .returned then 0 else threads
  room : crew.pool.queue.capacity = capacity
  bound : crew.pool.queue.items.length ≤ capacity
  order : crew.accepted = crew.taken.map Prod.snd ++ crew.dropped ++ crew.pool.queue.items
  numbers : ((crew.accepted ++ crew.rejected ++ crew.arriving).map Submission.number).Perm
    (List.range crew.calls)
  told : (crew.confirmed ++ crew.posting).Perm crew.accepted
  hands : ∀ worker, crew.takenBy worker = crew.endedBy worker ++ (crew.hand worker).toList
  flag : crew.pool.stopped = true ↔ crew.stopping ≠ .unbegun
  closed : crew.pool.queue.isClosed = crew.stopping.hasClosed
  permits : crew.stopping.hasDrained = false →
    crew.dropped = [] ∧ crew.pool.queue.items.length =
      crew.pool.queue.available.permits + crew.posting.length + crew.granted
  emptied : crew.stopping.hasDrained = true → crew.pool.queue.items = []
  alive : crew.stopping = .unbegun → ∀ worker ∈ crew.pool.workers, worker.isWorking = true
  joined : ∀ count, crew.stopping = .joining count →
    ∀ index < count, crew.pool.workers[index]? = some .stopped

variable {threads capacity : Nat} {crew next : Crew α}

theorem sound_ofPool {pool : Pool (Submission α)}
    (started : Pool.start? threads capacity = some pool) :
    (ofPool pool).Sound threads capacity := by
  unfold Pool.start? at started
  split at started
  · cases started
  · cases started
    have free : ∀ index : Nat, (List.replicate threads (Worker.idle : Worker (Submission α)))[index]?.bind
        Worker.task? = none := by
      intro index
      rw [List.getElem?_replicate]
      split <;> rfl
    refine ⟨List.length_replicate, rfl, Nat.zero_le capacity, rfl, .refl _, .refl _,
      ?_, by simp [ofPool], rfl, ?_, fun _ => rfl, ?_, ?_⟩
    · intro worker
      rw [hand, ofPool, free worker]
      rfl
    · intro _
      refine ⟨rfl, ?_⟩
      simp [ofPool, granted, Queue.ofCapacity, List.countP_replicate, Worker.isGranted]
    · intro _ worker member
      rw [List.eq_of_mem_replicate member]
      rfl
    · intro count wrong
      cases wrong

/-! ## Calls that hand in a task -/

theorem Sound.submit (sound : crew.Sound threads capacity) (task : α) :
    (crew.submit task).Sound threads capacity := by
  have numbered : ∀ {front back : List (Submission α)},
      ((front ++ back).map Submission.number).Perm (List.range crew.calls) →
      ((front ++ ⟨crew.calls, task⟩ :: back).map Submission.number).Perm
        (List.range (crew.calls + 1)) := by
    intro front back perm
    rw [List.range_succ]
    refine (List.perm_middle.map _).trans ?_
    rw [List.map_cons]
    exact (perm.cons _).trans (List.perm_append_singleton _ _).symm
  unfold Crew.submit
  dsimp only
  split
  · refine ⟨sound.size, sound.room, sound.bound, sound.order, ?_, sound.told, sound.hands,
      sound.flag, sound.closed, sound.permits, sound.emptied, sound.alive, sound.joined⟩
    have perm := numbered sound.numbers
    simpa only [List.append_assoc, List.cons_append, List.nil_append] using perm
  · refine ⟨sound.size, sound.room, sound.bound, sound.order, ?_, sound.told, sound.hands,
      sound.flag, sound.closed, sound.permits, sound.emptied, sound.alive, sound.joined⟩
    have perm := @numbered _ [] (by rw [List.append_nil]; exact sound.numbers)
    simpa only [List.append_assoc] using perm

theorem Sound.append (sound : crew.Sound threads capacity) {index : Nat}
    {submission : Submission α} (due : crew.arriving[index]? = some submission) :
    (crew.append index submission).Sound threads capacity := by
  obtain ⟨inside, rfl⟩ := List.getElem?_eq_some_iff.1 due
  have moved : (crew.accepted ++ crew.rejected ++
      crew.arriving[index] :: crew.arriving.eraseIdx index).Perm
      (crew.accepted ++ crew.rejected ++ crew.arriving) :=
    (List.getElem_cons_eraseIdx_perm inside).append_left _
  unfold Crew.append Queue.append?
  by_cases refused : (crew.pool.queue.isClosed ||
      crew.pool.queue.capacity ≤ crew.pool.queue.items.length) = true
  · simp only [refused, ↓reduceIte]
    refine ⟨sound.size, sound.room, sound.bound, sound.order, ?_, sound.told, sound.hands,
      sound.flag, sound.closed, sound.permits, sound.emptied, sound.alive, sound.joined⟩
    refine .trans (.map _ ?_) sound.numbers
    simpa only [List.append_assoc, List.cons_append, List.nil_append] using moved
  · simp only [refused, Bool.false_eq_true, ↓reduceIte]
    rw [Bool.or_eq_true, not_or, Bool.not_eq_true, decide_eq_true_eq, sound.room] at refused
    obtain ⟨isOpen, room⟩ := refused
    have undrained : crew.stopping.hasDrained = false := by
      rw [sound.closed] at isOpen
      cases stopping : crew.stopping <;> simp_all [Stopping.hasClosed, Stopping.hasDrained]
    obtain ⟨undropped, counted⟩ := sound.permits undrained
    refine ⟨sound.size, sound.room, ?_, ?_, ?_, ?_, sound.hands, sound.flag, sound.closed, ?_, ?_,
      sound.alive, sound.joined⟩
    · rw [List.length_append, List.length_singleton]
      omega
    · rw [sound.order, List.append_assoc]
    · refine .trans (.map _ (.trans ?_ moved)) sound.numbers
      simp only [List.append_assoc, List.cons_append, List.nil_append]
      exact List.perm_middle.symm.append_left crew.accepted
    · rw [← List.append_assoc]
      exact sound.told.append_right _
    · intro _
      refine ⟨undropped, ?_⟩
      simp only [List.length_append, List.length_singleton, counted, granted]
      omega
    · intro drained
      cases undrained.symm.trans drained

theorem Sound.post (sound : crew.Sound threads capacity) {index : Nat}
    {submission : Submission α} (due : crew.posting[index]? = some submission) :
    (crew.post index submission).Sound threads capacity := by
  obtain ⟨inside, rfl⟩ := List.getElem?_eq_some_iff.1 due
  refine ⟨sound.size, sound.room, sound.bound, sound.order, sound.numbers, ?_, sound.hands,
    sound.flag, sound.closed, ?_, sound.emptied, sound.alive, sound.joined⟩
  · refine .trans ?_ sound.told
    simp only [Crew.post, List.append_assoc, List.cons_append, List.nil_append]
    exact (List.getElem_cons_eraseIdx_perm inside).append_left crew.confirmed
  · intro undrained
    obtain ⟨undropped, counted⟩ := sound.permits undrained
    refine ⟨undropped, ?_⟩
    simp only [Crew.post, Queue.post, Semaphore.supply, granted, List.length_eraseIdx, inside,
      ↓reduceIte] at counted ⊢
    omega

/-! ## Workers -/

/-- What a worker does to the queue and to itself leaves the other workers alone. -/
theorem hand_set {crew : Crew α} (next : Crew α) {index : Nat}
    {worker changed : Worker (Submission α)}
    (held : crew.pool.workers[index]? = some worker)
    (set : next.pool.workers = crew.pool.workers.set index changed) (other : Nat) :
    next.hand other = if index = other then changed.task? else crew.hand other := by
  obtain ⟨inside, -⟩ := List.getElem?_eq_some_iff.1 held
  rw [hand, set, List.getElem?_set]
  split
  · rfl
  · rfl

theorem countP_set {workers : List (Worker (Submission α))} {index : Nat}
    {worker : Worker (Submission α)} (changed : Worker (Submission α))
    (held : workers[index]? = some worker) (counts : Worker (Submission α) → Bool) :
    (workers.set index changed).countP counts + (if counts worker then 1 else 0) =
      workers.countP counts + if counts changed then 1 else 0 := by
  obtain ⟨inside, rfl⟩ := List.getElem?_eq_some_iff.1 held
  have least : (if counts workers[index] then 1 else 0) ≤ workers.countP counts := by
    split
    · next true => exact List.countP_pos_iff.2 ⟨_, List.getElem_mem inside, true⟩
    · exact Nat.zero_le _
  rw [List.countP_set inside]
  omega

/-- What a section of a worker does to the permits: it leaves the sum of permits and workers
that hold one as it is, unless it removes a task. -/
theorem permits_steps {stopped : Bool} {queue rest : Queue α} {worker changed : Worker α}
    (steps : Worker.Steps stopped queue worker changed rest) :
    rest.available.permits + (if changed.isGranted then 1 else 0) + queue.items.length =
        queue.available.permits + (if worker.isGranted then 1 else 0) + rest.items.length ∨
      worker = .granted ∧ queue.items = [] ∧ changed = .stopped ∧ rest = queue := by
  cases steps with
  | goesOn | leaves | waits | refused | rests => exact .inl rfl
  | gets _ available =>
      refine .inl ?_
      simp only [available, Worker.isGranted]
      rfl
  | takes found =>
      refine .inl ?_
      simp only [found, Worker.isGranted, List.length_cons, Bool.false_eq_true, ↓reduceIte]
      omega
  | misses empty => exact .inr ⟨rfl, empty, rfl, rfl⟩

/-- A worker takes the first task of the queue, and no other changes the tasks. -/
theorem items_steps {stopped : Bool} {queue rest : Queue α} {worker changed : Worker α}
    (steps : Worker.Steps stopped queue worker changed rest) :
    queue.items = changed.task?.toList ++ rest.items ∧ rest.capacity = queue.capacity ∧
      rest.isClosed = queue.isClosed := by
  cases steps with
  | goesOn | leaves | waits | refused | misses | rests | gets => exact ⟨rfl, rfl, rfl⟩
  | takes found => exact ⟨found, rfl, rfl⟩

/-- Unless the queue was emptied, a worker with a permit finds a task. -/
theorem Sound.items_ne_nil (sound : crew.Sound threads capacity) {index : Nat}
    (held : crew.pool.workers[index]? = some .granted)
    (undrained : crew.stopping.hasDrained = false) : crew.pool.queue.items ≠ [] := by
  intro empty
  have some_granted : 0 < crew.granted :=
    List.countP_pos_iff.2 ⟨.granted, List.mem_of_getElem? held, rfl⟩
  have counted := (sound.permits undrained).2
  rw [empty, List.length_nil] at counted
  omega

/-- Before the pool stops, no section makes a worker stop. -/
theorem Sound.keepsWorking (sound : crew.Sound threads capacity) {index : Nat}
    {worker changed : Worker (Submission α)} {rest : Queue (Submission α)}
    (held : crew.pool.workers[index]? = some worker) (unbegun : crew.stopping = .unbegun)
    (steps : Worker.Steps crew.pool.stopped crew.pool.queue worker changed rest) :
    changed.isWorking = true := by
  cases steps with
  | goesOn | waits | gets | takes => rfl
  | leaves set => exact (sound.flag.1 set unbegun).elim
  | refused closed =>
      rw [sound.closed, unbegun] at closed
      cases closed
  | misses empty => exact (sound.items_ne_nil held (by rw [unbegun]; rfl) empty).elim
  | rests => exact sound.alive unbegun _ (List.mem_of_getElem? held)

theorem Sound.work (sound : crew.Sound threads capacity) {index : Nat}
    {worker : Worker (Submission α)} (held : crew.pool.workers[index]? = some worker)
    (worked : crew.work? index worker = some next) : next.Sound threads capacity := by
  unfold Crew.work? at worked
  cases free : worker.task? with
  | some task => simp [free] at worked
  | none =>
      simp only [free, Option.some.injEq] at worked
      have steps := Worker.steps_step free crew.pool.stopped crew.pool.queue
      generalize (worker.step crew.pool.stopped crew.pool.queue).1 = changed at steps worked
      generalize (worker.step crew.pool.stopped crew.pool.queue).2 = rest at steps worked
      obtain ⟨items, sameRoom, sameClosed⟩ := items_steps steps
      have handed := hand_set next held (by rw [← worked])
      have empty : crew.hand index = none := by rw [hand, held, Option.bind_some, free]
      subst worked
      refine ⟨?_, sameRoom.trans sound.room, ?_, ?_, sound.numbers, sound.told, ?_, sound.flag,
        sameClosed.trans sound.closed, ?_, ?_, ?_, ?_⟩
      · rw [List.length_set]
        exact sound.size
      · refine Nat.le_trans ?_ sound.bound
        rw [items, List.length_append]
        exact Nat.le_add_left _ _
      · rw [sound.order, items]
        cases took : changed.task? with
        | none => simp
        | some task =>
            have undrained : crew.stopping.hasDrained = false := by
              rw [Bool.eq_false_iff]
              intro drained
              rw [sound.emptied drained, took] at items
              cases items
            simp [(sound.permits undrained).1]
      · intro other
        have kept := sound.hands other
        rw [handed other]
        cases took : changed.task? with
        | none =>
            have same : (if index = other then none else crew.hand other) = crew.hand other := by
              split
              · next here => rw [← here, empty]
              · rfl
            rw [same]
            simpa [takenBy, endedBy, took] using kept
        | some task =>
            by_cases here : index = other
            · subst here
              rw [empty] at kept
              simpa [takenBy, endedBy, took] using kept
            · simpa [takenBy, endedBy, took, here] using kept
      · intro undrained
        obtain ⟨undropped, counted⟩ := sound.permits undrained
        refine ⟨undropped, ?_⟩
        have grants := countP_set changed held Worker.isGranted
        rcases permits_steps steps with balanced | ⟨rfl, nothing, -⟩
        · simp only [granted] at counted ⊢
          omega
        · exact (sound.items_ne_nil held undrained nothing).elim
      · intro drained
        rw [sound.emptied drained] at items
        exact (List.append_eq_nil_iff.1 items.symm).2
      · intro unbegun other member
        rcases List.mem_or_eq_of_mem_set member with old | rfl
        · exact sound.alive unbegun other old
        · exact sound.keepsWorking held unbegun steps
      · intro count joining other before
        have stopped := sound.joined count joining other before
        rw [List.getElem?_set]
        split
        · next here =>
            subst here
            cases held.symm.trans stopped
            cases steps
            rw [if_pos (List.getElem?_eq_some_iff.1 held).1]
        · exact stopped

/-- A task that ends leaves as many workers as there were. -/
theorem finish?_working {index : Nat} {panicked : Bool} {worker : Worker (Submission α)}
    (held : crew.pool.workers[index]? = some worker)
    (finished : crew.finish? index panicked worker = some next) :
    next.working = crew.working ∧ next.pool.threads = crew.pool.threads := by
  obtain ⟨submission, busy, rfl⟩ := Option.map_eq_some_iff.1 finished
  cases worker with
  | busy task =>
      have same := countP_set ((Worker.busy task).release fun _ => true) held
        Worker.isWorking
      refine ⟨?_, List.length_set⟩
      simp only [Worker.release, Worker.isWorking, ↓reduceIte] at same
      simp only [working, Worker.release, ↓reduceIte]
      omega
  | idle | waiting | granted | stopped => cases busy

theorem Sound.finish (sound : crew.Sound threads capacity) {index : Nat} {panicked : Bool}
    {worker : Worker (Submission α)} (held : crew.pool.workers[index]? = some worker)
    (finished : crew.finish? index panicked worker = some next) : next.Sound threads capacity := by
  obtain ⟨submission, busy, rfl⟩ := Option.map_eq_some_iff.1 finished
  cases worker with
  | idle | waiting | granted | stopped => cases busy
  | busy task =>
      cases busy
      have handed := hand_set { crew with
        pool := { crew.pool with
          workers := crew.pool.workers.set index ((Worker.busy submission).release fun _ => true) }
        ended := crew.ended ++ [((index, submission), panicked)] } held rfl
      have full : crew.hand index = some submission := by rw [hand, held]; rfl
      refine ⟨?_, sound.room, sound.bound, sound.order, sound.numbers, sound.told, ?_, sound.flag,
        sound.closed, ?_, sound.emptied, ?_, ?_⟩
      · rw [List.length_set]
        exact sound.size
      · intro other
        have kept := sound.hands other
        rw [handed other]
        by_cases here : index = other
        · subst here
          rw [full] at kept
          simpa [takenBy, endedBy, Worker.release, Worker.task?] using kept
        · simpa [takenBy, endedBy, here] using kept
      · intro undrained
        obtain ⟨undropped, counted⟩ := sound.permits undrained
        have grants := countP_set ((Worker.busy submission).release fun _ => true) held
          Worker.isGranted
        refine ⟨undropped, ?_⟩
        simp only [Worker.release, Worker.isGranted, granted, Bool.false_eq_true,
          ↓reduceIte] at grants counted ⊢
        omega
      · intro unbegun other member
        rcases List.mem_or_eq_of_mem_set member with old | rfl
        · exact sound.alive unbegun other old
        · rfl
      · intro count joining other before
        have stopped := sound.joined count joining other before
        rw [List.getElem?_set]
        split
        · next here =>
            subst here
            cases held.symm.trans stopped
        · exact stopped

/-! ## Stopping -/

theorem Sound.shutdown (sound : crew.Sound threads capacity)
    (stops : crew.shutdown? = some next) : next.Sound threads capacity := by
  unfold Crew.shutdown? at stops
  cases stopping : crew.stopping with
  | unbegun =>
      simp only [stopping, Option.some.injEq] at stops
      subst stops
      have closed := sound.closed
      have permits := sound.permits
      rw [stopping] at closed permits
      exact ⟨by simpa [stopping] using sound.size, sound.room, sound.bound, sound.order,
        sound.numbers, sound.told, sound.hands, by simp, closed, permits, by simp
        [Stopping.hasDrained], by simp, by simp⟩
  | flagged =>
      simp only [stopping, Option.some.injEq] at stops
      subst stops
      have permits := sound.permits
      have flag := sound.flag
      rw [stopping] at permits flag
      exact ⟨by simpa [stopping] using sound.size, sound.room, sound.bound, sound.order,
        sound.numbers, sound.told, sound.hands, by simpa using flag, rfl, permits, by simp
        [Stopping.hasDrained], by simp, by simp⟩
  | closed =>
      simp only [stopping, Option.some.injEq] at stops
      subst stops
      obtain ⟨undropped, -⟩ := sound.permits (by rw [stopping]; rfl)
      have flag := sound.flag
      have closed := sound.closed
      rw [stopping] at flag closed
      refine ⟨by simpa [stopping] using sound.size, sound.room, Nat.zero_le capacity, ?_,
        sound.numbers, sound.told, sound.hands, by simpa using flag, closed, by simp
        [Stopping.hasDrained], fun _ => rfl, by simp, ?_⟩
      · simp [sound.order, undropped, Queue.drain]
      · intro count none index before
        cases none
        omega
  | joining count =>
      have flag : crew.pool.stopped = true := sound.flag.2 (by simp [stopping])
      have closed := sound.closed
      have emptied := sound.emptied
      have stopped := sound.joined count stopping
      rw [stopping] at closed emptied
      simp only [stopping] at stops
      split at stops
      · next behind =>
          cases stops
          have free : ∀ other, crew.hand other = none := by
            intro other
            rcases Nat.lt_or_ge other count with before | after
            · rw [hand, stopped other before]
              rfl
            · have outside := List.getElem?_eq_none_iff.1 behind
              rw [hand, List.getElem?_eq_none (Nat.le_trans outside after)]
              rfl
          refine ⟨rfl, sound.room, sound.bound, sound.order, sound.numbers, sound.told, ?_,
            by simpa using flag, closed, by simp [Stopping.hasDrained], emptied, by simp, by simp⟩
          intro other
          have kept := sound.hands other
          rw [free other] at kept
          simpa [hand, takenBy, endedBy] using kept
      · next found =>
          cases stops
          refine ⟨by simpa [stopping] using sound.size, sound.room, sound.bound, sound.order,
            sound.numbers, sound.told, sound.hands, by simpa using flag, closed,
            by simp [Stopping.hasDrained], emptied, by simp, ?_⟩
          intro more same other before
          cases same
          rcases Nat.lt_succ_iff_lt_or_eq.1 before with early | rfl
          · exact stopped other early
          · exact found
      · cases stops
  | returned =>
      simp only [stopping, Option.some.injEq] at stops
      exact stops ▸ sound

/-! ## Runs -/

/-- Whichever section is next, the books stay in order. -/
theorem Sound.step? (sound : crew.Sound threads capacity) {first : Section α}
    (stepped : crew.step? first = some next) : next.Sound threads capacity := by
  cases first with
  | submit task =>
      cases stepped
      exact sound.submit task
  | append index =>
      obtain ⟨submission, due, rfl⟩ := Option.map_eq_some_iff.1 stepped
      exact sound.append due
  | post index =>
      obtain ⟨submission, due, rfl⟩ := Option.map_eq_some_iff.1 stepped
      exact sound.post due
  | work index =>
      obtain ⟨worker, held, worked⟩ := Option.bind_eq_some_iff.1 stepped
      exact sound.work held worked
  | finish index panicked =>
      obtain ⟨worker, held, finished⟩ := Option.bind_eq_some_iff.1 stepped
      exact sound.finish held finished
  | shutdown => exact sound.shutdown stepped

theorem Sound.run? (sound : crew.Sound threads capacity) {sections : List (Section α)}
    (ran : crew.run? sections = some next) : next.Sound threads capacity := by
  induction sections generalizing crew with
  | nil =>
      cases ran
      exact sound
  | cons first rest ih =>
      obtain ⟨middle, stepped, ranOn⟩ := Option.bind_eq_some_iff.1 ran
      exact ih (sound.step? stepped) ranOn

/-- No task has two numbers' calls: what was accepted, rejected and is arriving are different
submissions. -/
theorem Sound.nodup (sound : crew.Sound threads capacity) :
    (crew.accepted ++ crew.rejected ++ crew.arriving).Nodup :=
  List.Nodup.of_map Submission.number (sound.numbers.nodup_iff.2 List.nodup_range)

/-- Each task is carried out once or dropped.  Let the calls of a pool come in any order,
section by section.  The accepted tasks are, in this order, those that were taken, those that
were dropped, and those in the queue, of which there are no more than the capacity; all
accepted and rejected tasks are different, and each call that has returned told which its task
is.  What a worker has taken has come to its end, but for the last task, which may be in its
hands.  A task that ends, with a panic or without, leaves the number of workers as it is, and
none stops before the pool does.  As long as the pool is not stopped and the queue has tasks,
no call is about to post and no worker about to remove one, there is a permit, and a waiting
worker gets it.  Once the pool has stopped, no task is queued or in any hands. -/
theorem each_task_once {pool : Pool (Submission α)}
    (started : Pool.start? threads capacity = some pool) {sections : List (Section α)}
    (ran : (ofPool pool).run? sections = some crew) :
    crew.accepted = crew.taken.map Prod.snd ++ crew.dropped ++ crew.pool.queue.items ∧
    (crew.taken.map Prod.snd ++ crew.dropped ++ crew.pool.queue.items ++ crew.rejected).Nodup ∧
    (crew.confirmed ++ crew.posting).Perm crew.accepted ∧
    (∀ worker, crew.takenBy worker = crew.endedBy worker ++ (crew.hand worker).toList) ∧
    crew.pool.queue.items.length ≤ capacity ∧
    (∀ index panicked next, crew.step? (.finish index panicked) = some next →
      next.working = crew.working ∧ next.pool.threads = crew.pool.threads) ∧
    (crew.pool.stopped = false → crew.working = threads) ∧
    (crew.pool.stopped = false → crew.pool.queue.items ≠ [] → crew.posting = [] →
      Worker.granted ∉ crew.pool.workers →
      0 < crew.pool.queue.available.permits ∧ crew.pool.queue.wait.1 = .granted) ∧
    (crew.stopping = .returned → crew.pool.queue.items = [] ∧
      crew.accepted = crew.taken.map Prod.snd ++ crew.dropped ∧
      ∀ worker, crew.takenBy worker = crew.endedBy worker) := by
  have sound := (sound_ofPool started).run? ran
  have unstopped (unset : crew.pool.stopped = false) : crew.stopping = .unbegun := by
    by_contra begun
    rw [sound.flag.2 begun] at unset
    cases unset
  have different := (List.nodup_append.1 sound.nodup).1
  rw [sound.order] at different
  refine ⟨sound.order, different, sound.told, sound.hands, sound.bound,
    ?_, ?_, ?_, ?_⟩
  · intro index panicked next stepped
    obtain ⟨worker, held, finished⟩ := Option.bind_eq_some_iff.1 stepped
    exact finish?_working held finished
  · intro unset
    have unbegun := unstopped unset
    have size := sound.size
    rw [unbegun, if_neg (by simp)] at size
    rw [← size]
    exact List.countP_eq_length.2 (sound.alive unbegun)
  · intro unset filled posted free
    have unbegun := unstopped unset
    obtain ⟨-, counted⟩ := sound.permits (by rw [unbegun]; rfl)
    have none_granted : crew.granted = 0 := by
      refine List.countP_eq_zero.2 fun worker member grants => ?_
      cases worker with
      | granted => exact free member
      | idle | waiting | busy | stopped => cases grants
    have some_items := List.length_pos_iff.2 filled
    rw [posted, none_granted, List.length_nil] at counted
    have available : 0 < crew.pool.queue.available.permits := by omega
    have isOpen : crew.pool.queue.isClosed = false := by
      rw [sound.closed, unbegun]
      rfl
    exact ⟨available, Semaphore.attempt_granted_iff.2 ⟨isOpen, available⟩⟩
  · intro returned
    have empty := sound.emptied (by rw [returned]; rfl)
    have size := sound.size
    rw [returned, if_pos rfl, List.length_eq_zero_iff] at size
    refine ⟨empty, by rw [sound.order, empty, List.append_nil], fun worker => ?_⟩
    have kept := sound.hands worker
    rwa [hand, size, List.getElem?_nil, Option.bind_none, Option.toList_none, List.append_nil]
      at kept

/-- One worker and room for one task. -/
def smallPool : Pool (Submission Nat) :=
  ⟨.ofCapacity 1, [.idle], false⟩

/-- The second task finds the queue full, the first one is
taken and panics while the pool stops, and the third one is dropped. -/
def shortLife : List (Section Nat) :=
  [.submit 70, .append 0, .submit 71, .append 0, .work 0, .work 0, .post 0, .work 0, .work 0,
    .submit 72, .append 0, .shutdown, .post 0, .shutdown, .finish 0 true, .shutdown, .work 0,
    .shutdown, .shutdown]

theorem each_task_once_short :
    ∃ crew : Crew Nat, (ofPool smallPool).run? shortLife = some crew ∧
      crew.stopping = .returned ∧ crew.rejected = [⟨1, 71⟩] ∧
      crew.taken = [(0, ⟨0, 70⟩)] ∧ crew.dropped = [⟨2, 72⟩] ∧
      crew.accepted = [⟨0, 70⟩, ⟨2, 72⟩] ∧ crew.endedBy 0 = [⟨0, 70⟩] := by
  have result : ((ofPool smallPool).run? shortLife).map
      (fun crew => (crew.stopping, crew.rejected, crew.taken, crew.dropped)) =
      some (.returned, [⟨1, 71⟩], [(0, ⟨0, 70⟩)], [⟨2, 72⟩]) := rfl
  obtain ⟨crew, ran, seen⟩ := Option.map_eq_some_iff.1 result
  obtain ⟨returned, rejected, taken, dropped⟩ : crew.stopping = .returned ∧
      crew.rejected = [⟨1, 71⟩] ∧ crew.taken = [(0, ⟨0, 70⟩)] ∧ crew.dropped = [⟨2, 72⟩] := by
    simpa using seen
  have started : Pool.start? 1 1 = some smallPool := rfl
  obtain ⟨-, -, -, -, -, -, -, -, stopped⟩ := each_task_once started ran
  obtain ⟨-, accepted, ended⟩ := stopped returned
  refine ⟨crew, ran, returned, rejected, taken, dropped, ?_, ?_⟩
  · rw [accepted, taken, dropped]
    rfl
  · rw [← ended 0, takenBy, taken]
    rfl

end Crew

end FileServer
