import FileServer.Proofs.Work.QueueCalls
import Mathlib.Data.List.Induction

/-!
# A queue hands on its items first in, first out

However the sections of the calls of a queue follow one another, no item is lost, doubled or
passed by another one: those that were removed, and then those that are still inside, are
those that came in, in this order.  A call that puts an item in is refused only by a queue
that it finds closed or full.  A queue that was closed and then emptied stays empty, since
nothing is appended to a closed queue.

The items and the permits have locks of their own, so their numbers differ while calls are
underway.  As long as the queue is emptied only after it was closed, the difference is just
the calls that have appended an item and not posted its permit, and those that have got a
permit and not removed an item.  So there is an item for each permit that was handed out.
-/

namespace FileServer.SharedQueue

variable {α : Type} {shared : SharedQueue α} {capacity : Nat} {requests : List (QueueRequest α)}

/-! ## The order of items -/

/-- What holds of a shared queue between any two sections. -/
structure Sound (capacity : Nat) (shared : SharedQueue α) : Prop where
  room : shared.queue.capacity = capacity
  bound : shared.queue.items.length ≤ capacity
  order : shared.removed ++ shared.queue.items = shared.accepted
  given : (shared.calls.flatMap QueueCall.given).Perm shared.accepted
  taken : (shared.calls.flatMap QueueCall.taken).Perm shared.removed

theorem sound_start (capacity : Nat) (requests : List (QueueRequest α)) :
    (start capacity requests).Sound capacity where
  room := rfl
  bound := Nat.zero_le capacity
  order := rfl
  given := by simp [start, List.flatMap_map, QueueCall.given]
  taken := by simp [start, List.flatMap_map, QueueCall.taken]

/-- What a call adds to a list that all calls make up together. -/
theorem perm_flatMap_set {calls : List (QueueCall α)} {index : Nat} {call next : QueueCall α}
    (part : QueueCall α → List α) {more whole : List α} (held : calls[index]? = some call)
    (added : part next = part call ++ more) (perm : (calls.flatMap part).Perm whole) :
    ((calls.set index next).flatMap part).Perm (whole ++ more) := by
  obtain ⟨front, back, parts, changed⟩ := exists_set held next
  refine .trans ?_ (perm.append_right more)
  rw [changed]
  conv => rhs; rw [parts]
  simp only [List.flatMap_append, List.flatMap_cons, added, List.append_assoc]
  exact (List.perm_append_comm.append_left _).append_left _

theorem Sound.step (sound : shared.Sound capacity) (index : Nat) :
    (shared.step index).Sound capacity := by
  rcases shared.step_cases index with same | ⟨call, next, queue, held, goes, moved⟩
  · rw [same]
    exact sound
  · rw [moved]
    refine ⟨goes.capacity.trans sound.room, ?_, ?_, ?_, ?_⟩
    · have bound := goes.bound (by rw [sound.room]; exact sound.bound)
      rwa [sound.room] at bound
    · dsimp only
      rw [List.append_assoc, goes.items, ← List.append_assoc, sound.order]
    · exact perm_flatMap_set QueueCall.given held goes.given sound.given
    · exact perm_flatMap_set QueueCall.taken held (by rw [goes.taken]; rfl) sound.taken

theorem sound_after (capacity : Nat) (requests : List (QueueRequest α)) (schedule : List Nat) :
    (after capacity requests schedule).Sound capacity := by
  induction schedule using List.reverseRecOn with
  | nil => exact sound_start capacity requests
  | append_singleton schedule index ih =>
      rw [after_concat]
      exact ih.step index

/-! ## Calls that put an item in -/

/-- A call that was refused has made its last section. -/
theorem calls_refused {index : Nat} {item : α} (held : shared.calls[index]? = some (.refused item))
    (schedule : List Nat) : (shared.run schedule).calls[index]? = some (.refused item) := by
  obtain ⟨later, found, rfl⟩ := calls_run (· = .refused item)
    (fun goes same => by subst same; cases goes) schedule held rfl
  exact found

/-- A call that has put an item in is never refused. -/
theorem calls_given {index : Nat} {item : α} (held : shared.calls[index]? = some (.posting item))
    (schedule : List Nat) : (shared.run schedule).calls[index]? ≠ some (.refused item) := by
  obtain ⟨later, found, given⟩ := calls_run (fun call => call.given ≠ [])
    (fun goes given => by rw [goes.given]; exact List.append_ne_nil_of_left_ne_nil given _)
    schedule held (List.cons_ne_nil item [])
  intro refused
  cases found.symm.trans refused
  exact given rfl

/-- A call that puts an item in is refused if the queue is closed or full, and leaves it as
it is then. -/
theorem refused_iff {index : Nat} {item : α}
    (held : shared.calls[index]? = some (.requested (.push item))) (schedule : List Nat) :
    (((shared.step index).run schedule).calls[index]? = some (.refused item) ↔
      shared.queue.isClosed = true ∨ shared.queue.capacity ≤ shared.queue.items.length) ∧
    (shared.queue.isClosed = true ∨ shared.queue.capacity ≤ shared.queue.items.length →
      (shared.step index).queue = shared.queue) := by
  have inside := (List.getElem?_eq_some_iff.1 held).1
  cases appended : shared.queue.append? item with
  | none =>
      have stepped : QueueCall.step? shared.queue (.requested (.push item)) =
          some (.refused item, shared.queue) := by simp only [QueueCall.step?, appended]
      have moved := step_of_step? held stepped
      have full := Queue.push?_eq_none_iff.1 (congrArg (Option.map Queue.post) appended)
      refine ⟨iff_of_true (calls_refused ?_ schedule) full, fun _ => by rw [moved]⟩
      rw [moved, List.getElem?_set_self inside]
  | some grown =>
      have stepped : QueueCall.step? shared.queue (.requested (.push item)) =
          some (.posting item, grown) := by simp only [QueueCall.step?, appended]
      have moved := step_of_step? held stepped
      have free := mt Queue.push?_eq_none_iff.2
        (Option.ne_none_iff_exists'.2 ⟨_, congrArg (Option.map Queue.post) appended⟩)
      refine ⟨iff_of_false (calls_given ?_ schedule) free, fun full => absurd full free⟩
      rw [moved, List.getElem?_set_self inside]

/-- A call that was refused has found the queue so in one of the sections. -/
theorem exists_of_refused {schedule : List Nat} {index : Nat} {item : α}
    (held : (after capacity requests schedule).calls[index]? = some (.refused item)) :
    ∃ front back, schedule = front ++ index :: back ∧
      (after capacity requests front).calls[index]? = some (.requested (.push item)) := by
  induction schedule using List.reverseRecOn with
  | nil =>
      obtain ⟨request, -, same⟩ := List.mem_map.1 (List.mem_of_getElem? held)
      cases same
  | append_singleton schedule last ih =>
      have sooner (before : (after capacity requests schedule).calls[index]? =
          some (.refused item)) : ∃ front back, schedule ++ [last] = front ++ index :: back ∧
            (after capacity requests front).calls[index]? = some (.requested (.push item)) := by
        obtain ⟨front, back, parts, found⟩ := ih before
        exact ⟨front, back ++ [last], by rw [parts, List.append_assoc, List.cons_append], found⟩
      rw [after_concat] at held
      rcases (after capacity requests schedule).step_cases last with
        same | ⟨call, next, queue, found, goes, moved⟩
      · exact sooner (same ▸ held)
      · rw [moved] at held
        by_cases here : last = index
        · subst here
          rw [List.getElem?_set_self (List.getElem?_eq_some_iff.1 found).1] at held
          cases held
          cases goes with
          | refuse => exact ⟨schedule, [], rfl, found⟩
        · rw [List.getElem?_set_ne here] at held
          exact sooner held

/-! ## Permits -/

/-- As long as the queue is open, an item has a permit, or its call is about to post it, or
has lent it to a call that is about to remove an item. -/
def Balanced (shared : SharedQueue α) : Prop :=
  shared.queue.isClosed = false →
    shared.queue.items.length = shared.queue.available.permits +
      shared.calls.countP QueueCall.isPosting + shared.calls.countP QueueCall.isGranted

theorem Balanced.items_ne_nil (balanced : shared.Balanced)
    (isOpen : shared.queue.isClosed = false) {index : Nat}
    (held : shared.calls[index]? = some .granted) : shared.queue.items ≠ [] := by
  intro empty
  have counted := balanced isOpen
  have granted : 0 < shared.calls.countP QueueCall.isGranted :=
    List.countP_pos_iff.2 ⟨.granted, List.mem_of_getElem? held, rfl⟩
  rw [empty, List.length_nil] at counted
  omega

/-- Every section but that which empties an open queue keeps the balance. -/
theorem Balanced.step (balanced : shared.Balanced) {index : Nat}
    (late : shared.calls[index]? = some (.requested .drain) → shared.queue.isClosed = true) :
    (shared.step index).Balanced := by
  rcases shared.step_cases index with same | ⟨call, next, queue, held, goes, moved⟩
  · rw [same]
    exact balanced
  · intro isOpen
    have wasOpen : shared.queue.isClosed = false := by
      rw [Bool.eq_false_iff]
      intro closed
      rw [moved] at isOpen
      cases (goes.closed closed).1.symm.trans isOpen
    have counted := balanced wasOpen
    obtain ⟨front, back, parts, changed⟩ := exists_set held next
    rw [moved, changed]
    rw [parts] at counted
    simp only [List.countP_append, List.countP_cons] at counted ⊢
    rcases goes.permits with permits | rfl | ⟨rfl, empty⟩
    · omega
    · cases (late held).symm.trans wasOpen
    · exact absurd empty (balanced.items_ne_nil wasOpen held)

/-- The queue is emptied only when it is closed. -/
def DrainsClosed (capacity : Nat) (requests : List (QueueRequest α)) (schedule : List Nat) : Prop :=
  ∀ front index back, schedule = front ++ index :: back →
    (after capacity requests front).calls[index]? = some (.requested .drain) →
    (after capacity requests front).queue.isClosed = true

theorem drainsClosed_iff {schedule : List Nat} :
    DrainsClosed capacity requests schedule ↔ ∀ count < schedule.length,
      ∀ index ∈ schedule[count]?.toList,
        (after capacity requests (schedule.take count)).calls[index]? =
          some (.requested .drain) →
        (after capacity requests (schedule.take count)).queue.isClosed = true := by
  constructor
  · intro late count inside index place
    rw [Option.mem_toList] at place
    obtain ⟨-, rfl⟩ := List.getElem?_eq_some_iff.1 place
    refine late _ _ (schedule.drop (count + 1)) ?_
    rw [List.getElem_cons_drop, List.take_append_drop]
  · rintro late front index back rfl
    have found := late front.length (by simp) index (by simp)
    rwa [List.take_left] at found

instance [DecidableEq α] (schedule : List Nat) :
    Decidable (DrainsClosed capacity requests schedule) :=
  decidable_of_iff _ drainsClosed_iff.symm

theorem balanced_after {schedule : List Nat} (late : DrainsClosed capacity requests schedule) :
    (after capacity requests schedule).Balanced := by
  induction schedule using List.reverseRecOn with
  | nil =>
      intro _
      simp [after, run, start, List.countP_map, Function.comp_def, Queue.ofCapacity,
        QueueCall.isPosting, QueueCall.isGranted]
  | append_singleton schedule index ih =>
      rw [after_concat]
      refine (ih fun front other back parts => ?_).step (late schedule index [] rfl)
      exact late front other (back ++ [index]) (by rw [parts, List.append_assoc, List.cons_append])

/-- There are no more permits than calls that were accepted. -/
theorem permits_le_countP (capacity : Nat) (requests : List (QueueRequest α))
    (schedule : List Nat) :
    (after capacity requests schedule).calls.length = requests.length ∧
      (after capacity requests schedule).queue.available.permits ≤
        (after capacity requests schedule).calls.countP QueueCall.isAccepted := by
  induction schedule using List.reverseRecOn with
  | nil => exact ⟨List.length_map _, Nat.zero_le _⟩
  | append_singleton schedule index ih =>
      rw [after_concat]
      obtain ⟨many, bound⟩ := ih
      rcases (after capacity requests schedule).step_cases index with
        same | ⟨call, next, queue, held, goes, moved⟩
      · rw [same]
        exact ⟨many, bound⟩
      · obtain ⟨front, back, parts, changed⟩ := exists_set held next
        obtain ⟨early, more⟩ := goes.supplied
        rw [parts, List.countP_append, List.countP_cons, early] at bound
        rw [moved]
        refine ⟨List.length_set.trans many, ?_⟩
        rw [changed, List.countP_append, List.countP_cons]
        simp only [Bool.false_eq_true, if_false] at bound ⊢
        omega

/-- The counter of a queue does not come round while there are fewer calls than machine words, so
that counting the permits is what posting them is. -/
theorem post_eq_of_few {schedule : List Nat} (few : requests.length < Decimal.wordBound)
    (reached : after capacity requests schedule = shared) {index : Nat} {item : α}
    (held : shared.calls[index]? = some (.posting item)) :
    shared.queue.post = { shared.queue with available := shared.queue.available.post } := by
  obtain ⟨many, bound⟩ := permits_le_countP capacity requests schedule
  rw [reached] at many bound
  have other : shared.calls.countP QueueCall.isAccepted < shared.calls.length := by
    refine Nat.lt_of_le_of_ne List.countP_le_length fun all => ?_
    cases List.countP_eq_length.1 all _ (List.mem_of_getElem? held)
  rw [Queue.post, Semaphore.post_eq_supply (by omega)]

/-! ## Any order of sections -/

/-- A queue hands on its items first in, first out.  Let any calls be made of a queue of any
capacity, and their sections come in any order.  The items that were removed and then those
that are inside are the accepted ones, in order, and the items that the calls have put in and
taken out are these.  There are never more inside than the capacity.  A call that puts an item
in gets it back just when it finds the queue closed or full, and leaves the queue alone then.
Once the queue was emptied when it was closed, nothing is inside.  If it is never emptied
before, then in an open queue there are as many items as permits, calls that are about to post
one, and calls that are about to remove an item; and each of these finds the oldest item. -/
theorem first_in_first_out {schedule : List Nat}
    (reached : after capacity requests schedule = shared) :
    shared.removed ++ shared.queue.items = shared.accepted ∧
    (shared.calls.flatMap QueueCall.given).Perm shared.accepted ∧
    (shared.calls.flatMap QueueCall.taken).Perm shared.removed ∧
    shared.queue.items.length ≤ capacity ∧
    (∀ index item, shared.calls[index]? = some (.refused item) →
      ∃ front back, schedule = front ++ index :: back ∧
        (after capacity requests front).calls[index]? = some (.requested (.push item))) ∧
    (∀ front index back before item, schedule = front ++ index :: back →
      after capacity requests front = before →
      before.calls[index]? = some (.requested (.push item)) →
      (shared.calls[index]? = some (.refused item) ↔
        before.queue.isClosed = true ∨ capacity ≤ before.queue.items.length) ∧
      (before.queue.isClosed = true ∨ capacity ≤ before.queue.items.length →
        (after capacity requests (front ++ [index])).queue = before.queue)) ∧
    (∀ front index back before, schedule = front ++ index :: back →
      after capacity requests front = before →
      before.calls[index]? = some (.requested .drain) → before.queue.isClosed = true →
      shared.queue.items = []) ∧
    (DrainsClosed capacity requests schedule → shared.queue.isClosed = false →
      shared.queue.items.length = shared.queue.available.permits +
        shared.calls.countP QueueCall.isPosting + shared.calls.countP QueueCall.isGranted ∧
      ∀ index, shared.calls[index]? = some .granted →
        ∃ item rest, shared.queue.items = item :: rest ∧
          (shared.step index).calls[index]? = some (.popped (some item))) := by
  have sound := sound_after capacity requests schedule
  rw [reached] at sound
  refine ⟨sound.order, sound.given, sound.taken, sound.bound, ?_, ?_, ?_, fun late isOpen => ?_⟩
  · intro index item held
    rw [← reached] at held
    exact exists_of_refused held
  · rintro front index back before item rfl rfl held
    have room := (sound_after capacity requests front).room
    have refused := refused_iff held back
    rw [room] at refused
    rw [after_concat, ← reached, after_append]
    exact refused
  · rintro front index back before rfl rfl held closed
    rw [← reached, after_append]
    have stepped : QueueCall.step? (after capacity requests front).queue (.requested .drain) =
      some (.drained (after capacity requests front).queue.items,
        { (after capacity requests front).queue with items := [] }) := rfl
    have moved := step_of_step? held stepped
    exact run_empty back (by rw [moved]; exact closed) (by rw [moved])
  · have balanced := balanced_after late
    rw [reached] at balanced
    refine ⟨balanced isOpen, fun index held => ?_⟩
    obtain ⟨item, rest, filled⟩ := List.exists_cons_of_ne_nil (balanced.items_ne_nil isOpen held)
    have stepped : QueueCall.step? shared.queue .granted =
        some (.popped (some item), { shared.queue with items := rest }) := by
      simp only [QueueCall.step?, Queue.remove, filled]
    refine ⟨item, rest, filled, ?_⟩
    rw [step_of_step? held stepped, List.getElem?_set_self (List.getElem?_eq_some_iff.1 held).1]

/-- Three calls put an item in before the queue is closed, and one behind it. -/
def smallRequests : List (QueueRequest Nat) :=
  [.push 7, .push 8, .pop, .push 9, .close, .push 10, .drain]

/-- The second item finds the queue full.  The third call has to wait for a permit, and then
has one. -/
def smallStart : List Nat :=
  [0, 1, 2, 0, 2]

/-- The first item is removed.  The third one comes in, and its permit is posted only after
the queue was closed and emptied. -/
def smallEnd : List Nat :=
  [2, 3, 4, 5, 6, 3]

theorem first_in_first_out_small :
    (after 1 smallRequests smallStart).queue.items.length = 1 ∧
      ((after 1 smallRequests smallStart).step 2).calls[2]? = some (.popped (some 7)) ∧
      (after 1 smallRequests (smallStart ++ smallEnd)).calls[1]? = some (.refused 8) ∧
      (after 1 smallRequests (smallStart ++ smallEnd)).calls[5]? = some (.refused 10) ∧
      (after 1 smallRequests (smallStart ++ smallEnd)).accepted = [7, 9] ∧
      (after 1 smallRequests (smallStart ++ smallEnd)).removed = [7, 9] := by
  obtain ⟨-, -, -, -, -, -, -, balance⟩ :=
    first_in_first_out (rfl : after 1 smallRequests smallStart = _)
  obtain ⟨order, -, -, -, -, refused, emptied, -⟩ :=
    first_in_first_out (rfl : after 1 smallRequests (smallStart ++ smallEnd) = _)
  obtain ⟨counted, finds⟩ := balance (by decide) rfl
  obtain ⟨item, rest, filled, popped⟩ := finds 2 rfl
  cases filled
  have empty := emptied (smallStart ++ [2, 3, 4, 5]) 6 [3] _ rfl rfl rfl rfl
  rw [empty, List.append_nil] at order
  exact ⟨counted, popped, ((refused [0] 1 _ _ 8 rfl rfl rfl).1).2 (.inr (by decide)),
    ((refused (smallStart ++ [2, 3, 4]) 5 _ _ 10 rfl rfl rfl).1).2 (.inl rfl), rfl,
    order.trans rfl⟩

end FileServer.SharedQueue
