import FileServer.Work.Queue
import Mathlib.Data.List.Perm.Basic

/-!
# Calls of a queue from many threads

Any number of threads may call a queue at the same time.  A call is made of the sections
that hold one of the two locks: putting an item in is `append?` and then `post`, taking one
out is `wait` and then `remove`, and closing and emptying are one section each.  Sections of
other calls may come in between.  A thread that finds no permit waits, and makes a section
only when there is one or the queue is closed.

A call that appends an item holds the lock of the items while it asks whether the queue is
closed.  Closing needs the other lock only and could come right behind the question, but
nobody else gets at the items before the call is through, so that closing may as well come
behind it.  This is why appending is one section.
-/

namespace FileServer

/-- What a queue is called for. -/
inductive QueueRequest (α : Type) where
  | push (item : α)
  | pop
  | close
  | drain
  deriving DecidableEq, Repr

/-- How far a call has come, and what it returns in the end. -/
inductive QueueCall (α : Type) where
  /-- It has not made a section yet. -/
  | requested (request : QueueRequest α)
  /-- The item is in the queue, and the takers are not told yet. -/
  | posting (item : α)
  | accepted (item : α)
  /-- The item is back with the caller. -/
  | refused (item : α)
  /-- It has a permit and has not removed an item yet. -/
  | granted
  | popped (result : Option α)
  | closed
  | drained (items : List α)
  deriving DecidableEq, Repr

namespace QueueCall

variable {α : Type}

/-- The next section of a call.  There is none if the call has returned, or has to wait for
a permit. -/
def step? (queue : Queue α) : QueueCall α → Option (QueueCall α × Queue α)
  | .requested (.push item) =>
      match queue.append? item with
      | some grown => some (.posting item, grown)
      | none => some (.refused item, queue)
  | .posting item => some (.accepted item, queue.post)
  | .requested .pop =>
      match queue.wait with
      | (.granted, rest) => some (.granted, rest)
      | (.refused, rest) => some (.popped none, rest)
      | (.blocked, _) => none
  | .granted => some (.popped queue.remove.1, queue.remove.2)
  | .requested .close => some (.closed, queue.close)
  | .requested .drain => some (.drained queue.drain.1, queue.drain.2)
  | .accepted _ | .refused _ | .popped _ | .closed | .drained _ => none

/-- The item that the last section has put in. -/
def appended : QueueCall α → List α
  | .posting item => [item]
  | _ => []

/-- The item that a call has put in. -/
def given : QueueCall α → List α
  | .posting item | .accepted item => [item]
  | _ => []

/-- The items that a call has taken out. -/
def taken : QueueCall α → List α
  | .popped result => result.toList
  | .drained items => items
  | _ => []

/-- Whether a call has put in an item without a permit for it. -/
def isPosting : QueueCall α → Bool
  | .posting _ => true
  | _ => false

/-- Whether a call has put in an item and a permit for it. -/
def isAccepted : QueueCall α → Bool
  | .accepted _ => true
  | _ => false

/-- Whether a call has a permit and no item yet. -/
def isGranted : QueueCall α → Bool
  | .granted => true
  | _ => false

/-- What a section of a call does. -/
inductive Goes (queue : Queue α) : QueueCall α → QueueCall α → Queue α → Prop
  /-- The queue is closed or full. -/
  | refuse {item : α} (full : queue.isClosed = true ∨ queue.capacity ≤ queue.items.length) :
      Goes queue (.requested (.push item)) (.refused item) queue
  /-- The queue is open and has room. -/
  | append {item : α} (isOpen : queue.isClosed = false)
      (room : queue.items.length < queue.capacity) :
      Goes queue (.requested (.push item)) (.posting item)
        { queue with items := queue.items ++ [item] }
  | post {item : α} : Goes queue (.posting item) (.accepted item) queue.post
  /-- There is a permit. -/
  | grant {permits : Nat} (isOpen : queue.isClosed = false)
      (available : queue.available.permits = permits + 1) :
      Goes queue (.requested .pop) .granted
        { queue with available := { queue.available with permits } }
  /-- The queue is closed. -/
  | turnAway (closed : queue.isClosed = true) :
      Goes queue (.requested .pop) (.popped none) queue
  /-- There is an item. -/
  | take {item : α} {rest : List α} (found : queue.items = item :: rest) :
      Goes queue .granted (.popped (some item)) { queue with items := rest }
  /-- The queue was emptied. -/
  | miss (empty : queue.items = []) : Goes queue .granted (.popped none) queue
  | close : Goes queue (.requested .close) .closed queue.close
  | drain : Goes queue (.requested .drain) (.drained queue.items) { queue with items := [] }

variable {queue rest : Queue α} {call next : QueueCall α}

theorem goes_of_step? (stepped : call.step? queue = some (next, rest)) :
    Goes queue call next rest := by
  obtain ⟨items, ⟨permits, closed⟩, capacity⟩ := queue
  cases call with
  | requested request =>
      cases request with
      | push item =>
          simp only [step?, Queue.append?] at stepped
          split at stepped
          · next found =>
              split at found
              · cases found
              · next room =>
                  rw [Bool.or_eq_true, not_or, Bool.not_eq_true, decide_eq_true_eq,
                    Nat.not_le] at room
                  cases found
                  cases stepped
                  exact .append room.1 room.2
          · next found =>
              split at found
              · next full =>
                  rw [Bool.or_eq_true, decide_eq_true_eq] at full
                  cases stepped
                  exact .refuse full
              · cases found
      | pop =>
          cases closed with
          | true =>
              cases stepped
              exact .turnAway rfl
          | false =>
              cases permits with
              | zero => cases stepped
              | succ permits =>
                  cases stepped
                  exact .grant rfl rfl
      | close =>
          cases stepped
          exact .close
      | drain =>
          cases stepped
          exact .drain
  | posting item =>
      cases stepped
      exact .post
  | granted =>
      cases items with
      | nil =>
          cases stepped
          exact .miss rfl
      | cons item items =>
          cases stepped
          exact .take rfl
  | accepted | refused | popped | closed | drained => cases stepped

/-- What a section takes out was in front, and what it puts in is behind. -/
theorem Goes.items (goes : Goes queue call next rest) :
    next.taken ++ rest.items = queue.items ++ next.appended := by
  cases goes with
  | refuse | post | grant | turnAway | miss | close => exact (List.append_nil _).symm
  | append => rfl
  | take found =>
      rw [found]
      exact (List.append_nil _).symm
  | drain => rfl

theorem Goes.capacity (goes : Goes queue call next rest) : rest.capacity = queue.capacity := by
  cases goes <;> rfl

theorem Goes.bound (goes : Goes queue call next rest)
    (bound : queue.items.length ≤ queue.capacity) : rest.items.length ≤ queue.capacity := by
  cases goes with
  | refuse | post | grant | turnAway | miss | close => exact bound
  | append _ room =>
      rw [List.length_append, List.length_singleton]
      exact room
  | take found =>
      rw [found, List.length_cons] at bound
      exact Nat.le_of_succ_le bound
  | drain => exact Nat.zero_le _

/-- A call that has put an item in keeps this in mind. -/
theorem Goes.given (goes : Goes queue call next rest) :
    next.given = call.given ++ next.appended := by
  cases goes <;> rfl

/-- A call that has taken items out has returned. -/
theorem Goes.taken (goes : Goes queue call next rest) : call.taken = [] := by
  cases goes <;> rfl

/-- An item comes with a call that is about to post its permit, and goes with one that has a
permit.  Only emptying the queue, and a permit without an item, upset this. -/
theorem Goes.permits (goes : Goes queue call next rest) :
    rest.items.length + (queue.available.permits + (if call.isPosting then 1 else 0) +
          if call.isGranted then 1 else 0) =
        queue.items.length + (rest.available.permits + (if next.isPosting then 1 else 0) +
          if next.isGranted then 1 else 0) ∨
      call = .requested .drain ∨ call = .granted ∧ queue.items = [] := by
  cases goes with
  | refuse | turnAway | close => exact .inl rfl
  | append =>
      refine .inl ?_
      simp only [isPosting, isGranted, List.length_append, List.length_singleton,
        Bool.false_eq_true, ↓reduceIte]
      omega
  | post =>
      refine .inl ?_
      simp only [isPosting, isGranted, Queue.post, Semaphore.supply, Bool.false_eq_true, ↓reduceIte]
  | grant _ available =>
      refine .inl ?_
      simp only [isPosting, isGranted, available, Bool.false_eq_true, ↓reduceIte]
  | take found =>
      refine .inl ?_
      simp only [isPosting, isGranted, found, List.length_cons, Bool.false_eq_true, ↓reduceIte]
      omega
  | miss empty => exact .inr (.inr ⟨rfl, empty⟩)
  | drain => exact .inr (.inl rfl)

/-- A permit comes with a call that is then accepted. -/
theorem Goes.supplied (goes : Goes queue call next rest) :
    call.isAccepted = false ∧
      rest.available.permits ≤ queue.available.permits + if next.isAccepted then 1 else 0 := by
  cases goes with
  | grant _ available =>
      rw [available]
      exact ⟨rfl, Nat.le_succ _⟩
  | refuse | append | post | turnAway | take | miss | close | drain => exact ⟨rfl, Nat.le_refl _⟩

/-- A queue that is closed stays closed, and gets no more items. -/
theorem Goes.closed (goes : Goes queue call next rest) (closed : queue.isClosed = true) :
    rest.isClosed = true ∧ (queue.items = [] → rest.items = []) := by
  cases goes with
  | refuse | post | turnAway | miss => exact ⟨closed, id⟩
  | append isOpen => cases closed.symm.trans isOpen
  | grant isOpen => cases closed.symm.trans isOpen
  | take found => exact ⟨closed, fun empty => by cases found.symm.trans empty⟩
  | close => exact ⟨rfl, id⟩
  | drain => exact ⟨closed, fun _ => rfl⟩

end QueueCall

/-- A queue and its calls, with the items in the order in which they came into the queue,
and in the order in which they left it. -/
structure SharedQueue (α : Type) where
  queue : Queue α
  calls : List (QueueCall α)
  accepted : List α
  removed : List α
  deriving DecidableEq, Repr

namespace SharedQueue

variable {α : Type}

/-- An empty queue, and all calls that will ever be made. -/
def start (capacity : Nat) (requests : List (QueueRequest α)) : SharedQueue α where
  queue := .ofCapacity capacity
  calls := requests.map .requested
  accepted := []
  removed := []

/-- A call makes its next section, if there is one. -/
def step (shared : SharedQueue α) (index : Nat) : SharedQueue α :=
  match shared.calls[index]? with
  | none => shared
  | some call =>
      match call.step? shared.queue with
      | none => shared
      | some (next, queue) =>
          { queue
            calls := shared.calls.set index next
            accepted := shared.accepted ++ next.appended
            removed := shared.removed ++ next.taken }

/-- The calls make sections in some order. -/
def run (shared : SharedQueue α) (schedule : List Nat) : SharedQueue α :=
  schedule.foldl step shared

/-- How a queue was used after these sections. -/
def after (capacity : Nat) (requests : List (QueueRequest α)) (schedule : List Nat) :
    SharedQueue α :=
  (start capacity requests).run schedule

variable {shared : SharedQueue α}

theorem after_append (capacity : Nat) (requests : List (QueueRequest α))
    (front back : List Nat) :
    after capacity requests (front ++ back) = (after capacity requests front).run back :=
  List.foldl_append

theorem after_concat (capacity : Nat) (requests : List (QueueRequest α)) (schedule : List Nat)
    (index : Nat) :
    after capacity requests (schedule ++ [index]) = (after capacity requests schedule).step index :=
  after_append capacity requests schedule [index]

theorem step_of_step? {index : Nat} {call next : QueueCall α} {queue : Queue α}
    (held : shared.calls[index]? = some call)
    (stepped : call.step? shared.queue = some (next, queue)) :
    shared.step index =
      ⟨queue, shared.calls.set index next, shared.accepted ++ next.appended,
        shared.removed ++ next.taken⟩ := by
  simp only [step, held, stepped]

/-- A call that goes on, among the others. -/
theorem exists_set {calls : List (QueueCall α)} {index : Nat} {call : QueueCall α}
    (held : calls[index]? = some call) (next : QueueCall α) :
    ∃ front back, calls = front ++ call :: back ∧ calls.set index next = front ++ next :: back := by
  obtain ⟨inside, rfl⟩ := List.getElem?_eq_some_iff.1 held
  obtain ⟨front, back, parts, -, changed⟩ := List.exists_of_set inside
  exact ⟨front, back, parts, changed⟩

/-- A step is a section of a call, or nothing. -/
theorem step_cases (shared : SharedQueue α) (index : Nat) :
    shared.step index = shared ∨
      ∃ call next queue, shared.calls[index]? = some call ∧ call.Goes shared.queue next queue ∧
        shared.step index =
          ⟨queue, shared.calls.set index next, shared.accepted ++ next.appended,
            shared.removed ++ next.taken⟩ := by
  cases held : shared.calls[index]? with
  | none => exact .inl (by simp only [step, held])
  | some call =>
      cases stepped : call.step? shared.queue with
      | none => exact .inl (by simp only [step, held, stepped])
      | some result =>
          exact .inr ⟨call, result.1, result.2, rfl, QueueCall.goes_of_step? stepped,
            step_of_step? held stepped⟩

/-- What each section of a call keeps, it keeps in every run. -/
theorem calls_run (Holds : QueueCall α → Prop)
    (keeps : ∀ {queue rest call next}, QueueCall.Goes queue call next rest → Holds call →
      Holds next)
    (schedule : List Nat) {index : Nat} {call : QueueCall α}
    (held : shared.calls[index]? = some call) (holds : Holds call) :
    ∃ later, (shared.run schedule).calls[index]? = some later ∧ Holds later := by
  induction schedule generalizing shared call with
  | nil => exact ⟨call, held, holds⟩
  | cons other schedule ih =>
      rcases shared.step_cases other with same | ⟨old, next, queue, found, goes, moved⟩
      · exact ih (by rw [same]; exact held) holds
      · by_cases here : other = index
        · subst here
          cases held.symm.trans found
          refine ih ?_ (keeps goes holds)
          rw [moved, List.getElem?_set_self (List.getElem?_eq_some_iff.1 held).1]
        · refine ih ?_ holds
          rw [moved, List.getElem?_set_ne here, held]

/-- A queue that is closed and empty stays so. -/
theorem run_empty (schedule : List Nat) (closed : shared.queue.isClosed = true)
    (empty : shared.queue.items = []) : (shared.run schedule).queue.items = [] := by
  induction schedule generalizing shared with
  | nil => exact empty
  | cons index schedule ih =>
      rcases shared.step_cases index with same | ⟨call, next, queue, -, goes, moved⟩
      · exact ih (by rw [same]; exact closed) (by rw [same]; exact empty)
      · have kept := goes.closed closed
        exact ih (by rw [moved]; exact kept.1) (by rw [moved]; exact kept.2 empty)

end SharedQueue

end FileServer
