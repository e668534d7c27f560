import FileServer.Proofs.Work.QueueCalls

/-!
# The permits of a queue and its items

There is meant to be a permit for each item of an open queue, so that a call that takes an
item out finds one as soon as it has a permit, and waits as long as there is none.  Each call
keeps this balance but the one that empties the queue: it removes all items and leaves their
permits.  Every permit that was left makes one later call return with nothing from an open
queue, when it finds no item and should have waited for one.

Here the calls are made one after the other, and each has returned before the next one
begins.
-/

namespace FileServer

namespace QueueCall

variable {α : Type}

/-- Whether a call has taken nothing. -/
def isVain : QueueCall α → Bool
  | .popped none => true
  | _ => false

/-- The items that a call has removed at once. -/
def emptied : QueueCall α → List α
  | .drained items => items
  | _ => []

end QueueCall

namespace Queue

variable {α : Type}

/-- A call from its beginning to its end.  There is none that takes an item out if it would
have to wait. -/
def call? (queue : Queue α) : QueueRequest α → Option (QueueCall α × Queue α)
  | .push item =>
      match queue.push? item with
      | some grown => some (.accepted item, grown)
      | none => some (.refused item, queue)
  | .pop => queue.pop?.map fun (result, rest) => (.popped result, rest)
  | .close => some (.closed, queue.close)
  | .drain => some (.drained queue.drain.1, queue.drain.2)

/-- Calls that are made one after the other, and what they return. -/
def serve? (queue : Queue α) : List (QueueRequest α) → Option (List (QueueCall α) × Queue α)
  | [] => some ([], queue)
  | request :: requests => do
      let (reply, next) ← queue.call? request
      let (replies, last) ← next.serve? requests
      return (reply :: replies, last)

variable {queue next last : Queue α} {request : QueueRequest α} {reply : QueueCall α}
  {replies : List (QueueCall α)}

/-! ## Taking an item out -/

theorem pop?_closed (closed : queue.isClosed = true) : queue.pop? = some (none, queue) := by
  obtain ⟨items, ⟨permits, shut⟩, capacity⟩ := queue
  cases (closed : shut = true)
  rfl

theorem pop?_eq_none_iff :
    queue.pop? = none ↔ queue.isClosed = false ∧ queue.available.permits = 0 := by
  obtain ⟨items, ⟨permits, closed⟩, capacity⟩ := queue
  cases closed <;> cases permits <;> simp [pop?, wait, Semaphore.attempt, isClosed]

/-- With a permit the oldest item is taken, or nothing. -/
theorem pop?_open {permits : Nat} (isOpen : queue.isClosed = false)
    (available : queue.available.permits = permits + 1) :
    queue.pop? = some (queue.items.head?,
      ⟨queue.items.tail, { queue.available with permits }, queue.capacity⟩) := by
  obtain ⟨items, ⟨_, closed⟩, capacity⟩ := queue
  cases (isOpen : closed = false)
  cases available
  cases items <;> rfl

/-! ## Whole calls -/

/-- What a call returns, and what it does. -/
inductive Serves (queue : Queue α) : QueueCall α → Queue α → Prop
  | refuse {item : α} : Serves queue (.refused item) queue
  | accept {item : α} (isOpen : queue.isClosed = false) :
      Serves queue (.accepted item)
        { queue with items := queue.items ++ [item], available := queue.available.supply }
  /-- The queue is closed. -/
  | turnAway (closed : queue.isClosed = true) : Serves queue (.popped none) queue
  /-- There are a permit and an item. -/
  | take {permits : Nat} {item : α} {rest : List α}
      (available : queue.available.permits = permits + 1) (found : queue.items = item :: rest) :
      Serves queue (.popped (some item))
        { queue with items := rest, available := { queue.available with permits } }
  /-- There is a permit and no item. -/
  | miss {permits : Nat} (available : queue.available.permits = permits + 1)
      (empty : queue.items = []) :
      Serves queue (.popped none)
        { queue with available := { queue.available with permits } }
  | close : Serves queue .closed queue.close
  | drain : Serves queue (.drained queue.items) { queue with items := [] }

theorem serves_of_call? (called : queue.call? request = some (reply, next)) :
    Serves queue reply next := by
  cases request with
  | push item =>
      simp only [call?] at called
      split at called
      · next grown pushed =>
          cases called
          have free := mt push?_eq_none_iff.2 (Option.ne_none_iff_exists'.2 ⟨_, pushed⟩)
          obtain ⟨_, appended, rfl⟩ := Option.map_eq_some_iff.1 pushed
          rw [append?, if_neg (by simpa using free)] at appended
          cases appended
          exact .accept (Bool.eq_false_iff.2 (not_or.1 free).1)
      · cases called
        exact .refuse
  | pop =>
      obtain ⟨⟨result, rest⟩, popped, same⟩ := Option.map_eq_some_iff.1 called
      cases same
      cases closed : queue.isClosed with
      | true =>
          cases (pop?_closed closed).symm.trans popped
          exact .turnAway closed
      | false =>
          cases available : queue.available.permits with
          | zero => cases (pop?_eq_none_iff.2 ⟨closed, available⟩).symm.trans popped
          | succ permits =>
              cases (pop?_open closed available).symm.trans popped
              obtain ⟨items, semaphore, capacity⟩ := queue
              cases items with
              | nil => exact .miss available rfl
              | cons item rest => exact .take available rfl
  | close =>
      cases called
      exact .close
  | drain =>
      cases called
      exact .drain

/-- What a call takes out was in front, and what it puts in is behind. -/
theorem Serves.items (serves : Serves queue reply next) :
    queue.items ++ reply.given = reply.taken ++ next.items := by
  cases serves with
  | refuse | turnAway | miss | close => exact List.append_nil _
  | accept | drain => rfl
  | take _ found =>
      rw [found]
      exact List.append_nil _

theorem Serves.closed (serves : Serves queue reply next) :
    next.isClosed = true ↔ queue.isClosed = true ∨ .closed = reply := by
  cases serves with
  | refuse | accept | turnAway | take | miss | drain => simp [isClosed, Semaphore.supply]
  | close => exact iff_of_true rfl (.inr rfl)

/-- In an open queue, each call takes or leaves items and permits together, unless it empties
the queue, or takes nothing. -/
theorem Serves.permits (serves : Serves queue reply next) (isOpen : next.isClosed = false) :
    next.available.permits + (if reply.isVain then 1 else 0) + queue.items.length =
        queue.available.permits + next.items.length + reply.emptied.length ∧
      (queue.items.length ≤ queue.available.permits →
        next.items.length ≤ next.available.permits) := by
  cases serves with
  | refuse => exact ⟨rfl, id⟩
  | accept =>
      simp only [QueueCall.isVain, QueueCall.emptied, Semaphore.supply, List.length_append,
        List.length_singleton, List.length_nil, Bool.false_eq_true, ↓reduceIte]
      exact ⟨by omega, Nat.succ_le_succ⟩
  | turnAway closed => cases closed.symm.trans isOpen
  | take available found =>
      simp only [QueueCall.isVain, QueueCall.emptied, available, found, List.length_cons,
        List.length_nil, Bool.false_eq_true, ↓reduceIte]
      exact ⟨by omega, Nat.le_of_succ_le_succ⟩
  | miss available empty =>
      refine ⟨by rw [available]; rfl, fun _ => ?_⟩
      rw [empty]
      exact Nat.zero_le _
  | close => cases isOpen
  | drain => exact ⟨rfl, fun _ => Nat.zero_le _⟩

/-! ## The account of permits -/

/-- What the calls so far say about a queue. -/
structure Account (replies : List (QueueCall α)) (queue : Queue α) : Prop where
  order : replies.flatMap QueueCall.given = replies.flatMap QueueCall.taken ++ queue.items
  closed : queue.isClosed = true ↔ .closed ∈ replies
  permits : queue.isClosed = false →
    queue.available.permits + replies.countP QueueCall.isVain =
      queue.items.length + (replies.flatMap QueueCall.emptied).length
  enough : queue.isClosed = false → queue.items.length ≤ queue.available.permits

theorem Account.call (account : Account replies queue) (serves : Serves queue reply next) :
    Account (replies ++ [reply]) next := by
  have wasOpen (isOpen : next.isClosed = false) : queue.isClosed = false := by
    rw [Bool.eq_false_iff] at isOpen ⊢
    exact fun closed => isOpen (serves.closed.2 (.inl closed))
  refine ⟨?_, ?_, fun isOpen => ?_, fun isOpen => ?_⟩
  · simp only [List.flatMap_append, List.flatMap_singleton]
    rw [account.order, List.append_assoc, serves.items, List.append_assoc]
  · rw [serves.closed, account.closed, List.mem_append, List.mem_singleton]
  · have before := account.permits (wasOpen isOpen)
    have change := (serves.permits isOpen).1
    simp only [List.countP_append, List.countP_singleton, List.flatMap_append,
      List.flatMap_singleton, List.length_append]
    omega
  · exact (serves.permits isOpen).2 (account.enough (wasOpen isOpen))

theorem Account.serve (account : Account replies queue) {requests : List (QueueRequest α)}
    {more : List (QueueCall α)} (served : queue.serve? requests = some (more, last)) :
    Account (replies ++ more) last := by
  induction requests generalizing queue replies more with
  | nil =>
      cases served
      rwa [List.append_nil]
  | cons request requests ih =>
      obtain ⟨⟨reply, next⟩, called, rest⟩ := Option.bind_eq_some_iff.1 served
      obtain ⟨⟨further, _⟩, servedOn, same⟩ := Option.bind_eq_some_iff.1 rest
      cases same
      have whole := ih (account.call (serves_of_call? called)) servedOn
      rwa [List.append_assoc] at whole

/-! ## Any calls -/

end Queue

end FileServer
