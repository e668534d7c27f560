import FileServer.Work.Semaphore

/-!
# Bounded queues

A queue keeps items in the order in which they came and never holds more than its
capacity.  Putting an item in never waits: a full or closed queue refuses it.
Taking an item out first gets a permit, of which there is meant to be one for
each item, and then removes the oldest item.

Putting in and taking out are made of two sections each, since the items and the
permits have locks of their own: `append?` then `post`, and `wait` then
`remove`.

A queue counts its permits exactly, as a machine word does while there are fewer
calls than it has numbers.
-/

namespace FileServer

/-- Items waiting for someone to take them. -/
structure Queue (α : Type) where
  items : List α
  available : Semaphore
  capacity : Nat
  deriving DecidableEq, Repr

namespace Queue

variable {α : Type}

/-- An empty queue. -/
def ofCapacity (capacity : Nat) : Queue α :=
  ⟨[], ⟨0, false⟩, capacity⟩

/-- Whether the queue is closed. -/
def isClosed (queue : Queue α) : Bool :=
  queue.available.closed

/-- Puts an item behind the others, unless the queue is closed or full. -/
def append? (queue : Queue α) (item : α) : Option (Queue α) :=
  if queue.isClosed || queue.capacity ≤ queue.items.length then
    none
  else
    some { queue with items := queue.items ++ [item] }

/-- Tells the takers of an item that was appended. -/
def post (queue : Queue α) : Queue α :=
  { queue with available := queue.available.supply }

/-- Puts an item into the queue; `none` means that it was refused. -/
def push? (queue : Queue α) (item : α) : Option (Queue α) :=
  (queue.append? item).map post

/-- Tries to get the permit to take an item. -/
def wait (queue : Queue α) : Semaphore.Attempt × Queue α :=
  let (attempt, available) := queue.available.attempt
  (attempt, { queue with available })

/-- Removes the oldest item. -/
def remove (queue : Queue α) : Option α × Queue α :=
  match queue.items with
  | [] => (none, queue)
  | item :: items => (some item, { queue with items })

/-- Takes the oldest item, or nothing from a closed queue.  The result is `none`
when the taker has to wait. -/
def pop? (queue : Queue α) : Option (Option α × Queue α) :=
  match queue.wait with
  | (.granted, granted) => some granted.remove
  | (.refused, refused) => some (none, refused)
  | (.blocked, _) => none

/-- Closes the queue.  The items stay. -/
def close (queue : Queue α) : Queue α :=
  { queue with available := queue.available.close }

/-- Removes all items.  The permits stay. -/
def drain (queue : Queue α) : List α × Queue α :=
  (queue.items, { queue with items := [] })

/-- An item is refused exactly by a closed or full queue. -/
theorem push?_eq_none_iff {queue : Queue α} {item : α} :
    queue.push? item = none ↔ queue.isClosed = true ∨ queue.capacity ≤ queue.items.length := by
  simp only [push?, append?]
  split <;> simp_all

/-- An accepted item is the last one. -/
theorem items_push? {queue grown : Queue α} {item : α}
    (accepted : queue.push? item = some grown) : grown.items = queue.items ++ [item] := by
  simp only [push?, append?] at accepted
  split at accepted
  · simp at accepted
  · simp only [Option.map_some, Option.some.injEq] at accepted
    subst accepted
    rfl

end Queue

end FileServer
