/-!
# Timers

Timers wait in a doubly linked list, the earliest deadline first, and timers of
one deadline in the order in which they came.  The nodes of the list live in the
cells of an arena and are linked by their places in it.  A released cell is used
again for a later timer; it counts how often it was released, and an identifier
carries this count, so that the identifier of a timer that is gone never means a
later timer in the same cell.

Operations that follow a link return `none` when the link leads to an empty cell
or when the links run in a circle.  The operations themselves never make such
links.
-/

namespace FileServer

/-- Names one timer for ever: its cell, and how often the cell had been released
before. -/
structure TimerId where
  index : Nat
  generation : Nat
  deriving DecidableEq, Repr

/-- A timer with its neighbours in the list. -/
structure Timer (α : Type) where
  expire : Nat
  data : α
  prev : Option Nat := none
  next : Option Nat := none
  deriving DecidableEq, Repr

/-- A place for one timer. -/
structure TimerCell (α : Type) where
  generation : Nat
  timer : Option (Timer α)
  deriving DecidableEq, Repr

/-- All timers.  `free` are the empty cells, the one released last in front, and
`size` is the number of timers. -/
structure Timers (α : Type) where
  cells : Array (TimerCell α)
  free : List Nat
  head : Option Nat
  tail : Option Nat
  size : Nat
  deriving DecidableEq, Repr

namespace Timers

variable {α : Type}

/-- No timers, and no cells. -/
def empty : Timers α := ⟨#[], [], none, none, 0⟩

/-- The number of releases after which a cell starts counting again. -/
def generationBound : Nat := 0x10000000000000000

/-! ## Cells -/

/-- The timer in a cell. -/
def timer? (timers : Timers α) (index : Nat) : Option (Timer α) :=
  timers.cells[index]?.bind TimerCell.timer

/-- How often a cell has been released. -/
def generation (timers : Timers α) (index : Nat) : Nat :=
  (timers.cells[index]?.map TimerCell.generation).getD 0

/-- The identifier of the timer in a cell. -/
def idAt (timers : Timers α) (index : Nat) : TimerId :=
  ⟨index, timers.generation index⟩

/-- Whether an identifier means a timer that is still waiting. -/
def contains (timers : Timers α) (id : TimerId) : Bool :=
  match timers.cells[id.index]? with
  | some cell => cell.generation == id.generation && cell.timer.isSome
  | none => false

/-- The data of a timer that is still waiting. -/
def get? (timers : Timers α) (id : TimerId) : Option α :=
  if timers.contains id then (timers.timer? id.index).map Timer.data else none

/-- Changes the timer in a cell. -/
def update? (timers : Timers α) (index : Nat) (change : Timer α → Timer α) :
    Option (Timers α) :=
  match timers.cells[index]? with
  | some ⟨generation, some timer⟩ =>
      some { timers with
        cells := timers.cells.setIfInBounds index ⟨generation, some (change timer)⟩ }
  | _ => none

/-- Puts a timer into the cell that was released last, or into a new one. -/
def place (timers : Timers α) (timer : Timer α) : Nat × Timers α :=
  match timers.free with
  | index :: free =>
      (index, { timers with
        cells := timers.cells.modify index fun cell => { cell with timer := some timer }
        free
        size := timers.size + 1 })
  | [] =>
      (timers.cells.size, { timers with
        cells := timers.cells.push ⟨0, some timer⟩
        size := timers.size + 1 })

/-- Empties a cell. -/
def release? (timers : Timers α) (index : Nat) : Option (Timer α × Timers α) :=
  match timers.cells[index]? with
  | some ⟨generation, some timer⟩ =>
      some (timer, { timers with
        cells := timers.cells.setIfInBounds index ⟨(generation + 1) % generationBound, none⟩
        free := index :: timers.free
        size := timers.size - 1 })
  | _ => none

/-! ## Links -/

/-- Sets the link that leads forward to a place: that of the timer before it, or
the start of the list. -/
def linkForward? (timers : Timers α) (before next : Option Nat) : Option (Timers α) :=
  match before with
  | some index => timers.update? index fun timer => { timer with next }
  | none => some { timers with head := next }

/-- Sets the link that leads back to a place: that of the timer behind it, or the
end of the list. -/
def linkBack? (timers : Timers α) (behind prev : Option Nat) : Option (Timers α) :=
  match behind with
  | some index => timers.update? index fun timer => { timer with prev }
  | none => some { timers with tail := prev }

/-- Puts a placed timer between two neighbours. -/
def linkBetween? (timers : Timers α) (index : Nat) (prev next : Option Nat) :
    Option (Timers α) := do
  let own ← timers.update? index fun timer => { timer with prev, next }
  let forward ← own.linkForward? prev (some index)
  forward.linkBack? next (some index)

/-- Takes a timer out of the list.  Its cell stays in use. -/
def unlink? (timers : Timers α) (index : Nat) : Option (Timers α) := do
  let timer ← timers.timer? index
  let alone ← timers.update? index fun timer => { timer with prev := none, next := none }
  let forward ← alone.linkForward? timer.prev timer.next
  forward.linkBack? timer.next timer.prev

/-- The neighbours between which a deadline belongs, from a place in the list on:
`prev` expires no later, and `next`, if there is one, expires later.  The first
number bounds the steps. -/
def seek? (timers : Timers α) (expire : Nat) :
    Nat → (prev : Nat) → (next : Option Nat) → Option (Nat × Option Nat)
  | _, prev, none => some (prev, none)
  | 0, _, some _ => none
  | steps + 1, prev, some next =>
      match timers.timer? next with
      | none => none
      | some timer =>
          if expire < timer.expire then some (prev, some next)
          else timers.seek? expire steps next timer.next

/-- Puts a placed timer somewhere behind a timer that expires no later. -/
def insertBehind? (timers : Timers α) (index anchor : Nat) : Option (Timers α) := do
  let timer ← timers.timer? index
  let start ← timers.timer? anchor
  let (prev, next) ← timers.seek? timer.expire timers.cells.size anchor start.next
  timers.linkBetween? index (some prev) next

/-- Puts a placed timer where its deadline belongs. -/
def insert? (timers : Timers α) (index expire : Nat) : Option (Timers α) :=
  match timers.head with
  | none => timers.linkBetween? index none none
  | some head => do
      let first ← timers.timer? head
      if expire < first.expire then
        timers.linkBetween? index none (some head)
      else
        timers.insertBehind? index head

/-! ## Operations -/

/-- Adds a timer behind all that expire no later. -/
def add? (timers : Timers α) (expire : Nat) (data : α) : Option (TimerId × Timers α) := do
  let (index, placed) := timers.place { expire, data }
  let linked ← placed.insert? index expire
  return (linked.idAt index, linked)

/-- Moves a timer whose deadline was changed from `old` to `expire`.  A timer that
need not move stays where it is: a later deadline moves it only past a timer
that expires earlier, an earlier deadline only past one that expires later. -/
def relocate? (timers : Timers α) (index old expire : Nat) (prev next : Option Nat) :
    Option (Timers α) :=
  if old ≤ expire then
    match next with
    | none => some timers
    | some next => do
        let behind ← timers.timer? next
        if behind.expire < expire then
          (← timers.unlink? index).insertBehind? index next
        else
          return timers
  else
    match prev with
    | none => some timers
    | some prev => do
        let before ← timers.timer? prev
        if expire < before.expire then
          (← timers.unlink? index).insert? index expire
        else
          return timers

/-- Gives a timer a new deadline.  The result is false when the timer is gone. -/
def adjust? (timers : Timers α) (id : TimerId) (expire : Nat) : Option (Bool × Timers α) :=
  if timers.contains id then do
    let timer ← timers.timer? id.index
    let changed ← timers.update? id.index fun timer => { timer with expire }
    let moved ← changed.relocate? id.index timer.expire expire timer.prev timer.next
    return (true, moved)
  else
    some (false, timers)

/-- Takes a timer out of the list and empties its cell. -/
def remove? (timers : Timers α) (index : Nat) : Option (Timer α × Timers α) := do
  let unlinked ← timers.unlink? index
  unlinked.release? index

/-- Deletes a timer.  The result is its data, or nothing when it is gone. -/
def delete? (timers : Timers α) (id : TimerId) : Option (Option α × Timers α) :=
  if timers.contains id then do
    let (timer, rest) ← timers.remove? id.index
    return (some timer.data, rest)
  else
    some (none, timers)

/-- Removes timers from the front of the list as long as they are due, and goes on
counting from those that fired before.  The first number bounds the steps. -/
def fire? (now : Nat) :
    Nat → (count : Nat) → Timers α → Option (List (TimerId × α) × Nat × Timers α)
  | steps, count, timers =>
      match timers.head with
      | none => some ([], count, timers)
      | some head =>
          match timers.timer? head with
          | none => none
          | some timer =>
              if now < timer.expire then
                some ([], count, timers)
              else
                match steps with
                | 0 => none
                | steps + 1 => do
                    let (_, rest) ← timers.remove? head
                    let (fired, total, left) ← fire? now steps (count + 1) rest
                    return ((timers.idAt head, timer.data) :: fired, total, left)

/-- Removes all timers that are due and returns them, the earliest deadline first,
with their number. -/
def fireAll? (timers : Timers α) (now : Nat) :
    Option (List (TimerId × α) × Nat × Timers α) :=
  fire? now timers.cells.size 0 timers

/-- Removes all timers that are due and returns them. -/
def tick? (timers : Timers α) (now : Nat) : Option (List (TimerId × α) × Timers α) :=
  (timers.fireAll? now).map fun (fired, _, left) => (fired, left)

/-- Empties the cells of a chain.  The first number bounds the steps. -/
def releaseChain? : Nat → Option Nat → Timers α → Option (Timers α)
  | _, none, timers => some timers
  | 0, some _, _ => none
  | steps + 1, some index, timers => do
      let (timer, rest) ← timers.release? index
      releaseChain? steps timer.next rest

/-- Removes all timers. -/
def clear? (timers : Timers α) : Option (Timers α) := do
  let released ← releaseChain? timers.cells.size timers.head timers
  return { released with head := none, tail := none }

/-! ## Views -/

/-- The cells of a chain, in its order.  The first number bounds the steps. -/
def chain? (timers : Timers α) : Nat → Option Nat → Option (List Nat)
  | _, none => some []
  | 0, some _ => none
  | steps + 1, some index => do
      let timer ← timers.timer? index
      return index :: (← timers.chain? steps timer.next)

/-- The cells of the list, from its start to its end. -/
def order? (timers : Timers α) : Option (List Nat) :=
  timers.chain? timers.cells.size timers.head

/-- The deadlines in the order of the list. -/
def deadlines? (timers : Timers α) : Option (List Nat) := do
  let order ← timers.order?
  order.mapM fun index => (timers.timer? index).map Timer.expire

/-- The earliest deadline: the inner `none` says that there are no timers. -/
def nextExpiry? (timers : Timers α) : Option (Option Nat) :=
  match timers.head with
  | none => some none
  | some head => (timers.timer? head).map fun timer => some timer.expire

/-! ## Operations on lists without broken links -/

/-- Adds a timer. -/
def add (timers : Timers α) (expire : Nat) (data : α) : TimerId × Timers α :=
  (timers.add? expire data).getD (timers.idAt timers.cells.size, timers)

/-- Gives a timer a new deadline. -/
def adjust (timers : Timers α) (id : TimerId) (expire : Nat) : Timers α :=
  match timers.adjust? id expire with
  | some (_, adjusted) => adjusted
  | none => timers

/-- Deletes a timer. -/
def delete (timers : Timers α) (id : TimerId) : Timers α :=
  match timers.delete? id with
  | some (_, rest) => rest
  | none => timers

/-- Removes all timers that are due and returns them. -/
def tick (timers : Timers α) (now : Nat) : List (TimerId × α) × Timers α :=
  (timers.tick? now).getD ([], timers)

/-- Removes all timers. -/
def clear (timers : Timers α) : Timers α :=
  timers.clear?.getD timers

/-- The earliest deadline. -/
def nextExpiry (timers : Timers α) : Option Nat :=
  timers.nextExpiry?.getD none

end Timers

end FileServer
