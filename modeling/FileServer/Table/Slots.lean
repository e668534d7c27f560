import FileServer.Storage.FdMap
import FileServer.Table.Slot

/-!
# The table of slots

The table has a place for each descriptor from zero up to a limit.  A slot is
made when its descriptor is used for the first time and then stays.
-/

namespace FileServer

/-- Slots by descriptor, for descriptors from zero up to, not including, the
limit. -/
structure Slots where
  limit : Nat
  slots : FdMap Slot
  deriving DecidableEq, Repr

namespace Slots

/-- A table without slots. -/
def ofLimit (limit : Nat) : Slots :=
  ⟨limit, .empty⟩

/-- Whether a descriptor has a place in the table. -/
def fits (table : Slots) (fd : Fd) : Bool :=
  0 ≤ fd && fd < table.limit

/-- The slot of a descriptor, if it has been used before. -/
def slot? (table : Slots) (fd : Fd) : Option Slot :=
  if table.fits fd then table.slots.find? fd else none

/-- Who may touch the connection of a descriptor. -/
def custody (table : Slots) (fd : Fd) : Custody :=
  ((table.slot? fd).map Slot.custody).getD .free

/-- Sets the slot of a descriptor. -/
def set (table : Slots) (fd : Fd) (slot : Slot) : Slots :=
  { table with slots := table.slots.insert fd slot }

/-- Starts a connection.  The result is its generation; there is none when the
descriptor has no place or its slot is in use. -/
def open? (table : Slots) (fd : Fd) (peer : Address) : Option (Nat × Slots) :=
  if table.fits fd then
    match ((table.slots.find? fd).getD .fresh).open? peer with
    | some slot => some (slot.generation, table.set fd slot)
    | none => none
  else
    none

/-- Closes the connection of a descriptor, if its slot has been used. -/
def release (table : Slots) (fd : Fd) : Slots :=
  match table.slot? fd with
  | some slot => table.set fd slot.release
  | none => table

/-- The descriptors that have a connection, in ascending order. -/
def openFds (table : Slots) : List Fd :=
  (table.slots.entries.filter fun (_, slot) => slot.custody != .free).map Prod.fst

@[simp] theorem fits_set (table : Slots) (fd other : Fd) (slot : Slot) :
    (table.set fd slot).fits other = table.fits other := rfl

/-- What was set for a descriptor with a place is its slot. -/
theorem slot?_set_self {table : Slots} {fd : Fd} (inside : table.fits fd = true)
    (slot : Slot) : (table.set fd slot).slot? fd = some slot := by
  rw [slot?, fits_set, if_pos inside]
  exact FdMap.find?_insert_self _ _ _

/-- Setting one slot leaves all others alone. -/
theorem slot?_set_of_ne {table : Slots} {fd other : Fd} (differ : other ≠ fd) (slot : Slot) :
    (table.set fd slot).slot? other = table.slot? other := by
  rw [slot?, slot?, fits_set]
  split
  · exact FdMap.find?_insert_of_ne differ slot
  · rfl

end Slots

end FileServer
