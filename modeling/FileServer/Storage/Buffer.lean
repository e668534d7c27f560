import FileServer.Text.Basic

/-!
# Fixed storage

A buffer is a block of cells that never grows, of which a front part is in use.
Taking bytes out of use does not erase them: the cells keep their old values
until they are written again.  A write that does not fit may leave a part of
itself in the free cells, but the part in use does not change.
-/

namespace FileServer

/-- A block of cells; the first `used` of them are in use. -/
structure Buffer where
  cells : Bytes
  used : Nat
  deriving DecidableEq, Repr

namespace Buffer

/-- A block of zeroed cells, none of them in use. -/
def ofCapacity (capacity : Nat) : Buffer where
  cells := List.replicate capacity 0
  used := 0

/-- The number of cells. -/
def capacity (buffer : Buffer) : Nat :=
  buffer.cells.length

/-- The bytes in use. -/
def contents (buffer : Buffer) : Bytes :=
  buffer.cells.take buffer.used

/-- The number of free cells. -/
def room (buffer : Buffer) : Nat :=
  buffer.capacity - buffer.used

/-- Takes all cells out of use. -/
def clear (buffer : Buffer) : Buffer :=
  { buffer with used := 0 }

/-- Cells with new values from `offset` on; what lies beyond the last cell is
dropped. -/
def overwrite (cells : Bytes) (offset : Nat) (bytes : Bytes) : Bytes :=
  cells.take offset ++ bytes.take (cells.length - offset) ++
    cells.drop (offset + bytes.length)

@[simp] theorem length_overwrite (cells : Bytes) (offset : Nat) (bytes : Bytes) :
    (overwrite cells offset bytes).length = cells.length := by
  simp [overwrite]
  omega

/-- Writing leaves the cells before the offset alone. -/
theorem take_overwrite {cells bytes : Bytes} {offset count : Nat} (before : count ≤ offset) :
    (overwrite cells offset bytes).take count = cells.take count := by
  simp only [overwrite, List.append_assoc, List.take_append, List.take_take, List.length_take]
  rcases Nat.le_total count cells.length with inside | beyond
  · have : count - min offset cells.length = 0 := by omega
    simp [this, Nat.min_eq_left before]
  · have : cells.length - offset = 0 := by omega
    simp [this, List.drop_eq_nil_of_le (show cells.length ≤ offset + bytes.length by omega),
      Nat.min_eq_left before]

/-- Writing what fits puts exactly the new bytes behind the old ones. -/
theorem take_overwrite_end {cells bytes : Bytes} {offset : Nat}
    (fits : offset + bytes.length ≤ cells.length) :
    (overwrite cells offset bytes).take (offset + bytes.length) = cells.take offset ++ bytes := by
  have small : bytes.take (cells.length - offset) = bytes :=
    List.take_of_length_le (by omega)
  rw [overwrite, small, List.take_append_of_le_length]
  · rw [List.take_of_length_le]
    simp only [List.length_append, List.length_take]
    omega
  · simp only [List.length_append, List.length_take]
    omega

/-- Writes the pieces one after the other from `offset` on.  The result is the
offset behind the last piece, or `none` when a piece did not fit. -/
def fill (cells : Bytes) (offset : Nat) : List Bytes → Bytes × Option Nat
  | [] => (cells, some offset)
  | piece :: rest =>
      let written := overwrite cells offset piece
      if offset + piece.length ≤ cells.length then
        fill written (offset + piece.length) rest
      else
        (written, none)

/-- Appends pieces, all or none: when one of them does not fit the bytes in use
stay as they were. -/
def append (buffer : Buffer) (pieces : List Bytes) : Bool × Buffer :=
  match fill buffer.cells buffer.used pieces with
  | (cells, some used) => (true, ⟨cells, used⟩)
  | (cells, none) => (false, { buffer with cells })

/-- Puts bytes that are known to fit behind the ones in use. -/
def store (buffer : Buffer) (bytes : Bytes) : Buffer where
  cells := overwrite buffer.cells buffer.used bytes
  used := buffer.used + bytes.length

@[simp] theorem capacity_store (buffer : Buffer) (bytes : Bytes) :
    (buffer.store bytes).capacity = buffer.capacity := by
  simp [store, capacity]

@[simp] theorem contents_clear (buffer : Buffer) : buffer.clear.contents = [] := by
  simp [clear, contents]

/-- Storing what fits appends it to the bytes in use. -/
theorem contents_store {buffer : Buffer} {bytes : Bytes}
    (fits : buffer.used + bytes.length ≤ buffer.capacity) :
    (buffer.store bytes).contents = buffer.contents ++ bytes :=
  take_overwrite_end fits

end Buffer

end FileServer
