import FileServer.Text.Basic

/-!
# Checked slices

A part of a byte sequence is named by where it starts and where it stops.  A
slice exists only when it starts no later than it stops and stops inside the
sequence.
-/

namespace FileServer

/-- The bytes from `start` up to, not including, `stop`. -/
def slice? (bytes : Bytes) (start stop : Nat) : Option Bytes :=
  if start ≤ stop ∧ stop ≤ bytes.length then
    some ((bytes.drop start).take (stop - start))
  else
    none

@[simp] theorem slice?_isSome_iff {bytes : Bytes} {start stop : Nat} :
    (slice? bytes start stop).isSome = true ↔ start ≤ stop ∧ stop ≤ bytes.length := by
  simp only [slice?]
  split <;> simp_all

/-- A slice that lies in the front part of a sequence does not depend on what
follows. -/
theorem slice?_append {front : Bytes} {start stop : Nat} (inside : stop ≤ front.length)
    (rest : Bytes) : slice? (front ++ rest) start stop = slice? front start stop := by
  simp only [slice?, List.length_append, inside, and_true]
  by_cases ordered : start ≤ stop
  · have : stop ≤ front.length + rest.length := by omega
    simp only [ordered, this, and_self, ↓reduceIte, Option.some.injEq]
    rw [List.drop_append, List.take_append_of_le_length]
    simp
    omega
  · simp [ordered]

end FileServer
