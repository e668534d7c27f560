/-!
# Tallies

A tally counts how often each number came up.  Numbers are kept in ascending
order, and only those that came up at all.
-/

namespace FileServer

/-- Numbers and how often each came up. -/
structure Tally where
  counts : List (Nat × Nat)
  deriving DecidableEq, Repr

namespace Tally

/-- Nothing came up yet. -/
def empty : Tally := ⟨[]⟩

/-- Counts a number once more in a list of counts. -/
def increment (number : Nat) : List (Nat × Nat) → List (Nat × Nat)
  | [] => [(number, 1)]
  | (other, count) :: rest =>
      if number < other then (number, 1) :: (other, count) :: rest
      else if number = other then (other, count + 1) :: rest
      else (other, count) :: increment number rest

/-- Counts a number once more. -/
def add (tally : Tally) (number : Nat) : Tally :=
  ⟨increment number tally.counts⟩

/-- How often a number came up. -/
def count (tally : Tally) (number : Nat) : Nat :=
  (tally.counts.lookup number).getD 0

/-- How often any number came up. -/
def total (tally : Tally) : Nat :=
  tally.counts.foldr (fun (_, count) sum => count + sum) 0

@[simp] theorem total_empty : empty.total = 0 := rfl

/-- Counting a number adds one to the total. -/
@[simp] theorem total_add (tally : Tally) (number : Nat) :
    (tally.add number).total = tally.total + 1 := by
  obtain ⟨counts⟩ := tally
  simp only [total, add]
  induction counts with
  | nil => rfl
  | cons entry rest ih =>
      obtain ⟨other, count⟩ := entry
      simp only [increment]
      split
      · simp
        omega
      · split
        · simp
          omega
        · simp [ih]
          omega

end Tally

end FileServer
