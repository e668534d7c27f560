import FileServer.Text.Decimal

/-!
# Counting semaphores

A semaphore hands out permits.  Each operation here is what one thread does while
it holds the semaphore's lock, so a schedule of threads is a sequence of these
operations.  A closed semaphore hands out nothing more, even if permits are left.

The permits are counted in a machine word, which comes round to zero behind its
last number.
-/

namespace FileServer

/-- The state that the lock protects. -/
structure Semaphore where
  permits : Nat
  closed : Bool := false
  deriving DecidableEq, Repr

namespace Semaphore

/-- How an attempt to get a permit ends. -/
inductive Attempt where
  | granted
  /-- The semaphore is closed. -/
  | refused
  /-- There is no permit; the thread has to wait and try again. -/
  | blocked
  deriving DecidableEq, Repr

/-- Adds a permit. -/
def post (semaphore : Semaphore) : Semaphore :=
  { semaphore with permits := (semaphore.permits + 1) % Decimal.wordBound }

/-- Adds a permit and counts it, however many there are.  This is `post` as long as
the counter does not come round. -/
def supply (semaphore : Semaphore) : Semaphore :=
  { semaphore with permits := semaphore.permits + 1 }

/-- Tries to get a permit. -/
def attempt (semaphore : Semaphore) : Attempt × Semaphore :=
  if semaphore.closed then
    (.refused, semaphore)
  else
    match semaphore.permits with
    | 0 => (.blocked, semaphore)
    | permits + 1 => (.granted, { semaphore with permits })

/-- Closes the semaphore for ever. -/
def close (semaphore : Semaphore) : Semaphore :=
  { semaphore with closed := true }

/-- A permit is granted exactly by an open semaphore that has one. -/
theorem attempt_granted_iff {semaphore : Semaphore} :
    semaphore.attempt.1 = .granted ↔ semaphore.closed = false ∧ 0 < semaphore.permits := by
  obtain ⟨permits, closed⟩ := semaphore
  cases closed <;> cases permits <;> simp [attempt]

/-- An attempt blocks exactly at an open semaphore without permits. -/
theorem attempt_blocked_iff {semaphore : Semaphore} :
    semaphore.attempt.1 = .blocked ↔ semaphore.closed = false ∧ semaphore.permits = 0 := by
  obtain ⟨permits, closed⟩ := semaphore
  cases closed <;> cases permits <;> simp [attempt]

theorem permits_post_le (semaphore : Semaphore) :
    semaphore.post.permits ≤ semaphore.permits + 1 :=
  Nat.mod_le _ _

/-- A permit is counted as long as the counter does not come round. -/
theorem post_eq_supply {semaphore : Semaphore}
    (few : semaphore.permits + 1 < Decimal.wordBound) : semaphore.post = semaphore.supply := by
  rw [post, supply, Nat.mod_eq_of_lt few]

end Semaphore

end FileServer
