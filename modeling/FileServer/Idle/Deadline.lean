/-!
# Deadlines of idle connections

A connection may be idle for three timeslots.  Spans of time are counted in
seconds and moments in milliseconds, and both have a greatest value; a timeslot
that leads beyond it is a fault.
-/

namespace FileServer

/-- How a deadline can be out of reach. -/
inductive DeadlineFault where
  /-- Three timeslots are longer than any span of time. -/
  | spanTooLong
  /-- The deadline lies beyond the last moment. -/
  | momentTooLate
  deriving DecidableEq, Repr

/-- The text of a fault. -/
def DeadlineFault.message : DeadlineFault → String
  | .spanTooLong => "overflow when multiplying duration by scalar"
  | .momentTooLate => "overflow when adding duration to instant"

namespace Deadline

/-- A span of time has fewer seconds than this. -/
def spanBound : Nat := 0x10000000000000000

/-- A moment has fewer seconds than this. -/
def momentBound : Nat := 0x8000000000000000

/-- Number of timeslots that a connection may be idle. -/
def idleTimeslots : Nat := 3

/-- How many seconds a connection may be idle, for timeslots of so many
seconds. -/
def idleSeconds (timeslot : Nat) : Except DeadlineFault Nat :=
  if timeslot * idleTimeslots < spanBound then
    .ok (timeslot * idleTimeslots)
  else
    .error .spanTooLong

/-- The deadline of a connection that was active just now. -/
def ofActivity (now timeslot : Nat) : Except DeadlineFault Nat :=
  match idleSeconds timeslot with
  | .error fault => .error fault
  | .ok seconds =>
      if now / 1000 + seconds < momentBound then .ok (now + seconds * 1000)
      else .error .momentTooLate

/-- Where there is a deadline, it is three timeslots away. -/
theorem ofActivity_eq_ok {now timeslot deadline : Nat}
    (found : ofActivity now timeslot = .ok deadline) :
    deadline = now + 3 * timeslot * 1000 := by
  unfold ofActivity idleSeconds idleTimeslots at found
  split at found
  · cases found
  · next seconds within =>
      split at within
      · cases within
        split at found
        · cases found
          omega
        · cases found
      · cases within

end Deadline

end FileServer
