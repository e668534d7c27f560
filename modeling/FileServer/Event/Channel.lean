/-!
# The notification channel

Signals of the process and calls from workers reach the event loop as entries of
one channel, which the loop reads like any other descriptor.  Writing to the
channel never waits: an entry that finds it full is dropped, since the loop will
be woken by the entries before it.
-/

namespace FileServer

/-- What is written to the channel. -/
inductive Signal where
  /-- The alarm clock of the process went off. -/
  | alarm
  /-- The process, or whoever holds a handle of the server, asks it to end. -/
  | terminate
  /-- The user interrupted the process. -/
  | interrupt
  /-- A worker has finished a task. -/
  | wake
  deriving DecidableEq, Repr

/-- What the event loop is told. -/
inductive Notice where
  /-- It is time to look for idle connections. -/
  | sweep
  /-- The loop is to end. -/
  | stop
  /-- There are finished tasks. -/
  | wake
  deriving DecidableEq, Repr

/-- What an entry of the channel tells the loop. -/
def Signal.notice : Signal → Notice
  | .alarm => .sweep
  | .terminate | .interrupt => .stop
  | .wake => .wake

/-- Entries that are not read yet, the oldest first. -/
structure Channel where
  capacity : Nat
  pending : List Signal
  deriving DecidableEq, Repr

namespace Channel

/-- Number of entries that a pair of local sockets takes by default. -/
def defaultCapacity : Nat := 278

/-- A channel without entries. -/
def ofCapacity (capacity : Nat) : Channel :=
  ⟨capacity, []⟩

/-- Writes an entry; a full channel stays as it is. -/
def send (channel : Channel) (signal : Signal) : Channel :=
  if channel.pending.length < channel.capacity then
    { channel with pending := channel.pending ++ [signal] }
  else
    channel

/-- Reads all entries. -/
def drain (channel : Channel) : List Notice × Channel :=
  (channel.pending.map Signal.notice, { channel with pending := [] })

/-- The channel never holds more than its capacity. -/
theorem send_le_capacity {channel : Channel} (bounded : channel.pending.length ≤ channel.capacity)
    (signal : Signal) : (channel.send signal).pending.length ≤ (channel.send signal).capacity := by
  simp only [send]
  split
  · simp
    omega
  · exact bounded

/-- After any write to a channel with room for an entry there is something to
read. -/
theorem pending_send_ne_nil {channel : Channel} (room : 0 < channel.capacity) (signal : Signal) :
    (channel.send signal).pending ≠ [] := by
  simp only [send]
  split
  · simp
  · next full =>
      intro empty
      simp [empty] at full
      omega

end Channel

end FileServer
