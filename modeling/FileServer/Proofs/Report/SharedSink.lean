import FileServer.Report.LogSink

/-!
# A log sink in the middle of its calls

Many threads hand lines to one sink, the flusher takes lines out of its queue, and one call
stops it.  Each of these calls is made of sections, each under a lock of its own: the items of
the queue, its permits, and the file have one lock each.  A shared sink is a sink with all that
is between two of these sections, and any section that is due may be next.

A line that goes into the queue is put there in two sections, though both are under the lock of
the items: in between the queue can be closed, which is under the lock of the permits.
-/

namespace FileServer

/-- What the flusher is at. -/
inductive Flusher where
  | absent
  | waiting
  /-- It has a permit and no line yet. -/
  | granted
  /-- It has a line to write. -/
  | holding (line : Text)
  | stopped
  deriving DecidableEq, Repr

namespace Flusher

/-- The line in the hands of the flusher. -/
def held : Flusher → List Text
  | .holding line => [line]
  | _ => []

/-- Whether there is no flusher at work: there never was one, or it has been joined. -/
def isGone : Flusher → Bool
  | .absent | .stopped => true
  | _ => false

end Flusher

/-- How far a sink has come with stopping. -/
inductive SinkStopping where
  | unbegun
  /-- The queue is closed. -/
  | closed
  /-- The queue is emptied, and these of its lines are left to write. -/
  | writing (lines : List Text)
  | returned
  deriving DecidableEq, Repr

namespace SinkStopping

/-- The lines in the hands of the call that stops the sink. -/
def held : SinkStopping → List Text
  | .writing lines => lines
  | _ => []

/-- Whether the queue is emptied. -/
def hasDrained : SinkStopping → Bool
  | .unbegun | .closed => false
  | .writing _ | .returned => true

end SinkStopping

/-- A sink between two sections of its calls, and what has been written to which files. -/
structure SharedSink where
  sink : LogSink
  /-- The line of the call that holds the lock of the items and has found room. -/
  entering : Option Text
  /-- How many calls have put their line into the queue and post its permit next. -/
  posting : Nat
  /-- The lines that calls are about to write themselves. -/
  direct : List Text
  flusher : Flusher
  stopping : SinkStopping
  /-- The lines that were written with the places of their files, in order. -/
  written : List (Location × Text)
  deriving DecidableEq, Repr

namespace SharedSink

variable {shared next : SharedSink}

/-- A sink that nobody has used yet. -/
def ofSink (sink : LogSink) : SharedSink where
  sink
  entering := none
  posting := 0
  direct := []
  flusher := .absent
  stopping := .unbegun
  written := []

/-- A section that may be next. -/
inductive Section where
  /-- A call hands in a line and asks the queue whether there is room. -/
  | submit (line : Text)
  /-- A call puts its line into the queue. -/
  | append
  /-- A call posts the permit for its line. -/
  | post
  /-- A call writes its line itself. -/
  | write (index today : Nat)
  /-- The flusher is started. -/
  | spawn
  /-- The flusher takes a permit. -/
  | wait
  /-- The flusher removes a line from the queue. -/
  | remove
  /-- The flusher writes its line. -/
  | deliver (today : Nat)
  /-- What the file holds back is written out. -/
  | flush
  /-- Stopping goes on. -/
  | stop (today : Nat)
  deriving DecidableEq, Repr

/-- The line that a section hands in. -/
def Section.line? : Section → Option Text
  | .submit line => some line
  | _ => none

/-- All lines that were handed in. -/
def submitted (sections : List Section) : List Text :=
  sections.filterMap Section.line?

/-- The queue is as it was left. -/
def setQueue (shared : SharedSink) (queue : Queue Text) : SharedSink :=
  { shared with sink := { shared.sink with queue := some queue } }

/-- A line is written to the file, under the lock of the file. -/
def record (shared : SharedSink) (today : Nat) (line : Text) : SharedSink :=
  let sink := shared.sink.writeDirect today line
  { shared with sink, written := shared.written ++ [(sink.file.place, line)] }

/-- A call hands in a line.  It waits as long as another call holds the lock of the items. -/
def submit? (shared : SharedSink) (line : Text) : Option SharedSink :=
  match shared.sink.queue, shared.entering with
  | none, _ => some { shared with direct := shared.direct ++ [line] }
  | some _, some _ => none
  | some queue, none =>
      match queue.append? line with
      | none => some { shared with direct := shared.direct ++ [line] }
      | some _ => some { shared with entering := some line }

/-- A call puts its line into the queue, which may have been closed since it has found room. -/
def append? (shared : SharedSink) : Option SharedSink :=
  match shared.sink.queue, shared.entering with
  | some queue, some line =>
      some { shared.setQueue { queue with items := queue.items ++ [line] } with
        entering := none
        posting := shared.posting + 1 }
  | _, _ => none

/-- A call posts its permit and returns. -/
def post? (shared : SharedSink) : Option SharedSink :=
  match shared.sink.queue, shared.posting with
  | some queue, posting + 1 => some { shared.setQueue queue.post with posting }
  | _, _ => none

/-- A call writes its line and returns. -/
def write (shared : SharedSink) (index today : Nat) (line : Text) : SharedSink :=
  { shared.record today line with direct := shared.direct.eraseIdx index }

/-- The flusher is started, if lines wait in a queue at all. -/
def spawn? (shared : SharedSink) : Option SharedSink :=
  match shared.flusher with
  | .absent => some (if shared.sink.isAsync then { shared with flusher := .waiting } else shared)
  | _ => none

/-- The flusher takes a permit, or learns that the queue is closed. -/
def wait? (shared : SharedSink) : Option SharedSink :=
  match shared.sink.queue, shared.flusher with
  | some queue, .waiting =>
      match queue.wait with
      | (.granted, rest) => some { shared.setQueue rest with flusher := .granted }
      | (.refused, rest) => some { shared.setQueue rest with flusher := .stopped }
      | (.blocked, _) => none
  | _, _ => none

/-- The flusher removes the line for its permit.  It waits as long as a call holds the lock of
the items, and it stops when the queue was emptied. -/
def remove? (shared : SharedSink) : Option SharedSink :=
  match shared.sink.queue, shared.flusher, shared.entering with
  | some queue, .granted, none =>
      match queue.remove with
      | (some line, rest) => some { shared.setQueue rest with flusher := .holding line }
      | (none, rest) => some { shared.setQueue rest with flusher := .stopped }
  | _, _, _ => none

/-- The flusher writes its line and waits for the next. -/
def deliver? (shared : SharedSink) (today : Nat) : Option SharedSink :=
  match shared.flusher with
  | .holding line => some { shared.record today line with flusher := .waiting }
  | _ => none

/-- Stopping goes on.  To empty the queue it waits as long as a call holds the lock of the
items.  The last section writes out what the file holds back. -/
def stop? (shared : SharedSink) (today : Nat) : Option SharedSink :=
  match shared.stopping, shared.sink.queue with
  | .unbegun, none => some { shared with stopping := .writing [] }
  | .unbegun, some queue => some { shared.setQueue queue.close with stopping := .closed }
  | .closed, some queue =>
      match shared.entering with
      | none =>
          let (lines, rest) := queue.drain
          some { shared.setQueue rest with stopping := .writing lines }
      | some _ => none
  | .closed, none => none
  | .writing (line :: rest), _ => some { shared.record today line with stopping := .writing rest }
  | .writing [], _ => some { shared with sink := shared.sink.flush, stopping := .returned }
  | .returned, _ => none

/-- One section; `none` if it is not due. -/
def step? (shared : SharedSink) : Section → Option SharedSink
  | .submit line => shared.submit? line
  | .append => shared.append?
  | .post => shared.post?
  | .write index today => shared.direct[index]?.map (shared.write index today)
  | .spawn => shared.spawn?
  | .wait => shared.wait?
  | .remove => shared.remove?
  | .deliver today => shared.deliver? today
  | .flush => some { shared with sink := shared.sink.flush }
  | .stop today => shared.stop? today

/-- Any number of sections, in order. -/
def run? (shared : SharedSink) : List Section → Option SharedSink
  | [] => some shared
  | first :: rest => (shared.step? first).bind (run? · rest)

theorem run?_append (shared : SharedSink) (front back : List Section) :
    shared.run? (front ++ back) = (shared.run? front).bind (run? · back) := by
  induction front generalizing shared with
  | nil => rfl
  | cons first rest ih =>
      simp only [List.cons_append, run?, Option.bind_assoc]
      exact congrArg _ (funext fun middle => ih middle)

/-- The lines in the queue. -/
def items (shared : SharedSink) : List Text :=
  (shared.sink.queue.map Queue.items).getD []

/-- Of lines that were written, those in the file at a place, in order. -/
def linesAt (written : List (Location × Text)) (location : Location) : List Text :=
  (written.filter (·.1 = location)).map Prod.snd

end SharedSink

end FileServer
