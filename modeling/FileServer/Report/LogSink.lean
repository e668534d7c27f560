import FileServer.Report.LogFile
import FileServer.Text.Utf8
import FileServer.Work.Queue

/-!
# Log sinks

A log sink takes lines from many threads.  Without a queue it writes each line at
once.  With a queue, lines wait there for a thread of their own that writes them,
the flusher; a line that the queue refuses is written at once.  Stopping a sink
closes the queue and writes what is left in it.

The steps of the flusher are separate operations, since other threads may use
the sink between them: it takes a line from the queue, then it writes the line.
-/

namespace FileServer

/-- A log file with the queue before it, the files around it, and what could not
be logged about the log itself. -/
structure LogSink where
  file : LogFile
  queue : Option (Queue Text)
  tree : FileTree
  complaints : List String := []
  deriving DecidableEq, Repr

namespace LogSink

/-- Opens a sink.  It has a queue if that may hold lines at all. -/
def start (tree : FileTree) (path : Text) (queueCapacity splitLines today : Nat) :
    Except IoError LogSink × FileTree :=
  match LogFile.start tree path splitLines today with
  | (.error error, touched) => (.error error, touched)
  | (.ok file, touched) =>
      let queue := if 0 < queueCapacity then some (Queue.ofCapacity queueCapacity) else none
      (.ok { file, queue, tree := touched }, touched)

/-- Whether lines wait in a queue. -/
def isAsync (sink : LogSink) : Bool :=
  sink.queue.isSome

/-- Writes a line to the file.  A failure is told to the user, since the log cannot
hold it. -/
def writeDirect (sink : LogSink) (today : Nat) (line : Text) : LogSink :=
  match sink.file.writeLine sink.tree today line with
  | (.ok (), file, tree) => { sink with file, tree }
  | (.error kind, file, tree) =>
      { sink with
        file
        tree
        complaints := sink.complaints ++ ["log write failed: " ++ kind.systemMessage] }

/-- Takes a line. -/
def submit (sink : LogSink) (today : Nat) (line : Text) : LogSink :=
  match sink.queue with
  | none => sink.writeDirect today line
  | some queue =>
      match queue.push? line with
      | some grown => { sink with queue := some grown }
      | none => sink.writeDirect today line

/-- Takes an event that was written in pieces.  Nothing at all is no line. -/
def submitEvent (sink : LogSink) (today : Nat) (pieces : List Bytes) : LogSink :=
  if pieces.flatten.isEmpty then sink
  else sink.submit today (Utf8.decodeLossy pieces.flatten)

/-- The flusher takes a line from the queue.  The outer `none` means that it has to
wait, the inner one that the queue is closed. -/
def takeLine? (sink : LogSink) : Option (Option Text × LogSink) :=
  match sink.queue with
  | none => some (none, sink)
  | some queue =>
      match queue.pop? with
      | none => none
      | some (line, rest) => some (line, { sink with queue := some rest })

/-- Runs the flusher for a number of lines at most. -/
def runFlusherFor (today : Nat) : Nat → LogSink → LogSink
  | 0, sink => sink
  | lines + 1, sink =>
      match sink.takeLine? with
      | some (some line, rest) => runFlusherFor today lines (rest.writeDirect today line)
      | some (none, rest) => rest
      | none => sink

/-- The number of lines that wait. -/
def waiting (sink : LogSink) : Nat :=
  match sink.queue with
  | none => 0
  | some queue => queue.items.length

/-- Runs the flusher until it has to wait. -/
def runFlusher (sink : LogSink) (today : Nat) : LogSink :=
  runFlusherFor today sink.waiting sink

/-- Writes out what the file holds back. -/
def flush (sink : LogSink) : LogSink :=
  let (file, tree) := sink.file.writeOut sink.tree
  { sink with file, tree }

/-- Closes the queue and removes what is in it. -/
def closeQueue (sink : LogSink) : List Text × LogSink :=
  match sink.queue with
  | none => ([], sink)
  | some queue =>
      let (lines, rest) := queue.close.drain
      (lines, { sink with queue := some rest })

/-- Closes the queue, writes the lines in it, and writes out what the file holds
back. -/
def stop (sink : LogSink) (today : Nat) : LogSink :=
  let (lines, closed) := sink.closeQueue
  (lines.foldl (fun sink line => sink.writeDirect today line) closed).flush

/-- Gives the sink up.  The file is left, and so what it holds back is written out,
unless a flusher that still waits for lines keeps the sink. -/
def drop (sink : LogSink) (flusherRuns : Bool) : LogSink :=
  if flusherRuns && sink.takeLine?.isNone then sink else sink.flush

end LogSink

end FileServer
