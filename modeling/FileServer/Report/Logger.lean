import FileServer.Report.LogLine
import FileServer.Report.LogSink
import FileServer.ServerFailure
import FileServer.Config.Settings

/-!
# The log of the server

The log goes to a file if the settings name one, else to the standard error.  A
filter decides what is logged: the one in a variable of the environment if that
has one that can be read, else the one in the settings.
-/

namespace FileServer

/-- Where the log goes. -/
inductive LogDestination where
  /-- The standard error, with what was written to it. -/
  | standardError (text : Text)
  | file (sink : LogSink)
  deriving DecidableEq, Repr

/-- A filter and a destination. -/
structure Logger where
  filter : LogFilter
  destination : LogDestination
  deriving DecidableEq, Repr

/-- Why the log is not opened. -/
inductive LoggerError where
  | refused (failure : ServerFailure)
  /-- The reading of a filter breaks down. -/
  | fault (message : String)
  deriving DecidableEq, Repr

namespace LoggerError

/-- What an error of the filter in the settings means for the log. -/
def ofFilter (error : FilterError) : LoggerError :=
  match error with
  | .splitCharacter .. => .fault error.message
  | _ => .refused (.config ("invalid log level: " ++ error.message))

end LoggerError

namespace Logger

/-- The variable of the environment that may have a filter. -/
def filterVariable : String := "RUST_LOG"

/-- The name of the thread that starts the server. -/
def mainThread : String := "main"

/-- The filter that environment and settings choose. -/
def chooseFilter (settings : Settings) (environment : List (String × Text)) :
    Except LoggerError LogFilter :=
  match (environment.lookup filterVariable).map LogFilter.parse with
  | some (.ok filter) => .ok filter
  | some (.error (.splitCharacter text place)) => .error (.ofFilter (.splitCharacter text place))
  | _ => (LogFilter.parse settings.logLevel).mapError .ofFilter

/-- Opens the log.  Nothing is opened when there is no filter. -/
def start (settings : Settings) (environment : List (String × Text)) (moment : Int)
    (tree : FileTree) : Except LoggerError Logger × FileTree :=
  match chooseFilter settings environment with
  | .error error => (.error error, tree)
  | .ok filter =>
      match settings.logFile with
      | none => (.ok ⟨filter, .standardError []⟩, tree)
      | some path =>
          match LogSink.start tree path settings.logQueue settings.logSplitLines
              (dayNumber moment) with
          | (.ok sink, touched) => (.ok ⟨filter, .file sink⟩, touched)
          | (.error error, touched) => (.error (.refused (.io error)), touched)

/-- Logs an event.  Lines of a file have the name of the thread. -/
def log (logger : Logger) (moment : Int) (event : LogEvent) : Logger :=
  if event.passes logger.filter then
    let destination :=
      match logger.destination with
      | .standardError text => .standardError (text ++ LogLine.ofEvent moment none event)
      | .file sink =>
          let line := LogLine.ofEvent moment (some mainThread) event
          .file ((sink.submitEvent (dayNumber moment) [line.bytes]).runFlusher (dayNumber moment))
    { logger with destination }
  else
    logger

/-- Ends the log. -/
def close (logger : Logger) (moment : Int) : Logger :=
  match logger.destination with
  | .standardError _ => logger
  | .file sink => { logger with destination := .file (sink.stop (dayNumber moment)) }

/-- What was written to the standard error. -/
def errorText (logger : Logger) : Text :=
  match logger.destination with
  | .standardError text => text
  | .file sink => sink.complaints.flatMap fun complaint => complaint.toList ++ ['\n']

/-- The files as the log has left them. -/
def files (logger : Logger) (tree : FileTree) : FileTree :=
  match logger.destination with
  | .standardError _ => tree
  | .file sink => sink.tree

end Logger

end FileServer
