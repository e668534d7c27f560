import FileServer.Config.Settings
import FileServer.Idle.Deadline
import FileServer.Report.LogLine

/-!
# The summary of the settings

When the server starts it logs its settings in four events.
-/

namespace FileServer.Settings

/-- The target of the events. -/
def summaryTarget : Text := "reactor_http::config".toList

/-- An event of the summary. -/
def summaryEvent (message : String) (fields : List (String × Text)) : LogEvent where
  level := .info
  target := summaryTarget
  message
  fields

/-- What the server listens on and serves. -/
def networkEvent (settings : Settings) : LogEvent :=
  summaryEvent "network" [("address", settings.address), ("doc_root", settings.docRoot)]

/-- The workers. -/
def workersEvent (settings : Settings) : LogEvent :=
  summaryEvent "worker pool" [("threads", Decimal.digits settings.threads),
    ("queue_capacity", Decimal.digits settings.queueCapacity)]

/-- The connections, which may be idle for so many seconds. -/
def connectionsEvent (settings : Settings) (idleSeconds : Nat) : LogEvent :=
  summaryEvent "connections" [("max_fd", Decimal.digits settings.maxFd),
    ("max_connections", Decimal.digits settings.maxConnections),
    ("idle_timeout_secs", Decimal.digits idleSeconds)]

/-- Where the log goes. -/
def loggingEvent (settings : Settings) : LogEvent :=
  match settings.logFile with
  | some file =>
      summaryEvent "logging" [("file", file), ("queue", Decimal.digits settings.logQueue),
        ("split_lines", Decimal.digits settings.logSplitLines)]
  | none => summaryEvent "logging to stderr" []

end FileServer.Settings
