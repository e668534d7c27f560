import FileServer.Text.Decimal

/-!
# Settings

Everything about the server that its user may choose, what holds without a
choice, and which choices are refused.
-/

namespace FileServer

/-- The settings of the server. -/
structure Settings where
  port : Nat := 10000
  host : Text := "0.0.0.0".toList
  /-- The number of workers. -/
  threads : Nat := 8
  /-- How many tasks may wait for a worker. -/
  queueCapacity : Nat := 10000
  /-- Descriptors from zero up to this number can have connections. -/
  maxFd : Nat := 65536
  /-- How many connections may be open. -/
  maxConnections : Nat := 10000
  /-- The directory with the served files. -/
  docRoot : Text := "./resources".toList
  /-- Seconds between two looks for idle connections. -/
  timeslot : Nat := 5
  /-- Where the log goes; without a file it goes to the standard error. -/
  logFile : Option Text := none
  /-- How many log lines may wait to be written. -/
  logQueue : Nat := 800
  /-- How many lines a log file may have. -/
  logSplitLines : Nat := 800000
  logLevel : Text := "info".toList
  deriving DecidableEq, Repr

namespace Settings

/-- The address to listen on. -/
def address (settings : Settings) : Text :=
  settings.host ++ ':' :: Decimal.digits settings.port

/-- A rule that settings have to keep. -/
structure Rule where
  holds : Settings → Bool
  message : String

/-- All rules, in the order in which they are checked. -/
def rules : List Rule := [
  ⟨fun settings => settings.threads != 0, "Worker threads must be >= 1"⟩,
  ⟨fun settings => settings.queueCapacity != 0, "Queue capacity must be >= 1"⟩,
  ⟨fun settings => settings.maxFd != 0, "Max fd must be >= 1"⟩,
  ⟨fun settings => settings.maxConnections != 0, "Max connections must be >= 1"⟩,
  ⟨fun settings => settings.timeslot != 0, "Timeslot must be > 0"⟩,
  ⟨fun settings => settings.logSplitLines != 0, "Log split lines must be >= 1"⟩]

/-- The message of the first rule that is broken. -/
def complaint? (settings : Settings) : Option String :=
  (rules.find? fun rule => !rule.holds settings).map Rule.message

/-- Settings are accepted exactly when none of these numbers is zero. -/
theorem complaint?_eq_none_iff {settings : Settings} :
    settings.complaint? = none ↔
      settings.threads ≠ 0 ∧ settings.queueCapacity ≠ 0 ∧ settings.maxFd ≠ 0 ∧
        settings.maxConnections ≠ 0 ∧ settings.timeslot ≠ 0 ∧ settings.logSplitLines ≠ 0 := by
  simp [complaint?, rules]

end Settings

end FileServer
