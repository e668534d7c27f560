import FileServer.Config.Settings
import FileServer.Text.Ascii

/-!
# Choosing settings

Each setting can be chosen by an option on the command line or by a variable of
the environment; the command line comes first.  An option has a long name and
sometimes a short one.  Its value is the next argument, unless that starts with a
dash, or is attached to the option, with or without an equals sign after a short
name.

An option without a value, and an option given twice, are noticed when the next
option begins or when the arguments end.
-/

namespace FileServer

/-- Why the arguments do not lead to settings. -/
inductive ArgumentError where
  /-- There is no such option, or an argument belongs to no option. -/
  | unknown
  /-- An option has no value, or a path is empty. -/
  | missingValue
  /-- A value is no number, or out of range. -/
  | badNumber
  /-- An option is given twice. -/
  | repeated
  /-- A value is attached to an option that takes none. -/
  | unwantedValue
  /-- The user asks for an explanation of the options. -/
  | helpWanted
  /-- The user asks for the version. -/
  | versionWanted
  deriving DecidableEq, Repr

/-- The settings that can be chosen. -/
inductive Choice where
  | port
  | host
  | threads
  | queueCapacity
  | maxFd
  | maxConnections
  | docRoot
  | timeslot
  | logFile
  | logQueue
  | logSplitLines
  | logLevel
  deriving DecidableEq, Repr

namespace Choice

/-- All choices, in the order in which the environment is asked for them. -/
def all : List Choice :=
  [port, host, threads, queueCapacity, maxFd, maxConnections, docRoot, timeslot, logFile,
    logQueue, logSplitLines, logLevel]

/-- The long name of the option. -/
def longName : Choice → String
  | port => "port"
  | host => "host"
  | threads => "threads"
  | queueCapacity => "queue-capacity"
  | maxFd => "max-fd"
  | maxConnections => "max-connections"
  | docRoot => "doc-root"
  | timeslot => "timeslot"
  | logFile => "log-file"
  | logQueue => "log-queue"
  | logSplitLines => "log-split-lines"
  | logLevel => "log-level"

/-- The short name of the option. -/
def shortName? : Choice → Option Char
  | port => some 'p'
  | threads => some 't'
  | logFile => some 'l'
  | _ => none

/-- The variable of the environment. -/
def variableName : Choice → String
  | port => "HTTP_PORT"
  | host => "HTTP_HOST"
  | threads => "WORKER_THREADS"
  | queueCapacity => "QUEUE_CAPACITY"
  | maxFd => "MAX_FD"
  | maxConnections => "MAX_CONNECTIONS"
  | docRoot => "DOC_ROOT"
  | timeslot => "TIMESLOT_SECS"
  | logFile => "LOG_FILE"
  | logQueue => "LOG_QUEUE"
  | logSplitLines => "LOG_SPLIT_LINES"
  | logLevel => "LOG_LEVEL"

/-- One more than the greatest port. -/
def portBound : Nat := 0x10000

/-- Reads a number below a bound. -/
def number (bound : Nat) (value : Text) : Except ArgumentError Nat :=
  match Decimal.parse? bound value with
  | some number => .ok number
  | none => .error .badNumber

/-- Reads a port, which may have a sign. -/
def portNumber (value : Text) : Except ArgumentError Nat :=
  match Decimal.parseSigned? portBound value with
  | some number => .ok number
  | none => .error .badNumber

/-- Reads a path, which may not be empty. -/
def path (value : Text) : Except ArgumentError Text :=
  if value.isEmpty then .error .missingValue else .ok value

/-- Sets the chosen setting to a value. -/
def assign (choice : Choice) (settings : Settings) (value : Text) :
    Except ArgumentError Settings :=
  match choice with
  | port => (portNumber value).map fun port => { settings with port }
  | host => .ok { settings with host := value }
  | threads => (number Decimal.wordBound value).map fun threads => { settings with threads }
  | queueCapacity =>
      (number Decimal.wordBound value).map fun queueCapacity => { settings with queueCapacity }
  | maxFd => (number Decimal.wordBound value).map fun maxFd => { settings with maxFd }
  | maxConnections =>
      (number Decimal.wordBound value).map fun maxConnections => { settings with maxConnections }
  | docRoot => (path value).map fun docRoot => { settings with docRoot }
  | timeslot => (number Decimal.wordBound value).map fun timeslot => { settings with timeslot }
  | logFile => (path value).map fun file => { settings with logFile := some file }
  | logQueue => (number Decimal.wordBound value).map fun logQueue => { settings with logQueue }
  | logSplitLines =>
      (number Decimal.wordBound value).map fun logSplitLines => { settings with logSplitLines }
  | logLevel => .ok { settings with logLevel := value }

end Choice

/-- What the name of an option stands for. -/
inductive OptionMeaning where
  | choice (choice : Choice)
  | help
  | version
  deriving DecidableEq, Repr

namespace OptionMeaning

/-- The meaning of a long name. -/
def ofLong? (name : Text) : Option OptionMeaning :=
  if name = "help".toList then some .help
  else if name = "version".toList then some .version
  else (Choice.all.find? fun choice => choice.longName.toList = name).map .choice

/-- The meaning of a short name. -/
def ofShort? (name : Char) : Option OptionMeaning :=
  if name = 'h' then some .help
  else if name = 'V' then some .version
  else (Choice.all.find? fun choice => choice.shortName? = some name).map .choice

end OptionMeaning

/-- The shape of an argument. -/
inductive Argument where
  /-- Ends the options. -/
  | separator
  | long (name : Text) (value : Option Text)
  | short (name : Char) (rest : Text)
  /-- A value; a lone dash is one. -/
  | plain (text : Text)
  deriving DecidableEq, Repr

/-- The shape of an argument, read off its first characters. -/
def Argument.ofText : Text → Argument
  | ['-', '-'] => .separator
  | '-' :: '-' :: body =>
      match Text.cut? '=' body with
      | some (name, value) => .long name (some value)
      | none => .long body none
  | '-' :: name :: rest => .short name rest
  | text => .plain text

/-- The settings chosen so far.  An option whose value is not there yet, or was
not looked at yet, is open. -/
structure Choosing where
  settings : Settings := {}
  given : List Choice := []
  opened : Option (Choice × Option Text) := none
  deriving DecidableEq, Repr

namespace Choosing

/-- Gives an option its value. -/
def give (state : Choosing) (choice : Choice) (value : Text) : Except ArgumentError Choosing :=
  if state.given.contains choice then
    .error .repeated
  else
    (choice.assign state.settings value).map fun settings =>
      { state with settings, given := choice :: state.given }

/-- Looks at the open option. -/
def close (state : Choosing) : Except ArgumentError Choosing :=
  match state.opened with
  | none => .ok state
  | some (_, none) => .error .missingValue
  | some (choice, some value) => { state with opened := none }.give choice value

/-- Takes an option with the value attached to it, if there is one. -/
def takeOption (state : Choosing) (meaning : OptionMeaning) (value : Option Text) :
    Except ArgumentError Choosing :=
  match state.close with
  | .error error => .error error
  | .ok closed =>
      match meaning, value with
      | .help, _ => .error .helpWanted
      | .version, _ => .error .versionWanted
      | .choice choice, some value => closed.give choice value
      | .choice choice, none => .ok { closed with opened := some (choice, none) }

/-- Takes an option with a long name. -/
def takeLong (state : Choosing) (name : Text) (value : Option Text) :
    Except ArgumentError Choosing :=
  match OptionMeaning.ofLong? name, value with
  | none, _ => .error .unknown
  | some .help, some _ => .error .unwantedValue
  | some .version, some _ => .error .unwantedValue
  | some meaning, value => state.takeOption meaning value

/-- The value that is attached to a short name. -/
def attached? : Text → Option Text
  | [] => none
  | '=' :: value => some value
  | value => some value

/-- Takes an option with a short name. -/
def takeShort (state : Choosing) (name : Char) (rest : Text) : Except ArgumentError Choosing :=
  match OptionMeaning.ofShort? name with
  | none => .error .unknown
  | some meaning => state.takeOption meaning (attached? rest)

/-- Takes a value, which belongs to the open option if that has none. -/
def takePlain (state : Choosing) (text : Text) : Except ArgumentError Choosing :=
  match state.opened with
  | some (choice, none) => .ok { state with opened := some (choice, some text) }
  | _ => .error .unknown

/-- Takes an argument.  Behind a separator there may be no more arguments. -/
def take (state : Choosing) (isLast : Bool) : Argument → Except ArgumentError Choosing
  | .separator => if isLast then .ok state else .error .unknown
  | .long name value => state.takeLong name value
  | .short name rest => state.takeShort name rest
  | .plain text => state.takePlain text

/-- Takes arguments in order. -/
def takeAll : List Text → Choosing → Except ArgumentError Choosing
  | [], state => state.close
  | argument :: rest, state =>
      match state.take rest.isEmpty (Argument.ofText argument) with
      | .ok next => takeAll rest next
      | .error error => .error error

/-- Gives an option the value of its variable, unless the command line gave it
one. -/
def consult (environment : List (String × Text)) (state : Choosing) (choice : Choice) :
    Except ArgumentError Choosing :=
  if state.given.contains choice then
    .ok state
  else
    match environment.lookup choice.variableName with
    | some value => state.give choice value
    | none => .ok state

end Choosing

/-- The settings that arguments and environment choose. -/
def Settings.choose (arguments : List Text) (environment : List (String × Text)) :
    Except ArgumentError Settings :=
  match Choosing.takeAll arguments {} with
  | .error error => .error error
  | .ok taken =>
      (Choice.all.foldlM (Choosing.consult environment) taken).map Choosing.settings

end FileServer
