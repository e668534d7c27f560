import FileServer.Config.Help
import FileServer.Config.Summary
import FileServer.Report.Logger

/-!
# Starting the program

Before the server listens, the program reads its settings, checks them, opens the
log, and logs the settings.  Each of these steps may end it, with a text for the
user and a status for whoever has started it.
-/

namespace FileServer

/-- What the program is started with: its arguments, its environment, the time in
seconds, and the files around it. -/
structure Surroundings where
  arguments : List Text
  environment : List (String × Text)
  moment : Int
  tree : FileTree
  deriving DecidableEq, Repr

/-- The end of the program: its status, and what it writes to the standard output
and the standard error. -/
structure Exit where
  code : Nat
  output : String
  errors : String
  deriving DecidableEq, Repr

/-- How the start of the program goes. -/
inductive Start where
  | exit (exit : Exit)
  /-- The server can go on and listen. -/
  | ready (settings : Settings) (logger : Logger)
  deriving DecidableEq, Repr

namespace Start

/-- What the program says when it is asked for its version. -/
def versionText : String := "reactor_http 0.1.0\n"

/-- What the program says about arguments that it does not accept. -/
def complaintText : ArgumentError → String
  | .unknown => "error: unexpected argument\n"
  | .missingValue => "error: a value is required\n"
  | .badNumber => "error: invalid value\n"
  | .repeated => "error: an argument cannot be used multiple times\n"
  | .unwantedValue => "error: unexpected value\n"
  | .helpWanted | .versionWanted => ""

/-- The end of the program after arguments that lead to no settings. -/
def exitOfArguments (environment : List (String × Text)) : ArgumentError → Exit
  | .helpWanted => ⟨0, Help.text environment, ""⟩
  | .versionWanted => ⟨0, versionText, ""⟩
  | error => ⟨2, "", complaintText error⟩

/-- A failure and the failure behind it. -/
def failureText (message : String) (cause : Option String) : String :=
  match cause with
  | some cause => "Error: " ++ message ++ "\n\nCaused by:\n    " ++ cause ++ "\n"
  | none => "Error: " ++ message ++ "\n"

/-- The end of the program after settings that are refused. -/
def exitOfComplaint (message : String) : Exit :=
  ⟨1, "", failureText "invalid configuration" (some message)⟩

/-- The end of the program after a failure. -/
def exitOfFailure (failure : ServerFailure) : Exit :=
  ⟨1, "", failureText failure.message (failure.cause?.map IoError.message)⟩

/-- The end of the program when it breaks down. -/
def exitOfFault (written : Text) (message : String) : Exit :=
  ⟨101, "", String.ofList written ++ message ++ "\n"⟩

/-- Logs the summary of the settings.  The time that connections may be idle is
worked out only if it is logged; when it is out of reach, the log as far as it has
come is the result. -/
def summarize (settings : Settings) (moment : Int) (logger : Logger) :
    Except (DeadlineFault × Logger) Logger :=
  let begun := (logger.log moment settings.networkEvent).log moment settings.workersEvent
  if (settings.connectionsEvent 0).passes begun.filter then
    match Deadline.idleSeconds settings.timeslot with
    | .error fault => .error (fault, begun)
    | .ok seconds =>
        .ok ((begun.log moment (settings.connectionsEvent seconds)).log moment
          settings.loggingEvent)
  else
    .ok (begun.log moment settings.loggingEvent)

end Start

/-- Starts the program, up to where the server would listen. -/
def Surroundings.start (surroundings : Surroundings) : Start :=
  match Settings.choose surroundings.arguments surroundings.environment with
  | .error error => .exit (Start.exitOfArguments surroundings.environment error)
  | .ok settings =>
      match settings.complaint? with
      | some message => .exit (Start.exitOfComplaint message)
      | none =>
          match (Logger.start settings surroundings.environment surroundings.moment
              surroundings.tree).1 with
          | .error (.refused failure) => .exit (Start.exitOfFailure failure)
          | .error (.fault message) => .exit (Start.exitOfFault [] message)
          | .ok logger =>
              match Start.summarize settings surroundings.moment logger with
              | .error (fault, begun) => .exit (Start.exitOfFault begun.errorText fault.message)
              | .ok logged => .ready settings logged

end FileServer
