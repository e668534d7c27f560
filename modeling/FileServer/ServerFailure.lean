import FileServer.IoError
import FileServer.Text.Decimal

/-!
# Failures of the server

Only what keeps the server from starting, or makes it give up, is a failure of
the server.  What goes wrong with a request or a connection is answered or ends
that connection.
-/

namespace FileServer

/-- Why the server does not start or does not go on. -/
inductive ServerFailure where
  | io (error : IoError)
  /-- The pool of workers would have no worker or no room for a task. -/
  | invalidPool (threads capacity : Nat)
  | config (message : String)
  /-- The handler of a signal could not be registered. -/
  | signal (number : Int) (error : IoError)
  deriving DecidableEq, Repr

namespace ServerFailure

/-- A number with its sign. -/
def signed (value : Int) : String :=
  if value < 0 then "-" ++ String.ofList (Decimal.digits value.natAbs)
  else String.ofList (Decimal.digits value.natAbs)

/-- The text shown to the user. -/
def message : ServerFailure → String
  | .io error => "I/O error: " ++ error.message
  | .invalidPool threads capacity =>
      "invalid thread pool: threads=" ++ String.ofList (Decimal.digits threads) ++
        ", queue capacity=" ++ String.ofList (Decimal.digits capacity)
  | .config message => "invalid configuration: " ++ message
  | .signal number error =>
      "signal registration failed for signal " ++ signed number ++ ": " ++ error.message

/-- The failure of the system that is behind this one. -/
def cause? : ServerFailure → Option IoError
  | .io error => some error
  | .signal _ error => some error
  | .invalidPool _ _ | .config _ => none

end ServerFailure

end FileServer
