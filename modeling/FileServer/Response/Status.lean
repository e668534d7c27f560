import FileServer.Text.Decimal
import FileServer.Text.Literal

/-!
# Answer statuses

The six statuses that an answer may carry, their codes and reason phrases, and
the fixed body that goes with each error.
-/

namespace FileServer

/-- The status of an answer. -/
inductive Status where
  | ok
  | badRequest
  | forbidden
  | notFound
  | internalServerError
  | serviceUnavailable
  deriving DecidableEq, Repr

namespace Status

/-- The status code. -/
def code : Status → Nat
  | .ok => 200
  | .badRequest => 400
  | .forbidden => 403
  | .notFound => 404
  | .internalServerError => 500
  | .serviceUnavailable => 503

/-- The reason phrase. -/
def reason : Status → String
  | .ok => "OK"
  | .badRequest => "Bad Request"
  | .forbidden => "Forbidden"
  | .notFound => "Not Found"
  | .internalServerError => "Internal Server Error"
  | .serviceUnavailable => "Service Unavailable"

/-- The fixed body of an error answer.  An answer with status `ok` has the
requested file for its body instead. -/
def body : Status → String
  | .ok => ""
  | .badRequest =>
      "Your request has bad syntax or is inherently impossible to satisfy.\n"
  | .forbidden => "You do not have permission to get file from this server.\n"
  | .notFound => "The requested file was not found on this server.\n"
  | .internalServerError => "There was an unusual problem serving the requested file.\n"
  | .serviceUnavailable => "Server busy!\n"

/-- Code and reason phrase, separated by a space. -/
def display (status : Status) : String :=
  String.ofList (Decimal.digits status.code) ++ " " ++ status.reason

end Status

end FileServer
