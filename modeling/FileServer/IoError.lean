/-!
# Failures of system calls

Calls to the operating system, and the input and output routines built on them,
fail for one of a fixed set of reasons.  A failure that reaches the user carries
a text as well.
-/

namespace FileServer

/-- Why an input or output operation failed. -/
inductive IoErrorKind where
  /-- The call would have to wait. -/
  | wouldBlock
  /-- A signal interrupted the call. -/
  | interrupted
  | connectionReset
  | connectionAborted
  | brokenPipe
  | invalidInput
  /-- The other side has closed its end. -/
  | unexpectedEof
  /-- There is no room left for what would be read. -/
  | outOfMemory
  | notConnected
  /-- A write took no bytes although some were left. -/
  | writeZero
  | notFound
  | alreadyExists
  | notADirectory
  | isADirectory
  | invalidFilename
  | permissionDenied
  | other
  deriving DecidableEq, Repr

/-- A failure together with the text that explains it. -/
structure IoError where
  kind : IoErrorKind
  message : String
  deriving DecidableEq, Repr

/-- The system's text for a failure that the operating system reports. -/
def IoErrorKind.systemMessage : IoErrorKind → String
  | .wouldBlock => "Resource temporarily unavailable (os error 11)"
  | .interrupted => "Interrupted system call (os error 4)"
  | .connectionReset => "Connection reset by peer (os error 104)"
  | .connectionAborted => "Software caused connection abort (os error 103)"
  | .brokenPipe => "Broken pipe (os error 32)"
  | .invalidInput => "Invalid argument (os error 22)"
  | .unexpectedEof => "unexpected end of file"
  | .outOfMemory => "Cannot allocate memory (os error 12)"
  | .notConnected => "Transport endpoint is not connected (os error 107)"
  | .writeZero => "write zero"
  | .notFound => "No such file or directory (os error 2)"
  | .alreadyExists => "File exists (os error 17)"
  | .notADirectory => "Not a directory (os error 20)"
  | .isADirectory => "Is a directory (os error 21)"
  | .invalidFilename => "File name too long (os error 36)"
  | .permissionDenied => "Permission denied (os error 13)"
  | .other => "other error"

/-- The failure as the operating system reports it. -/
def IoErrorKind.system (kind : IoErrorKind) : IoError :=
  ⟨kind, kind.systemMessage⟩

end FileServer
