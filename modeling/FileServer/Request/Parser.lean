import FileServer.Request.Field
import FileServer.Request.Line
import FileServer.Request.Target
import FileServer.Storage.Slice
import FileServer.Text.Utf8

/-!
# The request parser

Requests arrive in pieces.  The parser works on the buffer of a connection and
keeps a cursor, so that each call goes on where the last one stopped.  It reads
the request line, then header lines up to an empty one, then waits for the body.

The request line has to be UTF-8 and to consist of exactly three words: the
method `GET` in any case, a target, and `HTTP/1.1`.  Header lines are decoded
lossily, since unknown ones are ignored anyway.
-/

namespace FileServer

/-- The methods that are served. -/
inductive Method where
  | get
  deriving DecidableEq, Repr

/-- Reads a method without regard to case. -/
def Method.parse? (name : Text) : Option Method :=
  if Ascii.sameText name "GET".toList then some .get else none

/-- The name of a method. -/
def Method.name : Method → String
  | .get => "GET"

/-- The only protocol version accepted. -/
def protocolVersion : Text := "HTTP/1.1".toList

/-- Which part of a request comes next. -/
inductive Phase where
  | requestLine
  | headers
  | body
  deriving DecidableEq, Repr

/-- What a call of the parser concludes. -/
inductive Verdict where
  /-- More bytes are needed. -/
  | incomplete
  /-- The request is complete. -/
  | complete
  /-- The request breaks a rule. -/
  | malformed
  deriving DecidableEq, Repr

/-- Whether a line ends where the cursor has come to. -/
inductive LineStatus where
  /-- A line that stops in front of the given position. -/
  | complete (stop : Nat)
  | malformed
  | unfinished
  deriving DecidableEq, Repr

/-- A request as far as it has been read.

`capacity` is the size of the buffer that requests have to fit in, `cursor` the
number of bytes already examined, and `lineStart` the place where the current
line begins. -/
structure Parser where
  capacity : Nat
  phase : Phase := .requestLine
  cursor : Nat := 0
  lineStart : Nat := 0
  method : Method := .get
  url : Text := []
  version : Text := []
  host : Option Text := none
  keepAlive : Bool := false
  contentLength : Nat := 0
  deriving DecidableEq, Repr

namespace Parser

/-- A parser that has seen nothing. -/
def fresh (capacity : Nat) : Parser :=
  { capacity }

/-- Forgets everything but the capacity. -/
def reset (parser : Parser) : Parser :=
  fresh parser.capacity

/-- Moves the cursor behind the next line, or as far as the bytes allow. -/
def nextLine (parser : Parser) (buffer : Bytes) : LineStatus × Parser :=
  match Line.scan (buffer.drop parser.cursor) with
  | .complete length terminator =>
      (.complete (parser.cursor + length),
        { parser with cursor := parser.cursor + length + terminator })
  | .malformed skipped => (.malformed, { parser with cursor := parser.cursor + skipped })
  | .unfinished skipped => (.unfinished, { parser with cursor := parser.cursor + skipped })

/-- Reads the request line. -/
def takeRequestLine (parser : Parser) (line : Text) : Verdict × Parser :=
  match line.words Ascii.isBlank with
  | [name, target, version] =>
      match Method.parse? name with
      | none => (.malformed, parser)
      | some method =>
          if version = protocolVersion then
            match Target.path? target with
            | none => (.malformed, parser)
            | some url => (.incomplete, { parser with method, url, version, phase := .headers })
          else
            (.malformed, parser)
  | _ => (.malformed, parser)

/-- Ends the header section.  A body has to fit in what is left of the
buffer. -/
def endHeaders (parser : Parser) : Verdict × Parser :=
  if parser.contentLength = 0 then
    (.complete, parser)
  else if parser.capacity - parser.cursor < parser.contentLength then
    (.malformed, parser)
  else
    (.incomplete, { parser with phase := .body })

/-- Reads a header line; an empty line ends the section. -/
def takeHeaderLine (parser : Parser) (line : Text) : Verdict × Parser :=
  if line.isEmpty then
    parser.endHeaders
  else
    match Field.ofLine line with
    | .connection keepAlive => (.incomplete, { parser with keepAlive })
    | .contentLength contentLength => (.incomplete, { parser with contentLength })
    | .badLength => (.malformed, parser)
    | .host name => (.incomplete, { parser with host := some name })
    | .ignored => (.incomplete, parser)

/-- Reads one line according to the phase. -/
def takeLine (parser : Parser) (line : Bytes) : Verdict × Parser :=
  match parser.phase with
  | .requestLine =>
      match Utf8.decode? line with
      | some text => parser.takeRequestLine text
      | none => (.malformed, parser)
  | _ => parser.takeHeaderLine (Utf8.decodeLossy line)

/-- Takes the body as soon as all of it is there. -/
def takeBody (parser : Parser) (buffer : Bytes) : Verdict × Parser :=
  if buffer.length - parser.cursor < parser.contentLength then
    (.incomplete, parser)
  else
    let stop := parser.cursor + parser.contentLength
    (.complete, { parser with cursor := stop, lineStart := stop })

/-- Reading the request line leaves the cursor alone. -/
@[simp] theorem cursor_takeRequestLine (parser : Parser) (line : Text) :
    (parser.takeRequestLine line).2.cursor = parser.cursor := by
  simp only [takeRequestLine]
  split
  · split
    · rfl
    · split
      · split <;> rfl
      · rfl
  · rfl

/-- Reading a header line leaves the cursor alone. -/
@[simp] theorem cursor_takeHeaderLine (parser : Parser) (line : Text) :
    (parser.takeHeaderLine line).2.cursor = parser.cursor := by
  simp only [takeHeaderLine, endHeaders]
  split
  · split
    · rfl
    · split <;> rfl
  · split <;> rfl

/-- Reading a line leaves the cursor alone. -/
@[simp] theorem cursor_takeLine (parser : Parser) (line : Bytes) :
    (parser.takeLine line).2.cursor = parser.cursor := by
  simp only [takeLine]
  split
  · split <;> simp
  · simp

/-- The cursor moves past a complete line and stays inside the buffer. -/
theorem nextLine_complete {parser next : Parser} {buffer : Bytes} {stop : Nat}
    (found : parser.nextLine buffer = (.complete stop, next)) :
    parser.cursor ≤ stop ∧ stop < next.cursor ∧ next.cursor ≤ buffer.length := by
  simp only [nextLine] at found
  split at found
  · next length terminator scanned =>
      simp only [Prod.mk.injEq, LineStatus.complete.injEq] at found
      obtain ⟨rfl, rfl⟩ := found
      have inside := Line.scan_complete scanned
      simp only [List.length_drop] at inside
      dsimp only
      omega
  · simp at found
  · simp at found

/-- Reads as much of the request as the buffer holds.  The result is `none` when
a line does not lie inside the buffer. -/
def advance? (parser : Parser) (buffer : Bytes) : Option (Verdict × Parser) :=
  if parser.phase = .body then
    some (parser.takeBody buffer)
  else
    match _found : parser.nextLine buffer with
    | (.unfinished, next) => some (.incomplete, next)
    | (.malformed, next) => some (.malformed, next)
    | (.complete stop, next) =>
        match slice? buffer parser.lineStart stop with
        | none => none
        | some line =>
            match _taken : { next with lineStart := next.cursor }.takeLine line with
            | (.incomplete, after) => advance? after buffer
            | result => some result
  termination_by buffer.length - parser.cursor
  decreasing_by
    have moved := nextLine_complete _found
    have same := cursor_takeLine { next with lineStart := next.cursor } line
    rw [_taken] at same
    dsimp only at same
    omega

end Parser

end FileServer
