import FileServer.Proofs.Text.Encoding
import FileServer.Request.Parser
import FileServer.Response.Head
import FileServer.Text.Blank

/-!
# Answers tell where they end

An answer is a status line, three fields and an empty line, each ended by carriage
return and line feed, and then the body.  A reader knows neither server nor file:
it takes what stands in front of the first empty line, finds the field
`Content-Length` among its lines, and takes as many bytes for the body.

The server appends pieces that do not follow the lines, so the answer is first put
together from lines.  No line has a carriage return in it and none is empty, which
is why the first empty line is the one behind the fields whatever the body holds.
-/

namespace FileServer

/-! ## Digits and trimmed texts -/

namespace Decimal

theorem isDigit_of_mem_digits {value : Nat} {char : Char} (member : char ∈ digits value) :
    Ascii.isDigit char = true := by
  have digit := Nat.isDigit_of_mem_toDigits (by decide) (by decide) member
  simpa [Ascii.isDigit, Char.isDigit, Char.le_def] using digit

/-- Reading digits is what the library does when it reads digits of base ten. -/
theorem valueOf_eq (text : Text) : valueOf text = Nat.ofDigitChars 10 text 0 := by
  rw [valueOf, Nat.ofDigitChars_eq_foldl]
  rfl

end Decimal

namespace Text

/-- A mark cuts a text apart where it is first met. -/
theorem cut?_append_cons {mark : Char} {front : Text} (absent : mark ∉ front) (back : Text) :
    cut? mark (front ++ mark :: back) = some (front, back) := by
  induction front with
  | nil => simp [cut?]
  | cons char front ih =>
      obtain ⟨differs, absentRest⟩ := not_or.1 (mt List.mem_cons.2 absent)
      simp [cut?, Ne.symm differs, ih absentRest]

end Text

namespace Response

/-! ## Lines -/

/-- What ends a line. -/
def lineEnd : Bytes := [13, 10]

/-- Lines one behind the other, an end behind each. -/
def ended (lines : List Bytes) : Bytes :=
  lines.flatMap (· ++ lineEnd)

/-- The lines of a head. -/
def headLines (status : Status) (bodyLength : Nat) (keepAlive : Bool) : List Bytes :=
  [utf8 "HTTP/1.1 " ++ Text.bytes (Decimal.digits status.code) ++ utf8 " " ++ utf8 status.reason,
    utf8 "Content-Length: " ++ Text.bytes (Decimal.digits bodyLength),
    utf8 "Content-Type: text/html",
    utf8 "Connection: " ++ utf8 (connectionToken keepAlive)]

/-- An answer: the lines of its head, an empty line, and the body. -/
def message (status : Status) (keepAlive : Bool) (body : Bytes) : Bytes :=
  ended (headLines status body.length keepAlive) ++ lineEnd ++ body

/-- Puts a byte in front of the first line. -/
def extendFirst (byte : UInt8) : List Bytes → List Bytes
  | [] => [[byte]]
  | line :: lines => (byte :: line) :: lines

/-- The lines between line ends. -/
def splitLines : Bytes → List Bytes
  | first :: second :: rest =>
      if first = 13 ∧ second = 10 then [] :: splitLines rest
      else extendFirst first (splitLines (second :: rest))
  | rest => [rest]

/-- What a reader gets from an answer, and the bytes behind the answer. -/
structure Reading where
  code : Nat
  fields : List (Text × Text)
  body : Bytes
  behind : Bytes
  deriving DecidableEq, Repr

/-- Lines with one line end between two of them. -/
def joined : List Bytes → Bytes
  | [] => []
  | [line] => line
  | line :: lines => line ++ lineEnd ++ joined lines

end Response

end FileServer
