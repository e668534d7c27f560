import FileServer.Proofs.Text.Splitting
import FileServer.Request.Parser

/-!
# The grammar of requests

What a request is, read from left to right and without a cursor or a phase.

Lines come first: each ends at a line feed, with or without a carriage return in
front of it.  A carriage return before anything else is broken, and a line whose
end has not arrived, or only its carriage return, is unfinished.  The first line
has to be a request line.  The lines behind it give values to fields, the last
value of each field counts, and an empty line ends them.  The body is what
follows, as long as the fields say, and it has to fit behind the header.

`Reads` says for any bytes what they are: a complete request, a part of one, or
none.  It has one rule for each place where reading can stop.
-/

namespace FileServer.Grammar

/-! ## Lines -/

/-- What some bytes begin with. -/
inductive Opening where
  /-- A line, and what follows its end. -/
  | line (content rest : Bytes)
  /-- A carriage return with another byte than a line feed behind it. -/
  | broken
  /-- A line whose end has not arrived. -/
  | unfinished

/-- None of the bytes can belong to the end of a line. -/
def Unbroken (content : Bytes) : Prop :=
  ∀ byte ∈ content, byte ≠ Line.cr ∧ byte ≠ Line.lf

/-- What bytes begin with. -/
inductive Opens : Bytes → Opening → Prop
  | lineFeed {content rest : Bytes} (unbroken : Unbroken content) :
      Opens (content ++ Line.lf :: rest) (.line content rest)
  | returnAndFeed {content rest : Bytes} (unbroken : Unbroken content) :
      Opens (content ++ Line.cr :: Line.lf :: rest) (.line content rest)
  | lone {content rest : Bytes} {next : UInt8} (unbroken : Unbroken content)
      (other : next ≠ Line.lf) : Opens (content ++ Line.cr :: next :: rest) .broken
  | cut {content : Bytes} (unbroken : Unbroken content) :
      Opens (content ++ [Line.cr]) .unfinished
  | endless {content : Bytes} (unbroken : Unbroken content) : Opens content .unfinished

/-! ## Request lines -/

/-- A url stands in front of the query of an address, if there is one.  It starts
with a slash, and none of its segments is `..`. -/
structure PathOf (address url : Text) : Prop where
  slash : ∃ rest, url = '/' :: rest
  noMark : '?' ∉ url
  query : address = url ∨ ∃ query, address = url ++ '?' :: query
  noParent : ¬Text.Segment (· == '/') url "..".toList

/-- A text is the scheme of the web, in any case. -/
def IsScheme (scheme : Text) : Prop :=
  scheme.map Ascii.lower = "http://".toList

/-- The url that a target asks for.  The target is an address, or it has a scheme
and an authority in front of it. -/
inductive AsksFor : Text → Text → Prop
  | absolute {scheme authority address url : Text} (isScheme : IsScheme scheme)
      (noSlash : '/' ∉ authority) (path : PathOf address url) :
      AsksFor (scheme ++ authority ++ address) url
  | address {address url : Text}
      (noScheme : ∀ scheme rest, IsScheme scheme → address ≠ scheme ++ rest)
      (path : PathOf address url) : AsksFor address url

/-- A line that requests a url: the UTF-8 form of a text of three words, the
method `GET` in any case, a target that asks for the url, and the version. -/
def Requests (line : Bytes) (url : Text) : Prop :=
  ∃ text method target, Text.bytes text = line ∧
    Text.Spells Ascii.isBlank text [method, target, "HTTP/1.1".toList] ∧
    method.map Ascii.lower = "get".toList ∧ AsksFor target url

/-! ## Fields -/

/-- The value that a line gives to the field of a name, if it does.  The name
stands in front of the first colon, in any case and with any blanks around. -/
def value? (name : String) (line : Bytes) : Option Text :=
  match Text.cut? ':' (Utf8.decodeLossy line) with
  | some (front, back) =>
      if (Text.trimmed front).map Ascii.lower = name.toList.map Ascii.lower then
        some (Text.trimmed back)
      else
        none
  | none => none

/-- The last value that some lines give to a field. -/
def last? (name : String) (lines : List Bytes) : Option Text :=
  (lines.filterMap (value? name)).getLast?

/-- A line that gives the length of the body as something that is not a number
of machine size. -/
def BadLength (line : Bytes) : Prop :=
  ∃ value, value? "Content-Length" line = some value ∧
    Decimal.parse? Decimal.wordBound value = none

/-- What a request says. -/
structure Request where
  url : Text
  version : Text
  host : Option Text
  keepAlive : Bool
  contentLength : Nat
  deriving DecidableEq, Repr

/-- What is known before the request line. -/
def Request.blank : Request :=
  { url := [], version := [], host := none, keepAlive := false, contentLength := 0 }

/-- What a request line for a url and the lines behind it say. -/
def Request.of (url : Text) (lines : List Bytes) : Request where
  url
  version := "HTTP/1.1".toList
  host := last? "Host" lines
  keepAlive := (last? "Connection" lines).any fun value =>
    value.map Ascii.lower = "keep-alive".toList
  contentLength :=
    ((last? "Content-Length" lines).bind (Decimal.parse? Decimal.wordBound)).getD 0

/-- What a parser has read so far. -/
def Request.ofParser (parser : Parser) : Request where
  url := parser.url
  version := parser.version
  host := parser.host
  keepAlive := parser.keepAlive
  contentLength := parser.contentLength

/-! ## Requests -/

/-- Bytes that begin with a request line and then some lines that are neither
empty nor give a bad length; the rest follows. -/
inductive Headed (bytes : Bytes) (url : Text) : List Bytes → Bytes → Prop
  | first {line rest : Bytes} (opens : Opens bytes (.line line rest))
      (requests : Requests line url) : Headed bytes url [] rest
  | next {lines : List Bytes} {line rest after : Bytes}
      (headed : Headed bytes url lines rest) (opens : Opens rest (.line line after))
      (nonempty : line ≠ []) (goodLength : ¬BadLength line) :
      Headed bytes url (lines ++ [line]) after

/-- What bytes are for a buffer of some capacity, and what they say. -/
inductive Reads (capacity : Nat) (bytes : Bytes) : Verdict → Request → Prop
  /-- The first line has not arrived. -/
  | noLine (opens : Opens bytes .unfinished) : Reads capacity bytes .incomplete .blank
  /-- The first line is broken. -/
  | brokenLine (opens : Opens bytes .broken) : Reads capacity bytes .malformed .blank
  /-- The first line is no request line. -/
  | noRequest {line rest : Bytes} (opens : Opens bytes (.line line rest))
      (other : ∀ url, ¬Requests line url) : Reads capacity bytes .malformed .blank
  /-- A line of the header has not arrived. -/
  | noField {url : Text} {lines : List Bytes} {rest : Bytes}
      (headed : Headed bytes url lines rest) (opens : Opens rest .unfinished) :
      Reads capacity bytes .incomplete (.of url lines)
  /-- A line of the header is broken. -/
  | brokenField {url : Text} {lines : List Bytes} {rest : Bytes}
      (headed : Headed bytes url lines rest) (opens : Opens rest .broken) :
      Reads capacity bytes .malformed (.of url lines)
  /-- The length of the body is no number. -/
  | badLength {url : Text} {lines : List Bytes} {line rest after : Bytes}
      (headed : Headed bytes url lines rest) (opens : Opens rest (.line line after))
      (bad : BadLength line) : Reads capacity bytes .malformed (.of url lines)
  /-- The header ends, and there is no body. -/
  | noBody {url : Text} {lines : List Bytes} {rest body : Bytes}
      (headed : Headed bytes url lines rest) (opens : Opens rest (.line [] body))
      (noLength : (Request.of url lines).contentLength = 0) :
      Reads capacity bytes .complete (.of url lines)
  /-- The header ends, and the body does not fit behind it. -/
  | noRoom {url : Text} {lines : List Bytes} {rest body : Bytes}
      (headed : Headed bytes url lines rest) (opens : Opens rest (.line [] body))
      (hasLength : (Request.of url lines).contentLength ≠ 0)
      (tooLong : capacity < bytes.length - body.length + (Request.of url lines).contentLength) :
      Reads capacity bytes .malformed (.of url lines)
  /-- The header ends, and a part of the body is missing. -/
  | partOfBody {url : Text} {lines : List Bytes} {rest body : Bytes}
      (headed : Headed bytes url lines rest) (opens : Opens rest (.line [] body))
      (fits : bytes.length - body.length + (Request.of url lines).contentLength ≤ capacity)
      (short : body.length < (Request.of url lines).contentLength) :
      Reads capacity bytes .incomplete (.of url lines)
  /-- The header ends, and all of the body has arrived. -/
  | wholeBody {url : Text} {lines : List Bytes} {rest body : Bytes}
      (headed : Headed bytes url lines rest) (opens : Opens rest (.line [] body))
      (hasLength : (Request.of url lines).contentLength ≠ 0)
      (fits : bytes.length - body.length + (Request.of url lines).contentLength ≤ capacity)
      (enough : (Request.of url lines).contentLength ≤ body.length) :
      Reads capacity bytes .complete (.of url lines)

end FileServer.Grammar
