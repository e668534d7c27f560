import FileServer.Report.FieldPattern
import FileServer.Text.Alphanumeric
import FileServer.Text.Decimal

/-!
# Log filters

A filter says which events are logged.  It is a list of directives between commas.
A directive gives a level to the events whose target starts with a given text and
that have given fields; the level lets through all events that are at least as
important.  Directives that ask for a span, or for the value of a field, say
nothing about events outside of spans.

Of the directives that apply to an event the most specific one decides: the one
with the longest target, then the one with the most fields, then the one whose
fields have the later names, then the last one.
-/

namespace FileServer

/-- How much is let through. -/
inductive LogLevel where
  | off
  | error
  | warn
  | info
  | debug
  | trace
  deriving DecidableEq, Repr

namespace LogLevel

/-- All levels, the most restrictive first. -/
def all : List LogLevel :=
  [off, error, warn, info, debug, trace]

/-- The name of a level. -/
def name : LogLevel → String
  | off => "off"
  | error => "error"
  | warn => "warn"
  | info => "info"
  | debug => "debug"
  | trace => "trace"

/-- The number of a level, which can stand for its name. -/
def rank : LogLevel → Nat
  | off => 0
  | error => 1
  | warn => 2
  | info => 3
  | debug => 4
  | trace => 5

/-- Reads a level by name, without regard to case, or by number.  Nothing at all
means errors only. -/
def parse? (text : Text) : Option LogLevel :=
  match Decimal.parse? Decimal.wordBound text with
  | some number => all.find? fun level => level.rank = number
  | none =>
      if text.isEmpty then some .error
      else all.find? fun level => Ascii.sameText text level.name.toList

end LogLevel

/-- Why a text is no filter. -/
inductive FilterError where
  | badDirective
  | badLevel
  /-- The pattern for the value of a field cannot be used. -/
  | badField (error : Pattern.AutomatonError)
  /-- A place where a part of the text begins or ends lies inside a character. -/
  | splitCharacter (text : Text) (place : Nat)
  deriving DecidableEq, Repr

/-- One directive. -/
structure Directive where
  level : LogLevel := .trace
  target : Option Text := none
  span : Option Text := none
  fields : List FieldPattern := []
  deriving DecidableEq, Repr

namespace FilterError

/-- The character of a text that a place lies in, and where it begins. -/
def characterAt? (place : Nat) : Nat → Text → Option (Char × Nat)
  | _, [] => none
  | start, char :: rest =>
      if place < start + char.utf8Size then some (char, start)
      else characterAt? place (start + char.utf8Size) rest

/-- A character between quotes.  A blank is written by its number. -/
def quoted (char : Char) : String :=
  if Text.isBlank char then
    "'\\u\x7b" ++ String.ofList (Nat.toDigits 16 char.toNat) ++ "\x7d'"
  else
    "'" ++ String.ofList [char] ++ "'"

/-- What is said about a place inside a character. -/
def splitText (text : Text) (place : Nat) : String :=
  match characterAt? place 0 text with
  | some (char, start) =>
      "byte index " ++ String.ofList (Decimal.digits place) ++
        " is not a char boundary; it is inside " ++ quoted char ++ " (bytes " ++
        String.ofList (Decimal.digits start) ++ ".." ++
        String.ofList (Decimal.digits (start + char.utf8Size)) ++ ") of `" ++
        String.ofList text ++ "`"
  | none => "byte index " ++ String.ofList (Decimal.digits place) ++ " is out of bounds"

/-- The text of the error. -/
def message : FilterError → String
  | .badDirective => "invalid filter directive"
  | .badLevel =>
      "error parsing level filter: expected one of \"off\", \"error\", \"warn\", \"info\", " ++
        "\"debug\", \"trace\", or a number 0-5"
  | .badField error => "invalid field filter: " ++ error.message
  | .splitCharacter text place => splitText text place

end FilterError

namespace Directive

/-- Where the reading of a directive is.  The numbers are places where a part
begins, counted in bytes. -/
inductive Reading where
  | start
  | levelOrTarget (start : Nat)
  | span (start : Nat)
  | field (start : Nat)
  /-- Behind the fields. -/
  | fields
  /-- Behind the span and the fields. -/
  | bracketed
  | level (start : Nat)
  deriving DecidableEq, Repr

/-- Whether a directive that does not start with a bracket can start with a
character. -/
def canStart (char : Char) : Bool :=
  ['-', ':', '_'].contains char || Text.isAlphanumeric char

/-- The part of a text from a place on. -/
def partFrom (whole : Text) (start : Nat) : Except FilterError Text :=
  match whole.dropBytes? start with
  | some rest => .ok rest
  | none => .error (.splitCharacter whole start)

/-- The part of a text between two places. -/
def part (whole : Text) (start stop : Nat) : Except FilterError Text := do
  match (← partFrom whole start).takeBytes? (stop - start) with
  | some inside => .ok inside
  | none => .error (.splitCharacter whole stop)

/-- Reads a field and the value it has to have. -/
def fieldPattern (text : Text) : Except FilterError FieldPattern :=
  if text.isEmpty then .error .badDirective
  else (FieldPattern.parse text).mapError .badField

/-- Goes on with one character, which stands at a place of the text. -/
def step (whole : Text) (place : Nat) (char : Char) :
    Reading × Directive → Except FilterError (Reading × Directive)
  | (.start, directive) =>
      if char = '[' then .ok (.span (place + 1), directive)
      else if canStart char then .ok (.levelOrTarget place, directive)
      else .error .badDirective
  | (.levelOrTarget start, directive) => do
      if char = '=' then
        return (.level (place + 1), { directive with target := some (← part whole start place) })
      else if char = '[' then
        return (.span (place + 1), { directive with target := some (← part whole start place) })
      else
        return (.levelOrTarget start, directive)
  | (.span start, directive) => do
      if char = ']' then
        return (.bracketed, { directive with span := some (← part whole start place) })
      else if char = '\x7b' then
        let name ← part whole start place
        return (.field (place + 1),
          { directive with span := if name.isEmpty then none else some name })
      else
        return (.span start, directive)
  | (.field start, directive) => do
      if char = '\x7d' then
        let pattern ← fieldPattern (← part whole start place)
        return (.fields, { directive with fields := directive.fields ++ [pattern] })
      else
        return (.field start, directive)
  | (.fields, directive) =>
      if char = ']' then .ok (.bracketed, directive) else .error .badDirective
  | (.bracketed, directive) =>
      if char = '=' then .ok (.level (place + 1), directive) else .error .badDirective
  | (.level start, directive) => .ok (.level start, directive)

/-- Goes on with the characters from a place of the text on. -/
def steps (whole : Text) : Nat → Text → Reading × Directive →
    Except FilterError (Reading × Directive)
  | _, [], state => .ok state
  | place, char :: rest, state =>
      match step whole place char state with
      | .ok next => steps whole (place + char.utf8Size) rest next
      | .error error => .error error

/-- Reads the level at the end of a directive; without one everything is let
through. -/
def lastLevel (text : Text) : Except FilterError LogLevel :=
  if text.isEmpty then
    .ok .trace
  else
    match LogLevel.parse? text with
    | some level => .ok level
    | none => .error .badLevel

/-- Ends the reading.  What could be a level or a target is a level if it can
be. -/
def finish (whole : Text) : Reading × Directive → Except FilterError Directive
  | (.levelOrTarget start, directive) => do
      let text ← partFrom whole start
      match LogLevel.parse? text with
      | some level => return { directive with level, target := none }
      | none => return { directive with level := .trace, target := some text }
  | (.level start, directive) => do
      return { directive with level := ← lastLevel (← partFrom whole start) }
  | (.bracketed, directive) => .ok directive
  | _ => .error .badDirective

/-- Reads a directive.  Blanks at its two ends are not looked at, but its parts are
cut out of the whole text by their places among the characters looked at.  A place
that lies inside a character of the whole text is an error of its own. -/
def parse (text : Text) : Except FilterError Directive :=
  match steps text 0 text.trimmed (.start, {}) with
  | .ok state => finish text state
  | .error error => .error error

/-- Whether a directive says something about events outside of spans. -/
def isStatic (directive : Directive) : Bool :=
  directive.span.isNone && !directive.fields.any FieldPattern.hasValue

/-- Whether a directive applies to an event. -/
def appliesTo (directive : Directive) (target : Text) (fields : List Text) : Bool :=
  directive.isStatic &&
    (directive.target.getD []).isPrefixOf target &&
    directive.fields.all fun pattern => fields.contains pattern.name

/-- How specific a directive is. -/
def weight (directive : Directive) : Nat × Nat :=
  ((directive.target.map fun target => target.length + 1).getD 0, directive.fields.length)

/-- Whether a directive is at least as specific as another. -/
def outweighs (left right : Directive) : Bool :=
  right.weight.1 < left.weight.1 ||
    (right.weight.1 == left.weight.1 &&
      (right.weight.2 < left.weight.2 ||
        (right.weight.2 == left.weight.2 &&
          Text.listNotAfter (right.fields.map FieldPattern.name)
            (left.fields.map FieldPattern.name))))

end Directive

/-- A filter is a list of directives. -/
structure LogFilter where
  directives : List Directive
  deriving DecidableEq, Repr

namespace LogFilter

/-- Lets errors through and nothing else. -/
def errorsOnly : LogFilter := ⟨[{ level := .error }]⟩

/-- Reads a filter.  Nothing between commas is no directive. -/
def parse (text : Text) : Except FilterError LogFilter := do
  let directives ← (text.words (· == ',')).mapM Directive.parse
  return if directives.isEmpty then errorsOnly else ⟨directives⟩

/-- The directive that decides about an event. -/
def deciding? (filter : LogFilter) (target : Text) (fields : List Text) : Option Directive :=
  (filter.directives.filter fun directive => directive.appliesTo target fields).foldl
    (fun best directive =>
      match best with
      | none => some directive
      | some held => if directive.outweighs held then some directive else some held)
    none

/-- Whether an event of a level is let through. -/
def allows (filter : LogFilter) (level : LogLevel) (target : Text) (fields : List Text) : Bool :=
  match filter.deciding? target fields with
  | some directive => level.rank ≤ directive.level.rank
  | none => false

end LogFilter

end FileServer
