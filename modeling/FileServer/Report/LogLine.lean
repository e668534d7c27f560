import FileServer.Report.Calendar
import FileServer.Report.LogFilter

/-!
# Lines of the log

An event is a message with fields.  Its line has the time, the level, the name of
the thread where lines of several threads come together, the target, the message
and the fields.
-/

namespace FileServer

/-- An event to be logged. -/
structure LogEvent where
  level : LogLevel
  target : Text
  message : String
  fields : List (String × Text)
  deriving DecidableEq, Repr

namespace LogEvent

/-- The names of the fields.  The message counts as one. -/
def fieldNames (event : LogEvent) : List Text :=
  "message".toList :: event.fields.map fun (name, _) => name.toList

/-- Whether a filter lets an event through. -/
def passes (event : LogEvent) (filter : LogFilter) : Bool :=
  filter.allows event.level event.target event.fieldNames

end LogEvent

namespace LogLine

/-- A year of a time stamp: four digits, or a sign and the year. -/
def yearText (year : Int) : Text :=
  if 9999 < year then '+' :: Decimal.digits year.natAbs
  else if year < 0 then '-' :: Decimal.padded 4 year.natAbs
  else Decimal.padded 4 year.natAbs

/-- A moment, given in seconds, as a time stamp with microseconds. -/
def timeStamp (moment : Int) : Text :=
  let date := Date.ofDays (moment / secondsPerDay)
  let second := (moment % secondsPerDay).toNat
  yearText date.year ++ '-' :: Decimal.padded 2 date.month ++ '-' :: Decimal.padded 2 date.day ++
    'T' :: Decimal.padded 2 (second / 3600) ++ ':' :: Decimal.padded 2 (second / 60 % 60) ++
    ':' :: Decimal.padded 2 (second % 60) ++ ".000000Z".toList

/-- The name of a level in capitals, in a column of five characters. -/
def levelText (level : LogLevel) : Text :=
  let name := level.name.toList.map Char.toUpper
  List.replicate (5 - name.length) ' ' ++ name

/-- A field behind a space. -/
def fieldText (field : String × Text) : Text :=
  ' ' :: field.1.toList ++ '=' :: field.2

/-- The line of an event, with the name of a thread if there is one. -/
def ofEvent (moment : Int) (thread : Option String) (event : LogEvent) : Text :=
  let threadText :=
    match thread with
    | some name => name.toList ++ [' ']
    | none => []
  timeStamp moment ++ ' ' :: levelText event.level ++ ' ' :: threadText ++ event.target ++
    ": ".toList ++ event.message.toList ++ event.fields.flatMap fieldText ++ ['\n']

end LogLine

end FileServer
