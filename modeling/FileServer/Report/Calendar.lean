import FileServer.Text.Decimal

/-!
# The calendar

Days are numbered from the first of January 1970.  To find the date of a day, the
years are taken to begin in March, so that the day that leap years have more is
the last of its year, and are grouped into eras of four hundred years, which all
have the same number of days.
-/

namespace FileServer

/-- A date of the Gregorian calendar, which is also used for the time before it
was introduced. -/
structure Date where
  year : Int
  month : Nat
  day : Nat
  deriving DecidableEq, Repr

namespace Date

/-- Number of days of an era. -/
def daysPerEra : Int := 146097

/-- Number of days from the first of March of the year zero to the first of January
1970. -/
def epochShift : Int := 719468

/-- The year of an era, counted from zero, that a day of the era lies in. -/
def yearOfEra (dayOfEra : Int) : Int :=
  (dayOfEra - dayOfEra / 1460 + dayOfEra / 36524 - dayOfEra / 146096) / 365

/-- The first day of a year of an era. -/
def yearStart (yearOfEra : Int) : Int :=
  365 * yearOfEra + yearOfEra / 4 - yearOfEra / 100

/-- The month that a day of the year lies in, where March is zero. -/
def shiftedMonth (dayOfYear : Int) : Int :=
  (5 * dayOfYear + 2) / 153

/-- The first day of a month in the year, where March is zero. -/
def monthStart (shiftedMonth : Int) : Int :=
  (153 * shiftedMonth + 2) / 5

/-- The month by its usual number. -/
def monthNumber (shiftedMonth : Int) : Int :=
  if shiftedMonth < 10 then shiftedMonth + 3 else shiftedMonth - 9

/-- The date of a day. -/
def ofDays (days : Int) : Date :=
  let shifted := days + epochShift
  let era := shifted / daysPerEra
  let dayOfEra := shifted % daysPerEra
  let yearOfEra := yearOfEra dayOfEra
  let dayOfYear := dayOfEra - yearStart yearOfEra
  let shiftedMonth := shiftedMonth dayOfYear
  let month := monthNumber shiftedMonth
  {
    year := yearOfEra + era * 400 + if month ≤ 2 then 1 else 0
    month := month.toNat
    day := (dayOfYear - monthStart shiftedMonth + 1).toNat }

end Date

/-- Number of seconds of a day. -/
def secondsPerDay : Nat := 86400

/-- The number of the day of a moment, given in seconds.  Moments before the first
day count as that day. -/
def dayNumber (moment : Int) : Nat :=
  moment.toNat / secondsPerDay

end FileServer
