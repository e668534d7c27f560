import FileServer.Proofs.Report.Gregorian
import FileServer.Proofs.Report.Parts
import FileServer.Proofs.Storage.Access

/-!
# Dates in machine words

The date of a day is computed in machine words with a sign, and the month and the day of the
month go into words of half the size without one.  Each sum, difference, product and quotient
has to be such a word, and a quotient drops what is left towards zero, not downwards.  The clock
counts seconds in a machine word without a sign, so that there is a last day.  Up to it every
number is small enough, none is negative where this would matter, and the date is the one of the
calendar.
-/

namespace FileServer

open Access

namespace Date

/-! ## The steps of the computation -/

/-- `yearOfEra` in machine words. -/
def yearOfEraAt (dayOfEra : Int) : Except Fault Int := do
  let shorter ← signed (dayOfEra - (← signed (dayOfEra.tdiv 1460)))
  let longer ← signed (shorter + (← signed (dayOfEra.tdiv 36524)))
  let years ← signed (longer - (← signed (dayOfEra.tdiv 146096)))
  signed (years.tdiv 365)

/-- `yearStart` in machine words. -/
def yearStartAt (yearOfEra : Int) : Except Fault Int := do
  let common ← signed (365 * yearOfEra)
  let longer ← signed (common + (← signed (yearOfEra.tdiv 4)))
  signed (longer - (← signed (yearOfEra.tdiv 100)))

/-- `shiftedMonth` in machine words. -/
def shiftedMonthAt (dayOfYear : Int) : Except Fault Int := do
  let scaled ← signed (5 * dayOfYear)
  let moved ← signed (scaled + 2)
  signed (moved.tdiv 153)

/-- `monthStart` in machine words. -/
def monthStartAt (shiftedMonth : Int) : Except Fault Int := do
  let scaled ← signed (153 * shiftedMonth)
  let moved ← signed (scaled + 2)
  signed (moved.tdiv 5)

/-- `monthNumber` in machine words. -/
def monthNumberAt (shiftedMonth : Int) : Except Fault Int :=
  if shiftedMonth < 10 then signed (shiftedMonth + 3) else signed (shiftedMonth - 9)

/-- `inYear` in machine words. -/
def inYearAt (era year dayOfYear : Int) : Except Fault Date := do
  let shiftedMonth ← shiftedMonthAt dayOfYear
  let before ← signed (dayOfYear - (← monthStartAt shiftedMonth))
  let day ← unsigned (← signed (before + 1))
  let month ← unsigned (← monthNumberAt shiftedMonth)
  let marchYear ← signed (year + (← signed (era * 400)))
  let year ← signed (marchYear + if month ≤ 2 then 1 else 0)
  return { year, month, day }

/-- `ofDays` in machine words. -/
def ofDaysAt (days : Nat) : Except Fault Date := do
  let shifted ← signed ((← signed days) + epochShift)
  let era ← signed (shifted / daysPerEra)
  let dayOfEra ← signed (shifted % daysPerEra)
  let yearOfEra ← yearOfEraAt dayOfEra
  let dayOfYear ← signed (dayOfEra - (← yearStartAt yearOfEra))
  inYearAt era yearOfEra dayOfYear

/-! ## No step fails -/

theorem yearOfEraAt_eq {dayOfEra : Int} (positive : 0 ≤ dayOfEra) (within : dayOfEra < daysPerEra) :
    yearOfEraAt dayOfEra = .ok (yearOfEra dayOfEra) := by
  unfold daysPerEra at within
  simp (disch := omega) only [yearOfEraAt, yearOfEra, Int.tdiv_eq_ediv_of_nonneg, signed_eq_ok,
    ok_bind]

theorem yearStartAt_eq {year : Int} (years : 0 ≤ year ∧ year < 400) :
    yearStartAt year = .ok (yearStart year) := by
  simp (disch := omega) only [yearStartAt, yearStart, Int.tdiv_eq_ediv_of_nonneg, signed_eq_ok,
    ok_bind]

theorem shiftedMonthAt_eq {day : Int} (days : 0 ≤ day ∧ day ≤ 365) :
    shiftedMonthAt day = .ok (shiftedMonth day) := by
  simp (disch := omega) only [shiftedMonthAt, shiftedMonth, Int.tdiv_eq_ediv_of_nonneg,
    signed_eq_ok, ok_bind]

theorem monthStartAt_eq {month : Int} (months : 0 ≤ month ∧ month ≤ 11) :
    monthStartAt month = .ok (monthStart month) := by
  simp (disch := omega) only [monthStartAt, monthStart, Int.tdiv_eq_ediv_of_nonneg,
    signed_eq_ok, ok_bind]

theorem monthNumberAt_eq {month : Int} (months : 0 ≤ month ∧ month ≤ 11) :
    monthNumberAt month = .ok (monthNumber month) := by
  unfold monthNumberAt monthNumber
  split
  · exact signed_eq_ok (by omega)
  · exact signed_eq_ok (by omega)

theorem inYearAt_eq {era year day : Int} (eras : 0 ≤ era ∧ era < 0x10000000000000)
    (years : 0 ≤ year ∧ year < 400) (days : 0 ≤ day ∧ day ≤ 365) :
    inYearAt era year day = .ok (inYear era year day) := by
  obtain ⟨months, starts⟩ := month_bounds days.1 days.2
  have numbers := monthNumber_bounds months
  have early : (monthNumber (shiftedMonth day)).toNat ≤ 2 ↔ monthNumber (shiftedMonth day) ≤ 2 := by
    omega
  have begins : 0 ≤ monthStart (shiftedMonth day) := by
    unfold monthStart
    omega
  have added : 0 ≤ (if monthNumber (shiftedMonth day) ≤ 2 then 1 else 0 : Int) ∧
      (if monthNumber (shiftedMonth day) ≤ 2 then 1 else 0 : Int) ≤ 1 := by
    split <;> decide
  simp (disch := omega) only [inYearAt, inYear, shiftedMonthAt_eq days, monthStartAt_eq months,
    monthNumberAt_eq months, signed_eq_ok, unsigned_eq_ok, ok_bind, early]
  rfl

/-- The date is found if the number of the day is clearly smaller than a machine word can be. -/
theorem ofDaysAt_eq {days : Nat} (small : days < 0x4000000000000000) :
    ofDaysAt days = .ok (ofDays days) := by
  have shift : epochShift = 719468 := rfl
  have length : daysPerEra = 146097 := rfl
  have bounds : 0 ≤ (days + epochShift) % daysPerEra ∧
      (days + epochShift) % daysPerEra < daysPerEra := by
    rw [length]
    omega
  have eras : 0 ≤ (days + epochShift) / daysPerEra ∧
      (days + epochShift) / daysPerEra < 0x10000000000000 := by
    rw [length]
    omega
  obtain ⟨years, placed⟩ := year_bounds bounds.1 bounds.2
  rw [ofDays_eq, ← inYearAt_eq eras years placed, dayOfYear]
  rw [dayOfYear] at placed
  simp (disch := omega) only [ofDaysAt, signed_eq_ok, yearOfEraAt_eq bounds.1 bounds.2,
    yearStartAt_eq years, ok_bind]

/-! ## Days that the clock can tell -/

/-- The last day that there is for a clock that counts seconds in a machine word. -/
def lastDay : Nat :=
  dayNumber (Decimal.wordBound - 1)

example : lastDay = (2 ^ 64 - 1) / 86400 := by decide

/-- The date of a day is the one that the calendar has for it.  For every day that the clock can
tell there is a date in the calendar, the date of the next day is the next date, and the first
day is the first of January 1970.  Machine words are large enough for each number on the way to
this date, and none is negative that goes into a word without a sign.  So the files of different
days have different names, whatever numbers they end with. -/
theorem ofDays_gregorian {day : Nat} (counted : day ≤ lastDay) :
    (ofDays day).Valid ∧
    ofDays 0 = ⟨1970, 1, 1⟩ ∧
    ofDays (day + 1) = (ofDays day).next ∧
    ofDaysAt day = .ok (ofDays day) ∧
    ∀ (name : Text) (other : Nat) (part rest : Option Nat), day ≠ other →
      LogFile.datedName name day part ≠ LogFile.datedName name other rest := by
  have small : lastDay < 0x4000000000000000 := by decide
  exact ⟨valid_ofDays day, by decide, ofDays_succ day,
    ofDaysAt_eq (Nat.lt_of_le_of_lt counted small),
    fun name other part rest different same => different (LogFile.day_eq_of_datedName same)⟩

/-- The leap day at the end of a century, and the last day of the clock. -/
theorem ofDays_gregorian_leap_day :
    (11016 ≤ lastDay ∧ (ofDays 11016).Valid ∧ ofDaysAt 11016 = .ok ⟨2000, 2, 29⟩ ∧
      ofDays 11017 = ⟨2000, 3, 1⟩) ∧
    ofDaysAt lastDay = .ok ⟨584554051223, 11, 9⟩ := by
  have counted : 11016 ≤ lastDay := by decide
  obtain ⟨valid, -, follows, computed, -⟩ := ofDays_gregorian counted
  obtain ⟨-, -, -, computedLast, -⟩ := ofDays_gregorian (Nat.le_refl lastDay)
  exact ⟨⟨counted, valid, computed, follows⟩, computedLast⟩

end Date

end FileServer
