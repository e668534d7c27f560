import FileServer.Report.Calendar

/-!
# Days and their dates

The date of a day can be counted back to the day.  An era of four hundred years has four
centuries, each of them has twenty-five groups of four years, and a day is found by its
century, its group, its year in the group, and its place in this year.  Only the last year of
a group has one day more, which the last group of a century lacks, but for the last century of
the era.  So the year that is estimated from the number of the day is the right one, and what
is left of the number are the days of this year.
-/

namespace FileServer.Date

/-- A date is its year, its month and its day of the month. -/
theorem ext {date other : Date} (year : date.year = other.year) (month : date.month = other.month)
    (day : date.day = other.day) : date = other := by
  cases date
  cases other
  simp_all only

/-- A day of an era, by its century, the group of four years in it, the year in the group, and
the place in the year, all counted from zero. -/
structure EraDay where
  century : Int
  group : Int
  year : Int
  day : Int

namespace EraDay

variable {place : EraDay}

/-- The year of the era. -/
def yearOfEra (place : EraDay) : Int :=
  100 * place.century + 4 * place.group + place.year

/-- The number of the day in the era. -/
def number (place : EraDay) : Int :=
  36524 * place.century + 1461 * place.group + 365 * place.year + place.day

/-- There is such a day. -/
structure Exists (place : EraDay) : Prop where
  century : 0 ≤ place.century ∧ place.century ≤ 3
  group : 0 ≤ place.group ∧ place.group ≤ 24
  year : 0 ≤ place.year ∧ place.year ≤ 3
  day : 0 ≤ place.day ∧ place.day ≤ 365
  leap : place.day = 365 → place.year = 3 ∧ (place.group < 24 ∨ place.century = 3)

/-- A year starts on its first day. -/
theorem number_eq (located : place.Exists) :
    place.number = yearStart place.yearOfEra + place.day := by
  obtain ⟨century, group, year, -, -⟩ := located
  simp only [number, yearStart, yearOfEra]
  omega

/-- The year that is estimated is the right one. -/
theorem yearOfEra_number (located : place.Exists) :
    Date.yearOfEra place.number = place.yearOfEra := by
  obtain ⟨century, group, year, day⟩ := place
  obtain ⟨centuries, groups, years, days, leap⟩ := located
  simp only [number, yearOfEra, Date.yearOfEra] at *
  generalize whole : 36524 * century + 1461 * group + 365 * year + day = dayOfEra
  have fours : dayOfEra / 1460 = 25 * century + group ∨
      dayOfEra / 1460 = 25 * century + group + 1 := by omega
  have ends : dayOfEra / 36524 = century ∧ dayOfEra / 146096 = 0 ∨ dayOfEra = 146096 := by omega
  omega

end EraDay

/-- Every day of an era has its place. -/
theorem exists_eraDay {dayOfEra : Int} (positive : 0 ≤ dayOfEra) (within : dayOfEra < daysPerEra) :
    ∃ place : EraDay, place.Exists ∧ place.number = dayOfEra := by
  rw [daysPerEra] at within
  obtain ⟨century, rest, centuries, rests, last, whole⟩ : ∃ century rest : Int,
      (0 ≤ century ∧ century ≤ 3) ∧ (0 ≤ rest ∧ rest ≤ 36524) ∧ (rest = 36524 → century = 3) ∧
        dayOfEra = 36524 * century + rest := by
    refine ⟨min (dayOfEra / 36524) 3, dayOfEra - 36524 * min (dayOfEra / 36524) 3, ?_⟩
    omega
  refine ⟨⟨century, rest / 1461, min (rest % 1461 / 365) 3,
    rest % 1461 - 365 * min (rest % 1461 / 365) 3⟩, ⟨centuries, ?_, ?_, ?_, ?_⟩, ?_⟩
  all_goals
    simp only [EraDay.number]
    omega

/-- The day of the year that a day of an era is, counted from zero. -/
def dayOfYear (dayOfEra : Int) : Int :=
  dayOfEra - yearStart (yearOfEra dayOfEra)

/-- A year of an era has no more days than a leap year. -/
theorem year_bounds {dayOfEra : Int} (positive : 0 ≤ dayOfEra) (within : dayOfEra < daysPerEra) :
    (0 ≤ yearOfEra dayOfEra ∧ yearOfEra dayOfEra < 400) ∧
      0 ≤ dayOfYear dayOfEra ∧ dayOfYear dayOfEra ≤ 365 := by
  obtain ⟨place, located, rfl⟩ := exists_eraDay positive within
  rw [dayOfYear, EraDay.yearOfEra_number located, EraDay.number_eq located]
  obtain ⟨century, group, year, day, -⟩ := located
  simp only [EraDay.yearOfEra]
  omega

/-- The year of a date where years begin in March. -/
def marchYear (date : Date) : Int :=
  if date.month ≤ 2 then date.year - 1 else date.year

/-- The month of a date where March is zero. -/
def marchMonth (date : Date) : Int :=
  if 2 < date.month then date.month - 3 else date.month + 9

/-- The number of the day that has a date. -/
def toDays (date : Date) : Int :=
  date.marchYear / 400 * daysPerEra + (yearStart (date.marchYear % 400) +
    (monthStart date.marchMonth + date.day - 1)) - epochShift

/-- The month and the day of the month of a day of the year. -/
theorem month_bounds {dayOfYear : Int} (positive : 0 ≤ dayOfYear) (within : dayOfYear ≤ 365) :
    (0 ≤ shiftedMonth dayOfYear ∧ shiftedMonth dayOfYear ≤ 11) ∧
      monthStart (shiftedMonth dayOfYear) ≤ dayOfYear := by
  simp only [shiftedMonth, monthStart]
  omega

/-- The date in a year of an era, where years begin in March. -/
def inYear (era year dayOfYear : Int) : Date where
  year := year + era * 400 + if monthNumber (shiftedMonth dayOfYear) ≤ 2 then 1 else 0
  month := (monthNumber (shiftedMonth dayOfYear)).toNat
  day := (dayOfYear - monthStart (shiftedMonth dayOfYear) + 1).toNat

theorem ofDays_eq (days : Int) :
    ofDays days = inYear ((days + epochShift) / daysPerEra)
      (yearOfEra ((days + epochShift) % daysPerEra))
      (dayOfYear ((days + epochShift) % daysPerEra)) := rfl

theorem monthNumber_bounds {month : Int} (months : 0 ≤ month ∧ month ≤ 11) :
    1 ≤ monthNumber month ∧ monthNumber month ≤ 12 := by
  rw [monthNumber]
  split <;> omega

theorem marchYear_inYear (era year : Int) {day : Int} (days : 0 ≤ day ∧ day ≤ 365) :
    (inYear era year day).marchYear = year + era * 400 := by
  have bounds := monthNumber_bounds (month_bounds days.1 days.2).1
  have month : (inYear era year day).month = (monthNumber (shiftedMonth day)).toNat := rfl
  have yearOf : (inYear era year day).year =
      year + era * 400 + if monthNumber (shiftedMonth day) ≤ 2 then 1 else 0 := rfl
  rw [marchYear, month, yearOf]
  by_cases early : monthNumber (shiftedMonth day) ≤ 2
  · rw [if_pos (by omega), if_pos early, Int.add_sub_cancel]
  · rw [if_neg (by omega), if_neg early, Int.add_zero]

theorem marchMonth_inYear (era year : Int) {day : Int} (days : 0 ≤ day ∧ day ≤ 365) :
    (inYear era year day).marchMonth = shiftedMonth day := by
  obtain ⟨months, -⟩ := month_bounds days.1 days.2
  simp only [marchMonth, inYear, monthNumber]
  split <;> split <;> omega

/-- A date counts back to its year and the day of this year. -/
theorem toDays_inYear (era : Int) {year day : Int} (years : 0 ≤ year ∧ year < 400)
    (days : 0 ≤ day ∧ day ≤ 365) :
    toDays (inYear era year day) = era * daysPerEra + (yearStart year + day) - epochShift := by
  obtain ⟨-, starts⟩ := month_bounds days.1 days.2
  have dayOfMonth : ((inYear era year day).day : Int) =
      day - monthStart (shiftedMonth day) + 1 := Int.toNat_of_nonneg (by omega)
  have quotient : (year + era * 400) / 400 = era := by omega
  have remainder : (year + era * 400) % 400 = year := by omega
  rw [toDays, marchYear_inYear era year days, marchMonth_inYear era year days, quotient, remainder,
    dayOfMonth]
  omega

/-- The date of a day counts back to this day. -/
theorem toDays_ofDays (days : Int) : toDays (ofDays days) = days := by
  have era : 0 ≤ (days + epochShift) % daysPerEra ∧
      (days + epochShift) % daysPerEra < daysPerEra := by
    rw [daysPerEra]
    omega
  obtain ⟨years, placed⟩ := year_bounds era.1 era.2
  rw [ofDays_eq, toDays_inYear _ years placed, dayOfYear]
  have whole := Int.mul_ediv_add_emod (days + epochShift) daysPerEra
  rw [Int.mul_comm] at whole
  omega

/-- Different days have different dates. -/
theorem ofDays_injective {first second : Int} (same : ofDays first = ofDays second) :
    first = second := by
  rw [← toDays_ofDays first, same, toDays_ofDays]

end FileServer.Date
