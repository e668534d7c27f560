import FileServer.Proofs.Report.Calendar

/-!
# The Gregorian calendar

The rules of the calendar say how long a month is and which date comes after another one.  They
say nothing about numbers of days, and the date of a day is computed without them.  Both agree:
each day has a date that there is, each such date belongs to just one day, and the date of the
next day is the next date.

Years that begin in March make this short.  All months but the last one have the same length in
every year, so that only February asks whether the year is a leap year, and the end of this month
is the end of the year.
-/

namespace FileServer.Date

variable {date : Date}

/-- Every fourth year is a leap year, but of the years that end a century only every fourth
is one. -/
def IsLeap (year : Int) : Prop :=
  year % 4 = 0 ∧ (year % 100 = 0 → year % 400 = 0)
  deriving Decidable

/-- The number of days that a month of a year has. -/
def monthLength (year : Int) : Nat → Nat
  | 2 => if IsLeap year then 29 else 28
  | 4 | 6 | 9 | 11 => 30
  | _ => 31

/-- There is such a date. -/
structure Valid (date : Date) : Prop where
  month : 1 ≤ date.month ∧ date.month ≤ 12
  day : 1 ≤ date.day ∧ date.day ≤ monthLength date.year date.month

/-- The date after this one. -/
def next (date : Date) : Date :=
  if date.day < monthLength date.year date.month then { date with day := date.day + 1 }
  else if date.month < 12 then { date with month := date.month + 1, day := 1 }
  else { year := date.year + 1, month := 1, day := 1 }

theorem one_le_monthLength (year : Int) (month : Nat) : 1 ≤ monthLength year month := by
  unfold monthLength
  split
  · split <;> decide
  all_goals decide

/-- There is a date after each date. -/
theorem Valid.next (valid : date.Valid) : date.next.Valid := by
  obtain ⟨month, day⟩ := valid
  unfold Date.next
  split
  · next more => exact ⟨month, Nat.le_add_left 1 _, more⟩
  · split
    · next earlier => exact ⟨⟨Nat.le_add_left 1 _, earlier⟩, Nat.le_refl 1, one_le_monthLength _ _⟩
    · exact ⟨⟨Nat.le_refl 1, Nat.le_add_left 1 11⟩, Nat.le_refl 1, one_le_monthLength _ _⟩

/-! ## Months of years that begin in March -/

/-- The first day behind a month, in a year that begins in March of the year given. -/
def monthEnd (marchYear marchMonth : Int) : Int :=
  if marchMonth = 11 then if IsLeap (marchYear + 1) then 366 else 365
  else monthStart (marchMonth + 1)

/-- The days of a month lie between its two ends. -/
theorem monthStart_add_monthLength (months : 1 ≤ date.month ∧ date.month ≤ 12) :
    monthStart date.marchMonth + monthLength date.year date.month =
      monthEnd date.marchYear date.marchMonth := by
  obtain ⟨year, month, day⟩ := date
  dsimp only at months
  obtain rfl | rfl | rfl | rfl | rfl | rfl | rfl | rfl | rfl | rfl | rfl | rfl :
      month = 2 ∨ month = 1 ∨ month = 3 ∨ month = 4 ∨ month = 5 ∨ month = 6 ∨ month = 7 ∨
        month = 8 ∨ month = 9 ∨ month = 10 ∨ month = 11 ∨ month = 12 := by omega
  · by_cases leap : IsLeap year <;>
      simp [marchMonth, marchYear, monthEnd, monthLength, monthStart, leap]
  all_goals simp [marchMonth, monthEnd, monthLength, monthStart]

theorem marchMonth_bounds (months : 1 ≤ date.month ∧ date.month ≤ 12) :
    0 ≤ date.marchMonth ∧ date.marchMonth ≤ 11 := by
  unfold marchMonth
  split <;> omega

/-- There is a date if it lies between the ends of its month. -/
theorem valid_iff :
    date.Valid ↔ (1 ≤ date.month ∧ date.month ≤ 12) ∧ 1 ≤ date.day ∧
      monthStart date.marchMonth + date.day ≤ monthEnd date.marchYear date.marchMonth := by
  constructor
  · rintro ⟨months, first, last⟩
    refine ⟨months, first, ?_⟩
    rw [← monthStart_add_monthLength months]
    omega
  · rintro ⟨months, first, last⟩
    rw [← monthStart_add_monthLength months] at last
    exact ⟨months, first, by omega⟩

/-- The day of a year, counted from zero, is there in each year, or is the last one of a leap
year. -/
def InMarchYear (marchYear dayOfYear : Int) : Prop :=
  0 ≤ dayOfYear ∧ dayOfYear ≤ 365 ∧ (dayOfYear = 365 → IsLeap (marchYear + 1))

/-- Each day of a year lies in its month. -/
theorem InMarchYear.lt_monthEnd {marchYear dayOfYear : Int}
    (within : InMarchYear marchYear dayOfYear) :
    dayOfYear < monthEnd marchYear (shiftedMonth dayOfYear) := by
  obtain ⟨first, last, leap⟩ := within
  unfold monthEnd
  by_cases february : shiftedMonth dayOfYear = 11
  · rw [if_pos february]
    split
    · omega
    · next common => exact Int.lt_iff_le_and_ne.2 ⟨last, mt leap common⟩
  · rw [if_neg february]
    simp only [shiftedMonth, monthStart] at *
    omega

/-- A day between the ends of a month lies in the year, and in this month. -/
theorem inMarchYear_of_lt_monthEnd {marchYear marchMonth day : Int}
    (months : 0 ≤ marchMonth ∧ marchMonth ≤ 11) (first : 0 ≤ day)
    (last : monthStart marchMonth + day < monthEnd marchYear marchMonth) :
    InMarchYear marchYear (monthStart marchMonth + day) ∧
      shiftedMonth (monthStart marchMonth + day) = marchMonth := by
  unfold InMarchYear
  unfold monthEnd at last
  split at last
  · next february =>
      subst february
      split at last
      · next leap =>
          refine ⟨⟨?_, ?_, fun _ => leap⟩, ?_⟩
          all_goals
            simp only [shiftedMonth, monthStart] at *
            omega
      · simp only [shiftedMonth, monthStart] at *
        omega
  · simp only [shiftedMonth, monthStart] at *
    omega

/-- A date lies in its year and in its month. -/
theorem Valid.inMarchYear (valid : date.Valid) :
    InMarchYear date.marchYear (monthStart date.marchMonth + (date.day - 1)) ∧
      shiftedMonth (monthStart date.marchMonth + (date.day - 1)) = date.marchMonth := by
  obtain ⟨months, first, last⟩ := valid_iff.1 valid
  exact inMarchYear_of_lt_monthEnd (marchMonth_bounds months) (by omega) (by omega)

/-! ## Dates and days -/

theorem isLeap_add_era (year era : Int) : IsLeap (year + era * 400) ↔ IsLeap year := by
  unfold IsLeap
  omega

/-- A day of an era lies in its year. -/
theorem EraDay.Exists.inMarchYear {place : EraDay} (located : place.Exists) :
    InMarchYear place.yearOfEra place.day := by
  obtain ⟨century, group, year, day, leap⟩ := located
  refine ⟨day.1, day.2, fun whole => ?_⟩
  have last := leap whole
  unfold EraDay.yearOfEra IsLeap
  omega

/-- A day that lies in a year of an era is one of the days of the era. -/
theorem exists_eraDay_of_year {year dayOfYear : Int} (years : 0 ≤ year ∧ year < 400)
    (within : InMarchYear year dayOfYear) :
    ∃ place : EraDay, place.Exists ∧ place.yearOfEra = year ∧ place.day = dayOfYear := by
  obtain ⟨first, last, leap⟩ := within
  have placed : (⟨year / 100, year % 100 / 4, year % 4, dayOfYear⟩ : EraDay).yearOfEra = year := by
    dsimp only [EraDay.yearOfEra]
    omega
  refine ⟨_, ⟨?_, ?_, ?_, ⟨first, last⟩, fun whole => ?_⟩, placed, rfl⟩
  · dsimp only
    omega
  · dsimp only
    omega
  · dsimp only
    omega
  · obtain ⟨four, century⟩ := leap whole
    dsimp only
    omega

/-- The number of a day of an era gives its year and its day of the year back. -/
theorem split_eraDay {year day : Int} (years : 0 ≤ year ∧ year < 400)
    (within : InMarchYear year day) :
    (0 ≤ yearStart year + day ∧ yearStart year + day < daysPerEra) ∧
      yearOfEra (yearStart year + day) = year ∧ dayOfYear (yearStart year + day) = day := by
  obtain ⟨place, located, rfl, rfl⟩ := exists_eraDay_of_year years within
  have yearOf := EraDay.yearOfEra_number located
  rw [EraDay.number_eq located] at yearOf
  refine ⟨?_, yearOf, ?_⟩
  · obtain ⟨first, last, -⟩ := within
    unfold yearStart daysPerEra
    omega
  · rw [dayOfYear, yearOf]
    omega

/-- The days of a year of an era have dates that there are. -/
theorem valid_inYear (era : Int) {year day : Int} (within : InMarchYear year day) :
    (inYear era year day).Valid := by
  have days : 0 ≤ day ∧ day ≤ 365 := ⟨within.1, within.2.1⟩
  obtain ⟨months, starts⟩ := month_bounds days.1 days.2
  have numbers := monthNumber_bounds months
  have month : (inYear era year day).month = (monthNumber (shiftedMonth day)).toNat := rfl
  have dayOf : (inYear era year day).day = (day - monthStart (shiftedMonth day) + 1).toNat := rfl
  have later : InMarchYear (year + era * 400) day := by
    refine ⟨within.1, within.2.1, fun whole => ?_⟩
    rw [Int.add_right_comm, isLeap_add_era]
    exact within.2.2 whole
  have lasts := later.lt_monthEnd
  rw [valid_iff, marchYear_inYear era year days, marchMonth_inYear era year days, month, dayOf]
  omega

/-- Each day has a date that there is. -/
theorem valid_ofDays (days : Int) : (ofDays days).Valid := by
  have bounds : 0 ≤ (days + epochShift) % daysPerEra ∧
      (days + epochShift) % daysPerEra < daysPerEra := by
    rw [daysPerEra]
    omega
  obtain ⟨place, located, number⟩ := exists_eraDay bounds.1 bounds.2
  obtain ⟨-, yearOf, dayOf⟩ := split_eraDay
    (by obtain ⟨century, group, year, -⟩ := located; unfold EraDay.yearOfEra; omega)
    located.inMarchYear
  rw [ofDays_eq, ← number, EraDay.number_eq located, yearOf, dayOf]
  exact valid_inYear _ located.inMarchYear

/-- A date is the one of a day of its year. -/
theorem inYear_eq (valid : date.Valid) :
    inYear (date.marchYear / 400) (date.marchYear % 400)
      (monthStart date.marchMonth + (date.day - 1)) = date := by
  obtain ⟨months, first, -⟩ := valid_iff.1 valid
  unfold inYear
  rw [valid.inMarchYear.2]
  refine ext ?_ ?_ ?_
  · dsimp only
    unfold marchMonth marchYear monthNumber
    split <;> split <;> split <;> omega
  · dsimp only
    unfold marchMonth monthNumber
    split <;> split <;> omega
  · dsimp only
    omega

/-- Each date that there is belongs to a day. -/
theorem ofDays_toDays (valid : date.Valid) : ofDays date.toDays = date := by
  obtain ⟨within, -⟩ := valid.inMarchYear
  have year : date.marchYear % 400 + 1 + date.marchYear / 400 * 400 = date.marchYear + 1 := by
    omega
  have inEra : InMarchYear (date.marchYear % 400)
      (monthStart date.marchMonth + (date.day - 1)) := by
    refine ⟨within.1, within.2.1, fun whole => ?_⟩
    rw [← isLeap_add_era _ (date.marchYear / 400), year]
    exact within.2.2 whole
  obtain ⟨bounds, yearOf, dayOf⟩ := split_eraDay (by omega) inEra
  have shifted : date.toDays + epochShift = date.marchYear / 400 * daysPerEra +
      (yearStart (date.marchYear % 400) + (monthStart date.marchMonth + (date.day - 1))) := by
    unfold toDays
    omega
  have quotient : (date.toDays + epochShift) / daysPerEra = date.marchYear / 400 := by
    rw [shifted]
    unfold daysPerEra at *
    omega
  have remainder : (date.toDays + epochShift) % daysPerEra =
      yearStart (date.marchYear % 400) + (monthStart date.marchMonth + (date.day - 1)) := by
    rw [shifted]
    unfold daysPerEra at *
    omega
  rw [ofDays_eq, quotient, remainder, yearOf, dayOf, inYear_eq valid]

/-! ## The next day -/

/-- The number of the first day of a year that begins in March. -/
def marchStart (year : Int) : Int :=
  year / 400 * daysPerEra + yearStart (year % 400)

/-- A year ends with its February. -/
theorem marchStart_succ (year : Int) :
    marchStart (year + 1) = marchStart year + monthEnd year 11 := by
  rw [monthEnd, if_pos rfl]
  unfold marchStart daysPerEra yearStart
  split
  · next leap =>
      unfold IsLeap at leap
      omega
  · next common =>
      unfold IsLeap at common
      omega

theorem toDays_eq (date : Date) :
    date.toDays =
      marchStart date.marchYear + monthStart date.marchMonth + date.day - 1 - epochShift := by
  unfold toDays marchStart
  omega

/-- Behind the last day of a month the next month starts, and behind February the next year. -/
theorem next_of_full (months : 1 ≤ date.month ∧ date.month ≤ 12)
    (full : ¬date.day < monthLength date.year date.month) :
    date.next.day = 1 ∧
      if date.marchMonth = 11
      then date.next.marchYear = date.marchYear + 1 ∧ date.next.marchMonth = 0
      else date.next.marchYear = date.marchYear ∧
        date.next.marchMonth = date.marchMonth + 1 := by
  rw [next, if_neg full]
  unfold marchYear marchMonth
  by_cases december : date.month < 12
  · rw [if_pos december]
    refine ⟨rfl, ?_⟩
    dsimp only
    split <;> split <;> omega
  · rw [if_neg december]
    refine ⟨rfl, ?_⟩
    dsimp only
    split <;> split <;> omega

/-- The next date belongs to the next day. -/
theorem toDays_next (valid : date.Valid) : date.next.toDays = date.toDays + 1 := by
  by_cases more : date.day < monthLength date.year date.month
  · rw [next, if_pos more, toDays_eq, toDays_eq]
    unfold marchYear marchMonth
    dsimp only
    omega
  · have ends := monthStart_add_monthLength valid.month
    have full := valid.day.2
    obtain ⟨first, follows⟩ := next_of_full valid.month more
    rw [toDays_eq, toDays_eq, first]
    by_cases february : date.marchMonth = 11
    · rw [if_pos february] at follows
      rw [follows.1, follows.2, marchStart_succ]
      rw [february] at ends ⊢
      have begins : monthStart 0 = 0 := rfl
      omega
    · rw [if_neg february] at follows
      rw [monthEnd, if_neg february] at ends
      rw [follows.1, follows.2]
      omega

/-- The date of the next day is the next date. -/
theorem ofDays_succ (days : Int) : ofDays (days + 1) = (ofDays days).next := by
  have valid := valid_ofDays days
  rw [← ofDays_toDays valid.next, toDays_next valid, toDays_ofDays]

end FileServer.Date
