import SqlQuery.Calendar

/-!
The dates of day numbers. Main statement: each day number has a date of the proleptic Gregorian
calendar, and the next number has the date of the next day. The proof counts years and months from
March on, so that a leap day is the last day of its year, and splits an era of 400 years into
centuries, cycles of four years and years.
-/

namespace SqlQuery.Date

/-- The day after a date. -/
def next (date : Date) : Date :=
  if date.day < daysInMonth date.year date.month then { date with day := date.day + 1 }
  else if date.month < 12 then ⟨date.year, date.month + 1, 1⟩
  else ⟨date.year + 1, 1, 1⟩

theorem isLeapYear_iff {year : Int} :
    isLeapYear year = true ↔ year % 4 = 0 ∧ (year % 100 ≠ 0 ∨ year % 400 = 0) := by
  simp [isLeapYear]

/-! Years and months from March on. -/

/-- The days from March of year 0 to March of a year. -/
def daysToMarch (year : Int) : Int :=
  365 * year + year / 4 - year / 100 + year / 400

/-- The days of a year before a month. -/
def daysToMonth (month : Nat) : Nat :=
  (153 * month + 2) / 5

/-- The last month is February, and it belongs to the next year of the calendar. -/
def monthLength (year : Int) (month : Nat) : Nat :=
  if month = 11 then (if isLeapYear (year + 1) then 29 else 28)
  else daysToMonth (month + 1) - daysToMonth month

/-- The date of a day in a month. The day is counted from zero. -/
def ofMarch (year : Int) (month day : Nat) : Date :=
  if month < 10 then ⟨year, month + 3, day + 1⟩ else ⟨year + 1, month - 9, day + 1⟩

structure InMonth (year : Int) (month day : Nat) : Prop where
  month_le : month ≤ 11
  day_lt : day < monthLength year month

variable {year : Int} {month day dayOfYear : Nat}

theorem daysToMarch_succ (year : Int) :
    daysToMarch (year + 1) = daysToMarch year + if isLeapYear (year + 1) then 366 else 365 := by
  rw [daysToMarch, daysToMarch]
  split
  · next leap =>
      rw [isLeapYear_iff] at leap
      omega
  · next common =>
      rw [isLeapYear_iff] at common
      omega

theorem daysToMonth_succ (year : Int) (other : month ≠ 11) :
    daysToMonth (month + 1) = daysToMonth month + monthLength year month := by
  rw [monthLength, if_neg other, daysToMonth, daysToMonth]
  omega

theorem monthLength_le (year : Int) (month : Nat) :
    monthLength year month ≤ daysToMonth (month + 1) - daysToMonth month := by
  by_cases february : month = 11
  · cases february
    rw [monthLength, if_pos rfl]
    split
    · decide
    · decide
  · exact Nat.le_of_eq (if_neg february)

theorem monthLength_pos (year : Int) (month : Nat) : 0 < monthLength year month := by
  by_cases february : month = 11
  · rw [monthLength, if_pos february]
    split
    · decide
    · decide
  · rw [monthLength, if_neg february, daysToMonth, daysToMonth]
    omega

theorem daysInMonth_ofMarch (year : Int) (day : Nat) (last : month ≤ 11) :
    daysInMonth (ofMarch year month day).year (ofMarch year month day).month =
      monthLength year month := by
  have cases : month = 0 ∨ month = 1 ∨ month = 2 ∨ month = 3 ∨ month = 4 ∨ month = 5 ∨
      month = 6 ∨ month = 7 ∨ month = 8 ∨ month = 9 ∨ month = 10 ∨ month = 11 := by omega
  rcases cases with
    rfl | rfl | rfl | rfl | rfl | rfl | rfl | rfl | rfl | rfl | rfl | rfl <;> rfl

namespace InMonth

theorem isValid (inMonth : InMonth year month day) : (ofMarch year month day).IsValid := by
  obtain ⟨last, inside⟩ := inMonth
  rw [← daysInMonth_ofMarch year day last] at inside
  rw [ofMarch] at inside ⊢
  split
  · next early =>
      rw [if_pos early] at inside
      have least : 1 ≤ month + 3 := by omega
      have most : month + 3 ≤ 12 := by omega
      exact ⟨least, most, Nat.le_add_left 1 day, inside⟩
  · next late =>
      rw [if_neg late] at inside
      have least : 1 ≤ month - 9 := by omega
      have most : month - 9 ≤ 12 := by omega
      exact ⟨least, most, Nat.le_add_left 1 day, inside⟩

/-! The next day: in the same month, in the next one, or the first of March. -/

theorem next_of_lt (inMonth : InMonth year month day)
    (more : day + 1 < monthLength year month) :
    (ofMarch year month day).next = ofMarch year month (day + 1) := by
  rw [← daysInMonth_ofMarch year day inMonth.month_le] at more
  rw [ofMarch] at more ⊢
  rw [ofMarch]
  split at more
  · next early => rw [if_pos early, if_pos early, next, if_pos more]
  · next late => rw [if_neg late, if_neg late, next, if_pos more]

theorem next_of_eq (inMonth : InMonth year month day)
    (last : day + 1 = monthLength year month) :
    (ofMarch year month day).next =
      if month = 11 then ofMarch (year + 1) 0 0 else ofMarch year (month + 1) 0 := by
  have full : ¬ day + 1 < monthLength year month := by omega
  have few := inMonth.month_le
  rw [← daysInMonth_ofMarch year day few] at full
  rw [ofMarch] at full ⊢
  split at full
  · next early =>
      have other : month ≠ 11 := by omega
      rw [if_pos early, next, if_neg full, if_neg other, ofMarch]
      by_cases december : month = 9
      · cases december
        rfl
      · have earlier : month + 3 < 12 := by omega
        have stillEarly : month + 1 < 10 := by omega
        rw [if_pos earlier, if_pos stillEarly]
  · next late =>
      have earlier : month - 9 < 12 := by omega
      rw [if_neg late, next, if_neg full, if_pos earlier]
      by_cases february : month = 11
      · cases february
        rfl
      · have january : month = 10 := by omega
        cases january
        rfl

end InMonth

/-! Days of a year. -/

/-- A day of the year that starts in March; the last one is there if a leap year follows. -/
def InYear (year : Int) (dayOfYear : Nat) : Prop :=
  dayOfYear < 365 ∨ dayOfYear = 365 ∧ isLeapYear (year + 1) = true

theorem InYear.exists_inMonth (inYear : InYear year dayOfYear) :
    ∃ month day, dayOfYear = daysToMonth month + day ∧ InMonth year month day := by
  let month := (5 * dayOfYear + 2) / 153
  have split : dayOfYear = daysToMonth month + (dayOfYear - daysToMonth month) := by
    rw [daysToMonth]
    omega
  rw [InYear] at inYear
  refine ⟨month, dayOfYear - daysToMonth month, split, ?_, ?_⟩
  · omega
  · by_cases february : month = 11
    · have start : daysToMonth 11 = 337 := rfl
      rw [monthLength, if_pos february, february, start]
      split
      · omega
      · next common =>
          rcases inYear with inYear | ⟨-, leap⟩
          · omega
          · exact absurd leap common
    · rw [monthLength, if_neg february, daysToMonth, daysToMonth]
      omega

theorem InMonth.inYear (inMonth : InMonth year month day) :
    InYear year (daysToMonth month + day) := by
  obtain ⟨last, inside⟩ := inMonth
  rw [InYear]
  by_cases february : month = 11
  · have start : daysToMonth 11 = 337 := rfl
    rw [monthLength, if_pos february] at inside
    rw [february, start]
    split at inside
    · next leap =>
        simp only [leap, and_true]
        omega
    · omega
  · have short := Nat.lt_of_lt_of_le inside (monthLength_le year month)
    rw [daysToMonth, daysToMonth] at short
    rw [daysToMonth]
    omega

/-! Days of an era. -/

/-- A day of an era of 400 years that starts in March: full centuries, full cycles of four years and
full years before it, and the day of its year. -/
structure Splits (dayOfEra century cycle yearOfCycle dayOfYear : Nat) : Prop where
  sum : dayOfEra = 36524 * century + 1461 * cycle + 365 * yearOfCycle + dayOfYear
  century_le : century ≤ 3
  cycle_le : cycle ≤ 24
  year_le : yearOfCycle ≤ 3
  day_le : dayOfYear ≤ 365
  leap : dayOfYear = 365 → yearOfCycle = 3 ∧ (cycle < 24 ∨ century = 3)

variable {dayOfEra century cycle yearOfCycle : Nat}

theorem exists_splits (inside : dayOfEra < 146097) :
    ∃ century cycle yearOfCycle dayOfYear,
      Splits dayOfEra century cycle yearOfCycle dayOfYear := by
  -- the last century of an era and the last year of a cycle can be a day longer than the others
  obtain ⟨century, dayOfCentury, rfl, few, inCentury⟩ : ∃ century dayOfCentury,
      dayOfEra = 36524 * century + dayOfCentury ∧ century ≤ 3 ∧
        (dayOfCentury < 36524 ∨ century = 3 ∧ dayOfCentury = 36524) := by
    by_cases last : dayOfEra = 146096
    · exact ⟨3, 36524, by omega⟩
    · exact ⟨dayOfEra / 36524, dayOfEra % 36524, by omega⟩
  obtain ⟨yearOfCycle, dayOfYear, dayOfCycle, short, inYear⟩ : ∃ yearOfCycle dayOfYear,
      dayOfCentury % 1461 = 365 * yearOfCycle + dayOfYear ∧ yearOfCycle ≤ 3 ∧
        (dayOfYear < 365 ∨ yearOfCycle = 3 ∧ dayOfYear = 365) := by
    by_cases last : dayOfCentury % 1461 = 1460
    · exact ⟨3, 365, by omega⟩
    · exact ⟨dayOfCentury % 1461 / 365, dayOfCentury % 1461 % 365, by omega⟩
  refine ⟨century, dayOfCentury / 1461, yearOfCycle, dayOfYear, ?_⟩
  exact ⟨by omega, few, by omega, short, by omega, by omega⟩

namespace Splits

theorem lt_era (splits : Splits dayOfEra century cycle yearOfCycle dayOfYear) :
    dayOfEra < 146097 := by
  obtain ⟨sum, centuryLe, cycleLe, yearLe, dayLe, leap⟩ := splits
  omega

theorem yearOfEra_eq (splits : Splits dayOfEra century cycle yearOfCycle dayOfYear) :
    (dayOfEra - dayOfEra / 1460 + dayOfEra / 36524 - dayOfEra / 146096) / 365 =
      100 * century + 4 * cycle + yearOfCycle := by
  obtain ⟨sum, centuryLe, cycleLe, yearLe, dayLe, leap⟩ := splits
  have cycles : dayOfEra / 1460 = 25 * century + cycle +
      (24 * century + cycle + 365 * yearOfCycle + dayOfYear) / 1460 := by omega
  -- on the last day of the era two of the corrections are one too many, and they cancel out
  have centuries : dayOfEra / 36524 = century + dayOfEra / 146096 := by
    by_cases last : dayOfEra = 146096
    · omega
    · have inEra : dayOfEra / 146096 = 0 := by omega
      have inCentury : 1461 * cycle + 365 * yearOfCycle + dayOfYear < 36524 := by omega
      omega
  rw [cycles, centuries]
  omega

theorem dayOfYear_eq (splits : Splits dayOfEra century cycle yearOfCycle dayOfYear) :
    dayOfEra - (365 * (100 * century + 4 * cycle + yearOfCycle) +
      (100 * century + 4 * cycle + yearOfCycle) / 4 -
      (100 * century + 4 * cycle + yearOfCycle) / 100) = dayOfYear := by
  obtain ⟨sum, centuryLe, cycleLe, yearLe, dayLe, leap⟩ := splits
  omega

theorem daysToMarch_eq (splits : Splits dayOfEra century cycle yearOfCycle dayOfYear) (era : Int) :
    daysToMarch (400 * era + (100 * century + 4 * cycle + yearOfCycle : Nat)) + dayOfYear =
      146097 * era + dayOfEra := by
  obtain ⟨sum, centuryLe, cycleLe, yearLe, dayLe, leap⟩ := splits
  rw [daysToMarch]
  omega

theorem inYear (splits : Splits dayOfEra century cycle yearOfCycle dayOfYear) (era : Int) :
    InYear (400 * era + (100 * century + 4 * cycle + yearOfCycle : Nat)) dayOfYear := by
  obtain ⟨sum, centuryLe, cycleLe, yearLe, dayLe, leap⟩ := splits
  rw [InYear, isLeapYear_iff]
  omega

end Splits

theorem InYear.exists_splits (inYear : InYear year dayOfYear) :
    ∃ era century cycle yearOfCycle dayOfEra,
      year = 400 * era + (100 * century + 4 * cycle + yearOfCycle : Nat) ∧
        Splits dayOfEra century cycle yearOfCycle dayOfYear := by
  rw [InYear, isLeapYear_iff] at inYear
  refine ⟨year / 400, (year % 400).toNat / 100, (year % 100).toNat / 4, (year % 4).toNat, _,
    ?_, rfl, ?_, ?_, ?_, ?_, ?_⟩
  · omega
  · omega
  · omega
  · omega
  · omega
  · omega

/-! Day numbers. -/

def dayNumber (year : Int) (month day : Nat) : Int :=
  daysToMarch year + (daysToMonth month + day : Nat) - 719468

theorem exists_dayNumber (number : Int) :
    ∃ year month day, number = dayNumber year month day ∧ InMonth year month day := by
  have inside : ((number + 719468) % 146097).toNat < 146097 := by omega
  obtain ⟨century, cycle, yearOfCycle, dayOfYear, splits⟩ := exists_splits inside
  have inYear := splits.inYear ((number + 719468) / 146097)
  obtain ⟨month, day, split, inMonth⟩ := inYear.exists_inMonth
  refine ⟨_, month, day, ?_, inMonth⟩
  rw [dayNumber, ← split, splits.daysToMarch_eq]
  omega

theorem InMonth.ofDayNumber_eq (inMonth : InMonth year month day) :
    ofDayNumber (dayNumber year month day) = ofMarch year month day := by
  obtain ⟨era, century, cycle, yearOfCycle, dayOfEra, rfl, splits⟩ := inMonth.inYear.exists_splits
  have bound := splits.lt_era
  have eraOf : (146097 * era + dayOfEra - 719468 + 719468) / 146097 = era := by omega
  have dayOf : ((146097 * era + dayOfEra - 719468 + 719468) % 146097).toNat = dayOfEra := by omega
  have monthOf : (5 * (daysToMonth month + day) + 2) / 153 = month := by
    have short := Nat.lt_of_lt_of_le inMonth.day_lt (monthLength_le _ month)
    rw [daysToMonth, daysToMonth] at short
    rw [daysToMonth]
    omega
  have rest : daysToMonth month + day - (153 * month + 2) / 5 = day := Nat.add_sub_cancel_left ..
  rw [dayNumber, splits.daysToMarch_eq, ofDayNumber, ofMarch]
  simp only [eraOf, dayOf, splits.yearOfEra_eq, splits.dayOfYear_eq, monthOf, rest]
  have few := inMonth.month_le
  split
  · have spring : ¬ month + 3 ≤ 2 := by omega
    rw [if_neg spring, Int.add_zero]
  · have winter : month - 9 ≤ 2 := by omega
    rw [if_pos winter]

theorem isValid_ofDayNumber (number : Int) : (ofDayNumber number).IsValid := by
  obtain ⟨year, month, day, rfl, inMonth⟩ := exists_dayNumber number
  rw [inMonth.ofDayNumber_eq]
  exact inMonth.isValid

theorem ofDayNumber_zero : ofDayNumber 0 = ⟨1970, 1, 1⟩ := by
  decide

theorem ofDayNumber_succ (number : Int) :
    ofDayNumber (number + 1) = (ofDayNumber number).next := by
  obtain ⟨year, month, day, rfl, inMonth⟩ := exists_dayNumber number
  rw [inMonth.ofDayNumber_eq]
  have few := inMonth.month_le
  have inside := inMonth.day_lt
  by_cases more : day + 1 < monthLength year month
  · have later : InMonth year month (day + 1) := ⟨few, more⟩
    have number : dayNumber year month day + 1 = dayNumber year month (day + 1) := by
      rw [dayNumber, dayNumber]
      omega
    rw [number, later.ofDayNumber_eq, inMonth.next_of_lt more]
  · have last : day + 1 = monthLength year month := by omega
    rw [inMonth.next_of_eq last]
    split
    · next february =>
        -- the year from March on is over as well
        have later : InMonth (year + 1) 0 0 := ⟨Nat.zero_le 11, monthLength_pos (year + 1) 0⟩
        have number : dayNumber year month day + 1 = dayNumber (year + 1) 0 0 := by
          have start : daysToMonth 11 = 337 := rfl
          have first : daysToMonth 0 = 0 := rfl
          rw [monthLength, if_pos february] at last
          rw [dayNumber, dayNumber, daysToMarch_succ, february, start, first]
          split at last
          · next leap =>
              rw [if_pos leap]
              omega
          · next common =>
              rw [if_neg common]
              omega
        rw [number, later.ofDayNumber_eq]
    · next other =>
        have later : InMonth year (month + 1) 0 :=
          ⟨by omega, monthLength_pos year (month + 1)⟩
        have number : dayNumber year month day + 1 = dayNumber year (month + 1) 0 := by
          rw [dayNumber, dayNumber, daysToMonth_succ year other]
          omega
        rw [number, later.ofDayNumber_eq]

/-- The ends of the calendar. -/
example : ofDayNumber firstDay = ⟨-262143, 1, 1⟩ ∧ ofDayNumber lastDay = ⟨262142, 12, 31⟩ := by
  decide

end SqlQuery.Date
