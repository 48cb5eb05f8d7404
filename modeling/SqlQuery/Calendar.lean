/-!
The proleptic Gregorian calendar over the years from -262143 to 262142, and points in time on it
to the nanosecond. Days are counted from 1970-01-01.
-/

namespace SqlQuery

structure Date where
  year : Int
  month : Nat
  day : Nat
  deriving DecidableEq, Repr

namespace Date

def isLeapYear (year : Int) : Bool :=
  year % 4 == 0 && (year % 100 != 0 || year % 400 == 0)

def daysInMonth (year : Int) : Nat → Nat
  | 2 => if isLeapYear year then 29 else 28
  | 4 => 30
  | 6 => 30
  | 9 => 30
  | 11 => 30
  | _ => 31

def IsValid (date : Date) : Prop :=
  1 ≤ date.month ∧ date.month ≤ 12 ∧
    1 ≤ date.day ∧ date.day ≤ daysInMonth date.year date.month

instance (date : Date) : Decidable date.IsValid :=
  inferInstanceAs (Decidable (_ ∧ _ ∧ _ ∧ _))

/-- The number of the day, counted from 1970-01-01. A year is taken to start in March, so that
a leap day is its last. -/
def toDayNumber (date : Date) : Int :=
  let year := if date.month ≤ 2 then date.year - 1 else date.year
  let month := if date.month ≤ 2 then date.month + 9 else date.month - 3
  let dayOfYear := (153 * month + 2) / 5 + date.day - 1
  365 * year + year / 4 - year / 100 + year / 400 + dayOfYear - 719468

def ofDayNumber (number : Int) : Date :=
  let shifted := number + 719468
  let era := shifted / 146097
  let dayOfEra := (shifted % 146097).toNat
  let yearOfEra :=
    (dayOfEra - dayOfEra / 1460 + dayOfEra / 36524 - dayOfEra / 146096) / 365
  let dayOfYear := dayOfEra - (365 * yearOfEra + yearOfEra / 4 - yearOfEra / 100)
  let monthFromMarch := (5 * dayOfYear + 2) / 153
  let month := if monthFromMarch < 10 then monthFromMarch + 3 else monthFromMarch - 9
  { year := 400 * era + yearOfEra + (if month ≤ 2 then 1 else 0)
    month := month
    day := dayOfYear - (153 * monthFromMarch + 2) / 5 + 1 }

def padded (width : Nat) (n : Nat) : String :=
  let digits := toString n
  String.ofList (List.replicate (width - digits.length) '0') ++ digits

/-- Four digits, and a sign before a year that four digits do not hold. -/
def yearText (year : Int) : String :=
  if 0 ≤ year ∧ year ≤ 9999 then padded 4 year.toNat
  else (if year < 0 then "-" else "+") ++ padded 4 year.natAbs

def text (date : Date) : String :=
  yearText date.year ++ "-" ++ padded 2 date.month ++ "-" ++ padded 2 date.day

end Date

/-- The first day of the calendar, -262143-01-01. -/
def firstDay : Int := -96465292

/-- The last day of the calendar, 262142-12-31. -/
def lastDay : Int := 95026236

/-- A point in time without a time zone. A nanosecond of 10^9 or more belongs to a leap second,
which follows second 59 of its minute. -/
structure Timestamp where
  day : Int
  second : Nat
  nanosecond : Nat
  day_mem : firstDay ≤ day ∧ day ≤ lastDay
  second_lt : second < 86400
  nanosecond_lt : nanosecond < 2000000000
  deriving DecidableEq, Repr

namespace Timestamp

def ofFields? (date : Date) (hour minute second nanosecond : Nat) : Option Timestamp :=
  if h : (date.IsValid ∧ firstDay ≤ date.toDayNumber ∧ date.toDayNumber ≤ lastDay) ∧
      hour < 24 ∧ minute < 60 ∧ second < 60 ∧ nanosecond < 2000000000 ∧
      (nanosecond < 1000000000 ∨ second = 59) then
    some
      { day := date.toDayNumber
        second := 3600 * hour + 60 * minute + second
        nanosecond := nanosecond
        day_mem := h.1.2
        second_lt := by omega
        nanosecond_lt := h.2.2.2.2.1 }
  else
    none

def ofMicroseconds? (microseconds : Int) : Option Timestamp :=
  let day := microseconds / 86400000000
  let rest := (microseconds % 86400000000).toNat
  if h : firstDay ≤ day ∧ day ≤ lastDay then
    some
      { day := day
        second := rest / 1000000
        nanosecond := rest % 1000000 * 1000
        day_mem := h
        second_lt := by omega
        nanosecond_lt := by omega }
  else
    none

def date (t : Timestamp) : Date :=
  .ofDayNumber t.day

/-- Date, time and microseconds; a leap second is written as second 60. -/
def text (t : Timestamp) : String :=
  t.date.text ++ " " ++ Date.padded 2 (t.second / 3600) ++ ":" ++
    Date.padded 2 (t.second / 60 % 60) ++ ":" ++
    Date.padded 2 (t.second % 60 + t.nanosecond / 1000000000) ++ "." ++
    Date.padded 6 (t.nanosecond % 1000000000 / 1000)

end Timestamp

end SqlQuery
