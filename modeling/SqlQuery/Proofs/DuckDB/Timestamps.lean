import SqlQuery.DuckDB.Cell
import SqlQuery.Proofs.Calendar

/-!
Points in time. Main statement: a cell that becomes a timestamp becomes the one of its own instant,
to the microsecond, whatever its unit. A number of microseconds that does not fit 64 bits is out of
the calendar, so the ends of the range of numbers are not mistaken for points in time.
-/

namespace SqlQuery

namespace Timestamp

/-- The nanoseconds from the start of 1970-01-01 to a point in time. -/
def instant (t : Timestamp) : Int :=
  (86400 * t.day + t.second) * 1000000000 + t.nanosecond

variable {microseconds : Int} {t : Timestamp}

theorem instant_of_microseconds (found : ofMicroseconds? microseconds = some t) :
    t.instant = 1000 * microseconds ∧ t.nanosecond < 1000000000 := by
  simp only [ofMicroseconds?] at found
  split at found
  · cases found
    simp only [instant]
    omega
  · cases found

theorem exists_of_microseconds :
    (∃ t, ofMicroseconds? microseconds = some t) ↔
      86400000000 * firstDay ≤ microseconds ∧ microseconds < 86400000000 * (lastDay + 1) := by
  have range : (firstDay ≤ microseconds / 86400000000 ∧ microseconds / 86400000000 ≤ lastDay) ↔
      86400000000 * firstDay ≤ microseconds ∧ microseconds < 86400000000 * (lastDay + 1) := by
    omega
  rw [← range]
  simp only [ofMicroseconds?]
  constructor
  · intro found
    obtain ⟨t, found⟩ := found
    split at found
    · next inside => exact inside
    · cases found
  · intro inside
    rw [dif_pos inside]
    exact ⟨_, rfl⟩

end Timestamp

namespace DuckDB

def TimeUnit.nanoseconds : TimeUnit → Int
  | second => 1000000000
  | millisecond => 1000000
  | microsecond => 1000
  | nanosecond => 1

/-- The nanoseconds from the start of 1970-01-01 that a number of units stands for. -/
def TimeUnit.instant (unit : TimeUnit) (n : Int64) : Int :=
  unit.nanoseconds * n.toInt

namespace Cell

theorem toInt_bounds (n : Int64) :
    -9223372036854775808 ≤ n.toInt ∧ n.toInt ≤ 9223372036854775807 :=
  ⟨n.le_toInt, Int.le_of_lt_add_one n.toInt_lt⟩

theorem toInt_saturate (n : Int) :
    (saturate n).toInt =
      if n < -9223372036854775808 then -9223372036854775808
      else if 9223372036854775807 < n then 9223372036854775807 else n := by
  have least : Int64.minValue.toInt = -9223372036854775808 := Int64.toInt_minValue
  have most : Int64.maxValue.toInt = 9223372036854775807 := Int64.toInt_maxValue
  rw [saturate, least, most]
  split
  · exact least
  · split
    · exact most
    · exact Int64.toInt_ofInt_of_le (by omega) (by omega)

theorem saturate_toInt (n : Int64) : saturate n.toInt = n := by
  have bounds := toInt_bounds n
  rw [← Int64.toInt_inj, toInt_saturate]
  split
  · omega
  · split
    · omega
    · rfl

theorem tdiv_eq (n : Int) : n.tdiv 1000 = if 0 ≤ n then n / 1000 else -(-n / 1000) := by
  by_cases positive : 0 ≤ n
  · rw [if_pos positive, Int.tdiv_eq_ediv_of_nonneg positive]
  · have negated : 0 ≤ -n := by omega
    rw [if_neg positive, ← Int.tdiv_eq_ediv_of_nonneg negated, Int.neg_tdiv, Int.neg_neg]

/-- For all units alike, a cell becomes the nearest number of 64 bits to its microseconds. -/
theorem microseconds_eq (unit : TimeUnit) (n : Int64) :
    microseconds unit n = saturate ((unit.instant n).tdiv 1000) := by
  have whole : ∀ k : Int, (1000 * k).tdiv 1000 = k := fun k =>
    Int.mul_tdiv_cancel_left k (by decide)
  cases unit with
  | second =>
      have instant : TimeUnit.second.instant n = 1000 * (n.toInt * 1000000) := by
        rw [TimeUnit.instant, TimeUnit.nanoseconds]
        omega
      rw [instant, whole, microseconds]
  | millisecond =>
      have instant : TimeUnit.millisecond.instant n = 1000 * (n.toInt * 1000) := by
        rw [TimeUnit.instant, TimeUnit.nanoseconds]
        omega
      rw [instant, whole, microseconds]
  | microsecond =>
      rw [TimeUnit.instant, TimeUnit.nanoseconds, whole, saturate_toInt, microseconds]
  | nanosecond =>
      have instant : TimeUnit.nanosecond.instant n = n.toInt := by
        rw [TimeUnit.instant, TimeUnit.nanoseconds, Int.one_mul]
      have bounds := toInt_bounds n
      have least : ¬ n.toInt.tdiv 1000 < Int64.minValue.toInt := by
        rw [tdiv_eq, Int64.toInt_minValue]
        omega
      have most : ¬ Int64.maxValue.toInt < n.toInt.tdiv 1000 := by
        rw [tdiv_eq, Int64.toInt_maxValue]
        omega
      rw [instant, microseconds, saturate, if_neg least, if_neg most]

/-! Cells that become timestamps. -/

/-- The whole microseconds of an instant, toward the start of 1970-01-01. -/
def cut (instant : Int) : Int :=
  1000 * instant.tdiv 1000

theorem cut_mono {first second : Int} (le : first ≤ second) : cut first ≤ cut second := by
  rw [cut, cut, tdiv_eq, tdiv_eq]
  omega

theorem natAbs_cut_sub_lt (instant : Int) : (cut instant - instant).natAbs < 1000 := by
  rw [cut, tdiv_eq]
  omega

theorem cut_instant {unit : TimeUnit} (coarse : unit ≠ .nanosecond) (n : Int64) :
    cut (unit.instant n) = unit.instant n := by
  rw [cut, tdiv_eq, TimeUnit.instant]
  cases unit with
  | nanosecond => exact absurd rfl coarse
  | _ =>
      rw [TimeUnit.nanoseconds]
      omega

variable {unit : TimeUnit} {n : Int64} {t : Timestamp}

theorem toValue_eq_timestamp :
    (Cell.timestamp unit n).toValue = .timestamp t ↔
      Timestamp.ofMicroseconds? (microseconds unit n).toInt = some t := by
  rw [toValue, pointInTime]
  split
  · next found =>
      rw [found]
      constructor
      · intro same
        cases same
        rfl
      · intro same
        cases same
        rfl
  · next none =>
      rw [none]
      constructor
      · intro same
        cases same
      · intro same
        cases same

/-- The calendar ends before the numbers of microseconds do. -/
theorem saturate_in_calendar {microseconds : Int} :
    (86400000000 * firstDay ≤ (saturate microseconds).toInt ∧
        (saturate microseconds).toInt < 86400000000 * (lastDay + 1)) ↔
      86400000000 * firstDay ≤ microseconds ∧ microseconds < 86400000000 * (lastDay + 1) := by
  rw [toInt_saturate, firstDay, lastDay]
  omega

theorem toInt_saturate_of_calendar {microseconds : Int}
    (least : 86400000000 * firstDay ≤ microseconds)
    (most : microseconds < 86400000000 * (lastDay + 1)) :
    (saturate microseconds).toInt = microseconds := by
  rw [toInt_saturate]
  rw [firstDay] at least
  rw [lastDay] at most
  omega

theorem instant_of_toValue (given : (Cell.timestamp unit n).toValue = .timestamp t) :
    t.instant = cut (unit.instant n) ∧ t.nanosecond < 1000000000 := by
  rw [toValue_eq_timestamp, microseconds_eq] at given
  obtain ⟨least, most⟩ := saturate_in_calendar.mp (Timestamp.exists_of_microseconds.mp ⟨t, given⟩)
  rw [toInt_saturate_of_calendar least most] at given
  exact Timestamp.instant_of_microseconds given

theorem exists_toValue_iff (unit : TimeUnit) (n : Int64) :
    (∃ t, (Cell.timestamp unit n).toValue = .timestamp t) ↔
      86400000000000 * firstDay ≤ unit.instant n ∧
        unit.instant n < 86400000000000 * (lastDay + 1) := by
  simp only [toValue_eq_timestamp, microseconds_eq]
  rw [Timestamp.exists_of_microseconds, saturate_in_calendar]
  by_cases coarse : unit = .nanosecond
  · -- all nanoseconds are within 300 years of 1970
    cases coarse
    have bounds := toInt_bounds n
    rw [tdiv_eq, TimeUnit.instant, TimeUnit.nanoseconds, firstDay, lastDay]
    omega
  · have whole := cut_instant coarse n
    rw [cut] at whole
    omega

theorem toValue_of_instant {other : TimeUnit} {m : Int64}
    (same : unit.instant n = other.instant m) :
    (Cell.timestamp unit n).toValue = (Cell.timestamp other m).toValue := by
  rw [toValue, toValue, microseconds_eq, microseconds_eq, same]

theorem instant_mono (unit : TimeUnit) {m : Int64} (le : n ≤ m) :
    unit.instant n ≤ unit.instant m := by
  rw [Int64.le_iff_toInt_le] at le
  rw [TimeUnit.instant, TimeUnit.instant]
  cases unit with
  | _ =>
      rw [TimeUnit.nanoseconds]
      omega

/-- A cell that becomes a timestamp becomes that of its instant, cut to microseconds, and it becomes
one exactly if its instant is in the calendar, so never if its microseconds do not fit 64 bits.
Later cells become later timestamps, and cells of one instant in different units become one value.
The dates of timestamps go on from day to day as the proleptic Gregorian calendar does. -/
theorem toValue_keeps_instant :
    (∀ unit n t, (Cell.timestamp unit n).toValue = .timestamp t →
      (t.instant - unit.instant n).natAbs < 1000 ∧
        (unit ≠ .nanosecond → t.instant = unit.instant n) ∧ t.nanosecond < 1000000000) ∧
    (∀ unit n, (∃ t, (Cell.timestamp unit n).toValue = .timestamp t) ↔
      86400000000000 * firstDay ≤ unit.instant n ∧
        unit.instant n < 86400000000000 * (lastDay + 1)) ∧
    (∀ unit n t, unit.instant n < 1000 * Int64.minValue.toInt ∨
      1000 * Int64.maxValue.toInt < unit.instant n →
        (Cell.timestamp unit n).toValue ≠ .timestamp t) ∧
    (∀ unit n m t u, n ≤ m → (Cell.timestamp unit n).toValue = .timestamp t →
      (Cell.timestamp unit m).toValue = .timestamp u → t.instant ≤ u.instant) ∧
    (∀ unit other n m, unit.instant n = other.instant m →
      (Cell.timestamp unit n).toValue = (Cell.timestamp other m).toValue) ∧
    ∀ t : Timestamp, t.date.IsValid ∧ (t.day = 0 → t.date = ⟨1970, 1, 1⟩) ∧
      ∀ u : Timestamp, u.day = t.day + 1 → u.date = t.date.next := by
  refine ⟨?_, exists_toValue_iff, ?_, ?_, ?_, ?_⟩
  · intro unit n t given
    obtain ⟨instant, noLeap⟩ := instant_of_toValue given
    rw [instant]
    exact ⟨natAbs_cut_sub_lt _, fun coarse => cut_instant coarse n, noLeap⟩
  · intro unit n t saturated given
    obtain ⟨least, most⟩ := (exists_toValue_iff unit n).mp ⟨t, given⟩
    rw [Int64.toInt_minValue, Int64.toInt_maxValue] at saturated
    rw [firstDay] at least
    rw [lastDay] at most
    omega
  · intro unit n m t u le first second
    rw [(instant_of_toValue first).1, (instant_of_toValue second).1]
    exact cut_mono (instant_mono unit le)
  · intro unit other n m same
    exact toValue_of_instant same
  · intro t
    refine ⟨Date.isValid_ofDayNumber t.day, ?_, ?_⟩
    · intro first
      rw [Timestamp.date, first, Date.ofDayNumber_zero]
    · intro u later
      rw [Timestamp.date, Timestamp.date, later, Date.ofDayNumber_succ]

/-- Nanoseconds around the start of 1970, two seconds in two units, and more seconds than there are
in the calendar. -/
theorem toValue_keeps_instant_of_cells :
    (∃ t u, (Cell.timestamp .nanosecond (-1500)).toValue = .timestamp t ∧
      (Cell.timestamp .nanosecond 2500).toValue = .timestamp u ∧
      (t.instant - -1500).natAbs < 1000 ∧ t.instant ≤ u.instant ∧
      u.date = ⟨1970, 1, 1⟩ ∧ u.date = t.date.next) ∧
    (∃ t, (Cell.timestamp .second 2).toValue = .timestamp t ∧ t.instant = 2000000000 ∧
      (Cell.timestamp .millisecond 2000).toValue = .timestamp t) ∧
    ∀ t, (Cell.timestamp .second Int64.maxValue).toValue ≠ .timestamp t := by
  obtain ⟨keeps, becomes, saturated, ordered, same, dates⟩ := toValue_keeps_instant
  refine ⟨?_, ?_, ?_⟩
  · have before : (Cell.timestamp .nanosecond (-1500)).toValue = .timestamp
        ⟨-1, 86399, 999999000, by decide, by decide, by decide⟩ := by rfl
    have after : (Cell.timestamp .nanosecond 2500).toValue = .timestamp
        ⟨0, 0, 2000, by decide, by decide, by decide⟩ := by rfl
    exact ⟨_, _, before, after, (keeps _ _ _ before).1, ordered _ _ _ _ _ (by decide) before after,
      (dates _).2.1 rfl, (dates _).2.2 _ rfl⟩
  · obtain ⟨t, given⟩ := (becomes .second 2).mpr (by decide)
    have whole : t.instant = 2000000000 := (keeps _ _ _ given).2.1 (by decide)
    exact ⟨t, given, whole, (same .millisecond .second 2000 2 (by decide)).trans given⟩
  · intro t
    exact saturated .second Int64.maxValue t (.inr (by decide))

end Cell

end DuckDB

end SqlQuery
