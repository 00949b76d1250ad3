-- SUMMARY: Moments as texts: the calendar date and the time of day in UTC.
import MemoryGraph.Record.Basic

/-!
# Moments

A moment is counted in nanoseconds from the start of 1970. Its text names the
day and the time in UTC, with as many places behind the second as it needs. The
calendar is counted in periods of 400 years that start in March, so that the
leap day is the last of its year.
-/
namespace MemoryGraph

/-- A day of the calendar. -/
structure CalendarDay where
  year : Nat
  month : Nat
  day : Nat
  deriving DecidableEq, Repr

/-- The day that lies a number of days behind the first of 1970. -/
def CalendarDay.ofDays (days : Nat) : CalendarDay :=
  let sinceMarch := days + 719468
  let inPeriod := sinceMarch % 146097
  let yearInPeriod := (inPeriod - inPeriod / 1460 + inPeriod / 36524 - inPeriod / 146096) / 365
  let inYear := inPeriod - (365 * yearInPeriod + yearInPeriod / 4 - yearInPeriod / 100)
  let monthFromMarch := (5 * inYear + 2) / 153
  let month := if monthFromMarch < 10 then monthFromMarch + 3 else monthFromMarch - 9
  { year := sinceMarch / 146097 * 400 + yearInPeriod + (if month ≤ 2 then 1 else 0)
    month
    day := inYear - (153 * monthFromMarch + 2) / 5 + 1 }

/-- A number with zeros in front, at least `width` digits. -/
def padded (width n : Nat) : String :=
  let digits := Nat.toDigits 10 n
  String.ofList (List.replicate (width - digits.length) '0' ++ digits)

/-- The places behind the second, without zeros at their end. -/
def secondPlaces (nanoseconds : Nat) : String :=
  let digits := ((padded 9 nanoseconds).toList.reverse.dropWhile (· = '0')).reverse
  if digits.isEmpty then "" else "." ++ String.ofList digits

/-- How many nanoseconds a second has. -/
def nanosecondsInSecond : Nat := 1000000000

/-- The text of the moment that lies a number of nanoseconds behind the start of 1970. -/
def Timestamp.ofNanoseconds (nanoseconds : Nat) : Timestamp :=
  let seconds := nanoseconds / nanosecondsInSecond
  let date := CalendarDay.ofDays (seconds / 86400)
  s!"{padded 4 date.year}-{padded 2 date.month}-{padded 2 date.day}T"
    ++ s!"{padded 2 (seconds / 3600 % 24)}:{padded 2 (seconds / 60 % 60)}:"
    ++ s!"{padded 2 (seconds % 60)}{secondPlaces (nanoseconds % nanosecondsInSecond)}Z"

example : CalendarDay.ofDays 0 = ⟨1970, 1, 1⟩ := by decide
example : CalendarDay.ofDays 11016 = ⟨2000, 2, 29⟩ := by decide
example : CalendarDay.ofDays 19723 = ⟨2024, 1, 1⟩ := by decide

end MemoryGraph
