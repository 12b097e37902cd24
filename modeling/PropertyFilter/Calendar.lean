/-!
The Gregorian calendar, extended without end in both directions. Days are numbered from the first
of January 1970; the date of a day is found from the days before its year.
-/

set_option autoImplicit false

namespace PropertyFilter

/-- A day of the calendar by year, month and day of the month. -/
structure Date where
  year : Int
  month : Nat
  day : Nat
  deriving DecidableEq

namespace Calendar

def isLeap (year : Int) : Bool :=
  year % 4 == 0 && (year % 100 != 0 || year % 400 == 0)

/-- The lengths of the months, January first. -/
def monthLengths (leap : Bool) : List Nat :=
  [31, if leap then 29 else 28, 31, 30, 31, 30, 31, 31, 30, 31, 30, 31]

/-- The days from the first of January of the year 0 to that of another year. -/
def daysBeforeYear (year : Int) : Int :=
  365 * year + (year + 3) / 4 - (year + 99) / 100 + (year + 399) / 400

/-- The day of 1970 in the count from the year 0. -/
def epochDay : Int := 719528

/-- The year in which a day lies that is counted from the year 0. The estimate by the mean length
of a year is at most one off. -/
def yearOfDay (day : Int) : Int :=
  let estimate := day * 400 / 146097
  if day < daysBeforeYear estimate then estimate - 1
  else if daysBeforeYear (estimate + 1) ≤ day then estimate + 1
  else estimate

/-- The days of a year before a month of it. -/
def daysBeforeMonth (leap : Bool) (month : Nat) : Nat :=
  ((monthLengths leap).take (month - 1)).foldl (fun total days ↦ total + days) 0

/-- The month, counted on from `month`, and the day in it that a number of days past the start of
that month falls on. -/
def monthAndDay (month : Nat) (days : Nat) : List Nat → Nat × Nat
  | [] => (month, days + 1)
  | length :: lengths =>
    if days < length then (month, days + 1) else monthAndDay (month + 1) (days - length) lengths

end Calendar

namespace Date

open Calendar

/-- Whether the date stands in the calendar. -/
def isValid (d : Date) : Bool :=
  1 ≤ d.month && d.month ≤ 12 && 1 ≤ d.day &&
    d.day ≤ (monthLengths (isLeap d.year)).getD (d.month - 1) 0

/-- The day that a date names, counted from 1970. -/
def toDayNumber (d : Date) : Int :=
  daysBeforeYear d.year + daysBeforeMonth (isLeap d.year) d.month + (d.day - 1) - epochDay

/-- The date of a day counted from 1970. -/
def ofDayNumber (day : Int) : Date :=
  let count := day + epochDay
  let year := yearOfDay count
  let (month, dayOfMonth) :=
    monthAndDay 1 (count - daysBeforeYear year).toNat (monthLengths (isLeap year))
  ⟨year, month, dayOfMonth⟩

end Date

end PropertyFilter
