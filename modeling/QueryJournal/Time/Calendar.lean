/-!
# The calendar

Dates of the proleptic Gregorian calendar, counted in days from 1970-01-01.
The calendar repeats every 400 years, an era; inside an era years are counted
from March, so that the leap day is the last day of its year.
-/

namespace QueryJournal.Calendar

/-- A date. -/
structure Date where
  /-- The year, astronomically numbered. -/
  year : Int
  /-- The month, from 1. -/
  month : Nat
  /-- The day of the month, from 1. -/
  day : Nat
  deriving DecidableEq

/-- Whether a year has a leap day. -/
def isLeap (year : Int) : Bool :=
  year % 4 == 0 && (year % 100 != 0 || year % 400 == 0)

/-- The days of a month. -/
def monthLength (year : Int) (month : Nat) : Nat :=
  if month = 2 then (if isLeap year then 29 else 28)
  else if month ∈ [4, 6, 9, 11] then 30
  else 31

/-- Whether the calendar has a date. -/
def Date.isReal (d : Date) : Bool :=
  1 ≤ d.month && d.month ≤ 12 && 1 ≤ d.day && d.day ≤ monthLength d.year d.month

/-- Days in 400 years. -/
def eraDays : Int :=
  146097

/-- Days from the first of March of year zero to 1970-01-01. -/
def epochShift : Int :=
  719468

/-- Days of a year that starts in March before its month with index `m`. -/
def daysBeforeMonth (m : Int) : Int :=
  (153 * m + 2) / 5

/-- Days from 1970-01-01 to a date. -/
def Date.toDays (d : Date) : Int :=
  let early := d.month ≤ 2
  let y : Int := if early then d.year - 1 else d.year
  let m : Int := if early then d.month + 9 else (d.month : Int) - 3
  let yearOfEra := y % 400
  let dayOfYear := daysBeforeMonth m + d.day - 1
  let dayOfEra := yearOfEra * 365 + yearOfEra / 4 - yearOfEra / 100 + dayOfYear
  y / 400 * eraDays + dayOfEra - epochShift

/-- The date that lies a number of days after 1970-01-01. -/
def Date.ofDays (days : Int) : Date :=
  let z := days + epochShift
  let dayOfEra := z % eraDays
  let yearOfEra :=
    (dayOfEra - dayOfEra / 1460 + dayOfEra / 36524 - dayOfEra / 146096) / 365
  let dayOfYear :=
    dayOfEra - (365 * yearOfEra + yearOfEra / 4 - yearOfEra / 100)
  let m := (5 * dayOfYear + 2) / 153
  let month := if m < 10 then m + 3 else m - 9
  let year := yearOfEra + z / eraDays * 400 + (if month ≤ 2 then 1 else 0)
  ⟨year, month.toNat, (dayOfYear - daysBeforeMonth m + 1).toNat⟩

end QueryJournal.Calendar
