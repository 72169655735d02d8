/-
# The Gregorian calendar

The calendar extended without end in both directions, by day numbers counted from 1 January 1970.

* `CivilDate` — a year, a month and a day. `CivilDate.isValid` — whether the calendar has the date.
* `CivilDate.dayNumber`, `CivilDate.ofDayNumber` — dates and day numbers.

Years are reckoned from March, which puts the leap day at the end of the year and gives the months
before it lengths that repeat every five months.
-/
namespace Quarry.Date

/-- A date of the calendar. -/
structure CivilDate where
  year : Int
  /-- From 1 to 12. -/
  month : Nat
  /-- From 1 to 31. -/
  day : Nat
  deriving DecidableEq, Repr

/-! ## Lengths -/

/-- Whether a year has a leap day. -/
def isLeapYear (year : Int) : Bool := year % 4 = 0 && (year % 100 ≠ 0 || year % 400 = 0)

/-- The number of days of a month. -/
def monthLength (year : Int) (month : Nat) : Nat :=
  if month = 2 then (if isLeapYear year then 29 else 28)
  else if month = 4 ∨ month = 6 ∨ month = 9 ∨ month = 11 then 30
  else 31

/-- Whether the calendar has the date. -/
def CivilDate.isValid (d : CivilDate) : Bool :=
  1 ≤ d.month && d.month ≤ 12 && 1 ≤ d.day && d.day ≤ monthLength d.year d.month

/-! ## Day numbers -/

/-- The number of 1 March of the year 0. -/
def yearZero : Int := -719468

/-- The days from 1 March of the year 0 to 1 March of a year. -/
def daysToYear (year : Int) : Int := 365 * year + year / 4 - year / 100 + year / 400

/-- The days from 1 March to the first day of a month, counted from March as month 0. -/
def daysToMonth (month : Nat) : Nat := (153 * month + 2) / 5

/-- The number of a date. A day beyond the end of its month counts on into the next one. -/
def CivilDate.dayNumber (d : CivilDate) : Int :=
  let (year, month) := if d.month ≤ 2 then (d.year - 1, d.month + 9) else (d.year, d.month - 3)
  yearZero + daysToYear year + daysToMonth month + (d.day - 1)

/-- The days of four hundred years. -/
def daysOfCycle : Int := 146097

/-- The date with a number. -/
def CivilDate.ofDayNumber (n : Int) : CivilDate :=
  let days := n - yearZero
  let cycle := days / daysOfCycle
  let inCycle := (days % daysOfCycle).toNat
  let yearInCycle := (inCycle - inCycle / 1460 + inCycle / 36524 - inCycle / 146096) / 365
  let inYear := inCycle - (365 * yearInCycle + yearInCycle / 4 - yearInCycle / 100)
  let month := (5 * inYear + 2) / 153
  let day := inYear - daysToMonth month + 1
  let year := cycle * 400 + yearInCycle
  if month < 10 then ⟨year, month + 3, day⟩ else ⟨year + 1, month - 9, day⟩

end Quarry.Date
