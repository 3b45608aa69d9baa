/-!
# The civil calendar

Days are counted from 1970-01-01 in the proleptic Gregorian calendar. `Date.ofDays` finds the date
of a day by taking whole cycles of 400, 100, 4 and 1 years off a count that starts on a first of
March, so that the leap day is the last day of each cycle; `Date.toDays` counts back.
-/

namespace QuotaWatch.Time

/-- A date of the civil calendar. Year 0 is the year before year 1. -/
structure Date where
  year : Int
  month : Nat
  day : Nat
  deriving DecidableEq, Repr

/-- Whether a year has a leap day. -/
def isLeapYear (year : Int) : Bool :=
  year % 4 = 0 && (year % 100 ≠ 0 || year % 400 = 0)

/-- Length of a month. -/
def daysInMonth (year : Int) (month : Nat) : Nat :=
  if month = 2 then (if isLeapYear year then 29 else 28)
  else if month = 4 || month = 6 || month = 9 || month = 11 then 30
  else 31

/-- Days from 0000-03-01 to 1970-01-01. -/
def epochOffset : Int := 719468

/-- Days in 400 years. -/
def daysInEra : Nat := 146097

/-- Whole years, and the day in the year that begins on the first of March, for a day of a
400-year cycle. -/
def splitEra (day : Nat) : Nat × Nat :=
  let century := min (day / 36524) 3
  let day := day - 36524 * century
  let leap := day / 1461
  let day := day - 1461 * leap
  let year := min (day / 365) 3
  (100 * century + 4 * leap + year, day - 365 * year)

/-- Days before the first of a month, in a year that begins with March as month 0. -/
def daysBeforeMonth (index : Nat) : Nat := (153 * index + 2) / 5

/-- The month, counted from March, that holds a day of such a year. -/
def monthIndex (dayOfYear : Nat) : Nat := (5 * dayOfYear + 2) / 153

/-- The date of a day. -/
def Date.ofDays (days : Int) : Date :=
  let shifted := days + epochOffset
  let era := shifted / (daysInEra : Int)
  let (years, dayOfYear) := splitEra (shifted % (daysInEra : Int)).toNat
  let index := monthIndex dayOfYear
  let day := dayOfYear - daysBeforeMonth index + 1
  let month := if index < 10 then index + 3 else index - 9
  let year := 400 * era + years + (if index < 10 then 0 else 1)
  ⟨year, month, day⟩

/-- The day of a date. -/
def Date.toDays (date : Date) : Int :=
  let year := if date.month < 3 then date.year - 1 else date.year
  let index := if date.month < 3 then date.month + 9 else date.month - 3
  let yearOfEra := (year % 400).toNat
  let dayOfEra :=
    365 * yearOfEra + yearOfEra / 4 - yearOfEra / 100 + daysBeforeMonth index + (date.day - 1)
  (daysInEra : Int) * (year / 400) + dayOfEra - epochOffset

/-- First and last year of the supported range. -/
def firstYear : Int := -262143

@[inherit_doc firstYear]
def lastYear : Int := 262142

/-- Whether a date exists and lies in the supported range of years. -/
def Date.isValid (date : Date) : Bool :=
  firstYear ≤ date.year && date.year ≤ lastYear && 1 ≤ date.month && date.month ≤ 12
    && 1 ≤ date.day && date.day ≤ daysInMonth date.year date.month

end QuotaWatch.Time
