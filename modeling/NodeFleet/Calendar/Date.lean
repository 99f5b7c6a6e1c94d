/-!
# Civil dates

Dates of the proleptic Gregorian calendar and their day numbers, counted from
1970-01-01.
-/

namespace NodeFleet.Calendar

/-- A date; months and days count from one. -/
structure Date where
  year : Int
  month : Nat
  day : Nat
  deriving DecidableEq, Repr

def isLeapYear (year : Int) : Bool :=
  year % 4 = 0 && (year % 100 ≠ 0 || year % 400 = 0)

def monthLength (year : Int) (month : Nat) : Nat :=
  if month = 2 then (if isLeapYear year then 29 else 28)
  else if month = 4 ∨ month = 6 ∨ month = 9 ∨ month = 11 then 30
  else 31

/-- The days from 0001-01-01 to the first of January of a year. -/
def daysBeforeYear (year : Int) : Int :=
  let complete := year - 1
  365 * complete + complete / 4 - complete / 100 + complete / 400

/-- The days of a year that lie before a month. -/
def daysBeforeMonth (year : Int) (month : Nat) : Nat :=
  ((List.range' 1 (month - 1)).map (monthLength year)).foldl (· + ·) 0

/-- The days from 0001-01-01 to 1970-01-01. -/
def daysBeforeEpoch : Int := 719162

namespace Date

def isValid (date : Date) : Bool :=
  1 ≤ date.month && date.month ≤ 12 && 1 ≤ date.day
    && date.day ≤ monthLength date.year date.month

/-- The days from 1970-01-01 to the date. -/
def dayNumber (date : Date) : Int :=
  daysBeforeYear date.year + daysBeforeMonth date.year date.month + (date.day - 1 : Int)
    - daysBeforeEpoch

/-- The month and day of the day that follows `days` others in the months from
`month` on. -/
def placeInYear (year : Int) (month : Nat) : Nat → Nat → Nat × Nat
  | 0, days => (month, days + 1)
  | months + 1, days =>
      if days < monthLength year month then (month, days + 1)
      else placeInYear year (month + 1) months (days - monthLength year month)

/-- The year of the day that follows `days` others from 0001-01-01 on. -/
def yearOf (days : Int) : Int :=
  let guess := days * 400 / 146097 + 1
  if days < daysBeforeYear guess then guess - 1
  else if daysBeforeYear (guess + 1) ≤ days then guess + 1
  else guess

def ofDayNumber (number : Int) : Date :=
  let days := number + daysBeforeEpoch
  let year := yearOf days
  let place := placeInYear year 1 11 (days - daysBeforeYear year).toNat
  ⟨year, place.1, place.2⟩

/-- The day of the week, from Sunday as 1 to Saturday as 7. -/
def weekday (date : Date) : Nat := ((date.dayNumber + 4) % 7).toNat + 1

end Date

end NodeFleet.Calendar
