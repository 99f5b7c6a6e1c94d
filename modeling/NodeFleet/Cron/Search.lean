import NodeFleet.Calendar.Instant
import NodeFleet.Cron.Grammar

/-!
# The next time of a timetable

The search runs through the years, months, days, hours, minutes and seconds of
a timetable in increasing order.  It starts one second after the reference: the
first time a unit is entered, its numbers are bounded below by that start, and
afterwards by the least number of the unit.  Once a unit has moved on, all
smaller units begin at their least number again.
-/

namespace NodeFleet.Cron

open Calendar

/-- The units whose numbers are still bounded by the start of the search. -/
structure Bounded where
  month : Bool
  day : Bool
  hour : Bool
  minute : Bool
  second : Bool
  deriving DecidableEq, Repr

namespace Bounded

def everything : Bounded := ⟨true, true, true, true, true⟩

/-- No unit below the day is bounded by the start. -/
def releaseSecond (bounded : Bounded) : Bounded := { bounded with second := false }

def releaseMinute (bounded : Bounded) : Bounded :=
  { bounded.releaseSecond with minute := false }

def releaseHour (bounded : Bounded) : Bounded := { bounded.releaseMinute with hour := false }

def releaseDay (bounded : Bounded) : Bounded := { bounded.releaseHour with day := false }

def releaseMonth (bounded : Bounded) : Bounded := { bounded.releaseDay with month := false }

end Bounded

inductive Found
  | time (time : CivilTime)
  | wrongWeekday
  | nothing
  deriving DecidableEq, Repr

/-- Looks for a second in a minute; any second of a day that is not a day of the
timetable ends the search in that day. -/
def searchSeconds (table : Timetable) (start : CivilTime) (date : Date) (hour minute : Nat)
    (bounded : Bounded) : Found × Bounded :=
  let least := if bounded.second then start.second else 0
  let bounded := { bounded with second := false }
  match table.seconds.find? (least ≤ ·) with
  | none => (.nothing, bounded)
  | some second =>
      if table.weekdays.contains date.weekday then (.time ⟨date, hour, minute, second⟩, bounded)
      else (.wrongWeekday, bounded)

def searchMinutes (table : Timetable) (start : CivilTime) (date : Date) (hour : Nat) :
    List Nat → Bounded → Found × Bounded
  | [], bounded => (.nothing, bounded)
  | minute :: minutes, bounded =>
      match searchSeconds table start date hour minute bounded with
      | (.nothing, bounded) => searchMinutes table start date hour minutes bounded.releaseMinute
      | found => found

def searchHours (table : Timetable) (start : CivilTime) (date : Date) :
    List Nat → Bounded → Found × Bounded
  | [], bounded => (.nothing, bounded)
  | hour :: hours, bounded =>
      let least := if bounded.minute then start.minute else 0
      let entered := { bounded with minute := false }
      let entered := if table.minutes.contains least then entered else entered.releaseMinute
      match searchMinutes table start date hour (table.minutes.filter (least ≤ ·)) entered with
      | (.nothing, bounded) => searchHours table start date hours bounded.releaseHour
      | found => found

/-- Looks through days of a month. -/
def searchDays (table : Timetable) (start : CivilTime) (year : Int) (month : Nat) :
    List Nat → Bounded → Option CivilTime × Bounded
  | [], bounded => (none, bounded)
  | day :: days, bounded =>
      let least := if bounded.hour then start.hour else 0
      let entered := { bounded with hour := false }
      let entered := if table.hours.contains least then entered else entered.releaseHour
      match searchHours table start ⟨year, month, day⟩ (table.hours.filter (least ≤ ·)) entered with
      | (.time time, bounded) => (some time, bounded)
      | (.wrongWeekday, bounded) => searchDays table start year month days bounded
      | (.nothing, bounded) => searchDays table start year month days bounded.releaseDay

/-- Looks through months of a year; in a month that is too short for the start,
the days begin with its last. -/
def searchMonths (table : Timetable) (start : CivilTime) (year : Int) :
    List Nat → Bounded → Option CivilTime × Bounded
  | [], bounded => (none, bounded)
  | month :: months, bounded =>
      let least := if bounded.day then start.date.day else 1
      let entered := { bounded with day := false }
      let entered := if table.days.contains least then entered else entered.releaseDay
      let last := monthLength year month
      let days := table.days.filter fun day => min least last ≤ day && day ≤ last
      match searchDays table start year month days entered with
      | (none, bounded) => searchMonths table start year months bounded.releaseMonth
      | found => found

def searchYears (table : Timetable) (start : CivilTime) :
    List Nat → Bounded → Option CivilTime
  | [], _ => none
  | year :: years, bounded =>
      let least := if bounded.month then start.date.month else 1
      let entered := { bounded with month := false }
      let entered := if table.months.contains least then entered else entered.releaseMonth
      match searchMonths table start year (table.months.filter (least ≤ ·)) entered with
      | (some time, _) => some time
      | (none, bounded) => searchYears table start years bounded

def Timetable.next? (table : Timetable) (reference : Instant) : Option Instant :=
  let start := (reference.addSeconds 1).civil
  let years := table.years.filter fun (year : Nat) => start.date.year ≤ year
  (searchYears table start years .everything).map CivilTime.instant

end NodeFleet.Cron
