import NodeFleet.Cron.Search
import NodeFleet.Text.Quoted
import NodeFleet.Text.Split

/-!
# Schedules

A schedule has five fields: minute, hour, day of the month, month and day of the
week, where Sunday is 0 or 7.  With six or seven fields it starts with seconds
and counts Sunday as 1.  Of a five-field schedule that restricts both day fields,
a day counts when it matches either, so it is held as two timetables.
-/

namespace NodeFleet.Cron

open Calendar Text

/-- Why an expression is not a schedule. -/
inductive ScheduleFault
  | fieldCount (count : Nat)
  | weekdayOutOfRange (day : Nat)
  | steppedSunday
  | notInGrammar
  deriving DecidableEq, Repr

def ScheduleFault.message : ScheduleFault → String
  | .fieldCount count => s!"expected 5 fields, found {count}"
  | .weekdayOutOfRange day => s!"day of week {day} out of range"
  | .steppedSunday => "ranges ending in 7 cannot take a step"
  | .notInGrammar => "Invalid expression: Invalid cron expression."

/-- Why a schedule gives no next time. -/
inductive ScheduleError
  | invalid (expression : String) (fault : ScheduleFault)
  | neverFires (expression : String)
  deriving DecidableEq, Repr

def ScheduleError.message : ScheduleError → String
  | .invalid expression fault => s!"invalid schedule {quoted expression}: {fault.message}"
  | .neverFires expression => s!"schedule {quoted expression} has no future occurrence"

/-! ## Weekdays -/

/-- Takes a day of the week from the count that starts with Sunday as 0 to the
one that starts with 1; what is not a small number passes through. -/
def shiftWeekday (token : List Char) : Except ScheduleFault (List Char) :=
  match readWhole .octet token with
  | .error _ => .ok token
  | .ok day =>
      if day ≤ 6 then .ok (toString (day + 1)).toList
      else if day = 7 then .ok ['1']
      else .error (.weekdayOutOfRange day.toNat)

/-- Shifts a range of weekdays, or a single one, that may carry a step. -/
def shiftRange (range : List Char) (stepped : Bool) : Except ScheduleFault (List Char) :=
  match splitFirst? '-' range with
  | some (first, last) =>
      if last = ['7'] then
        if ¬ stepped ∧ first ≠ ['7'] then do
          let first ← shiftWeekday first
          return if first = ['1'] then "1-7".toList else first ++ "-7,1".toList
        else .error .steppedSunday
      else do
        let first ← shiftWeekday first
        let last ← shiftWeekday last
        return first ++ '-' :: last
  | none => if range = ['*'] ∨ range = ['?'] then .ok range else shiftWeekday range

def shiftItem (item : List Char) : Except ScheduleFault (List Char) :=
  match splitFirst? '/' item with
  | none => shiftRange item false
  | some (range, step) => (shiftRange range true).map (· ++ '/' :: step)

/-- Shifts a weekday field; a range that ends with Sunday as 7 is wrapped to the
front of the week. -/
def shiftWeekdayField (field : List Char) : Except ScheduleFault (List Char) :=
  ((splitAt ',' field).mapM shiftItem).map (joinWith [','])

/-! ## Schedules -/

/-- Timetables of which any may give the next time. -/
structure Schedule where
  timetables : List Timetable
  deriving DecidableEq, Repr

namespace Schedule

/-- Whether a day field leaves out days. -/
def restrictsDay (field : List Char) : Bool := !(field.head? = some '*' || field = ['?'])

def line (fields : List (List Char)) : List Char := joinWith [' '] fields

/-- The lines of a timetable with seconds for the fields of an expression. -/
def lines (fields : List (List Char)) : Except ScheduleFault (List (List Char)) :=
  match fields with
  | [minute, hour, day, month, weekday] => do
      let weekday ← shiftWeekdayField weekday
      if restrictsDay day && restrictsDay weekday then
        return [line [['0'], minute, hour, day, month, ['*']],
          line [['0'], minute, hour, ['*'], month, weekday]]
      else return [line [['0'], minute, hour, day, month, weekday]]
  | [_, _, _, _, _, _] => .ok [line fields]
  | [_, _, _, _, _, _, _] => .ok [line fields]
  | _ => .error (.fieldCount fields.length)

def readLine (line : List Char) : Except ScheduleFault Timetable :=
  match Timetable.read? line with
  | some table => .ok table
  | none => .error .notInGrammar

def read (expression : String) : Except ScheduleFault Schedule := do
  let lines ← lines (words expression.toList)
  return ⟨← lines.mapM readLine⟩

def parse (expression : String) : Except ScheduleError Schedule :=
  (read expression).mapError (.invalid expression)

def earlier (left right : Option Instant) : Option Instant :=
  match left, right with
  | some first, some second => some (if first ≤ second then first else second)
  | some first, none => some first
  | none, second => second

def next? (schedule : Schedule) (reference : Instant) : Option Instant :=
  (schedule.timetables.map (·.next? reference)).foldl earlier none

/-- Up to `count` times of the schedule, each the next one after the one
before. -/
def upcoming (schedule : Schedule) : Nat → Instant → List Instant
  | 0, _ => []
  | count + 1, reference =>
      match schedule.next? reference with
      | none => []
      | some time => time :: schedule.upcoming count time

/-- The time that is left until the first occurrence after a reference, and zero
once it has passed. -/
def untilNext (schedule : Schedule) (expression : String) (reference now : Instant) :
    Except ScheduleError Duration :=
  match schedule.next? reference with
  | none => .error (.neverFires expression)
  | some time => .ok (now.durationUntil time)

end Schedule

end NodeFleet.Cron
