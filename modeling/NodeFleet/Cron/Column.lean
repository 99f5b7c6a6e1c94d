/-!
# The columns of a schedule

A schedule has seven columns.  Each holds numbers between two bounds; months
and weekdays also have names.
-/

namespace NodeFleet.Cron

inductive Column
  | second
  | minute
  | hour
  | day
  | month
  | weekday
  | year
  deriving DecidableEq, Repr

namespace Column

/-- The least number of a column; weekdays count from Sunday. -/
def low : Column → Nat
  | .second | .minute | .hour => 0
  | .day | .month | .weekday => 1
  | .year => 1970

def high : Column → Nat
  | .second | .minute => 59
  | .hour => 23
  | .day => 31
  | .month => 12
  | .weekday => 7
  | .year => 2100

def all (column : Column) : List Nat := List.range' column.low (column.high + 1 - column.low)

def admits (column : Column) (value : Nat) : Bool := column.low ≤ value && value ≤ column.high

def takesQuestionMark : Column → Bool
  | .day | .weekday => true
  | _ => false

def monthNames : List (String × Nat) :=
  [("jan", 1), ("january", 1), ("feb", 2), ("february", 2), ("mar", 3), ("march", 3),
    ("apr", 4), ("april", 4), ("may", 5), ("jun", 6), ("june", 6), ("jul", 7), ("july", 7),
    ("aug", 8), ("august", 8), ("sep", 9), ("september", 9), ("oct", 10), ("october", 10),
    ("nov", 11), ("november", 11), ("dec", 12), ("december", 12)]

def weekdayNames : List (String × Nat) :=
  [("sun", 1), ("sunday", 1), ("mon", 2), ("monday", 2), ("tue", 3), ("tues", 3),
    ("tuesday", 3), ("wed", 4), ("wednesday", 4), ("thu", 5), ("thurs", 5), ("thursday", 5),
    ("fri", 6), ("friday", 6), ("sat", 7), ("saturday", 7)]

def names : Column → List (String × Nat)
  | .month => monthNames
  | .weekday => weekdayNames
  | _ => []

/-- The number that a name in any case stands for. -/
def numberOf? (column : Column) (name : List Char) : Option Nat :=
  column.names.lookup (String.ofList (name.map Char.toLower))

end Column

end NodeFleet.Cron
