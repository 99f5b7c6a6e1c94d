import NodeFleet.Cron.Field
import NodeFleet.Text.Whole

/-!
# The grammar of schedules

A schedule is read by ordered choice: the first alternative that matches is
taken, and a matched field is checked against its column at once.  Blanks may
stand around numbers, names and fields, but fields need none between them.  The
last column, the years, may be missing.
-/

namespace NodeFleet.Cron

/-- The numbers of the seven columns. -/
structure Timetable where
  seconds : List Nat
  minutes : List Nat
  hours : List Nat
  days : List Nat
  months : List Nat
  weekdays : List Nat
  years : List Nat
  deriving DecidableEq, Repr

/-- A blank of the grammar. -/
def isGap (character : Char) : Bool :=
  character = ' ' || character = '\t' || character = '\r' || character = '\n'

def skipGaps (text : List Char) : List Char := text.dropWhile isGap

def readMark? (mark : Char) : List Char → Option (List Char)
  | [] => none
  | character :: rest => if character = mark then some rest else none

/-- Reads a number of at most 32 bits, with the blanks around it. -/
def readNumber? (text : List Char) : Option (Nat × List Char) :=
  let start := skipGaps text
  let digits := start.takeWhile Char.isDigit
  if digits.isEmpty then none
  else
    match Text.readWhole .word32 digits with
    | .error _ => none
    | .ok value => some (value.toNat, skipGaps (start.dropWhile Char.isDigit))

/-- Reads a name, with the blanks around it. -/
def readName? (text : List Char) : Option (List Char × List Char) :=
  let start := skipGaps text
  let letters := start.takeWhile Char.isAlpha
  if letters.isEmpty then none else some (letters, skipGaps (start.dropWhile Char.isAlpha))

def readRange? (text : List Char) : Option (Span × List Char) := do
  let (first, rest) ← readNumber? text
  let (last, rest) ← readNumber? (← readMark? '-' rest)
  return (.range first last, rest)

def readSingle? (text : List Char) : Option (Span × List Char) := do
  let (value, rest) ← readNumber? text
  return (.single value, rest)

def readNamedRange? (text : List Char) : Option (Span × List Char) := do
  let (first, rest) ← readName? text
  let (last, rest) ← readName? (← readMark? '-' rest)
  return (.namedRange first last, rest)

def readAll? (questionMark : Bool) (text : List Char) : Option (Span × List Char) :=
  match text with
  | '?' :: rest => if questionMark then some (.all, rest) else none
  | '*' :: rest => some (.all, rest)
  | _ => none

def readSpan? (questionMark : Bool) (text : List Char) : Option (Span × List Char) :=
  (readAll? questionMark text).or
    ((readRange? text).or ((readSingle? text).or (readNamedRange? text)))

def readStepped? (questionMark : Bool) (text : List Char) : Option (Item × List Char) := do
  let (span, rest) ← readSpan? questionMark text
  let (step, rest) ← readNumber? (← readMark? '/' rest)
  return (.stepped span step, rest)

def readPlain? (questionMark : Bool) (text : List Char) : Option (Item × List Char) := do
  let (span, rest) ← readSpan? questionMark text
  return (.plain span, rest)

def readNamed? (text : List Char) : Option (Item × List Char) := do
  let (name, rest) ← readName? text
  return (.named name, rest)

def readItem? (questionMark : Bool) (text : List Char) : Option (Item × List Char) :=
  (readStepped? questionMark text).or ((readPlain? questionMark text).or (readNamed? text))

/-- Reads the items that follow commas, at most `count` of them; a comma that
no item follows is left. -/
def readMoreItems (questionMark : Bool) : Nat → List Char → List Item × List Char
  | 0, text => ([], text)
  | count + 1, text =>
      match (readMark? ',' text).bind (readItem? questionMark) with
      | none => ([], text)
      | some (item, rest) =>
          let (items, rest) := readMoreItems questionMark count rest
          (item :: items, rest)

/-- Reads the items of a field of a column, with the blanks around it. -/
def readItems? (column : Column) (text : List Char) : Option (List Item × List Char) := do
  let (item, rest) ← readItem? column.takesQuestionMark (skipGaps text)
  let (items, rest) := readMoreItems column.takesQuestionMark rest.length rest
  return (item :: items, skipGaps rest)

def readField? (column : Column) (text : List Char) : Option (List Nat × List Char) := do
  let (items, rest) ← readItems? column text
  return (← column.fieldNumbers? items, rest)

/-- Reads the years, and all of them where no field can be read. -/
def readYears (text : List Char) : List Nat × List Char :=
  (readField? .year text).getD (Column.year.all, text)

def Timetable.read? (text : List Char) : Option Timetable := do
  let (seconds, rest) ← readField? .second text
  let (minutes, rest) ← readField? .minute rest
  let (hours, rest) ← readField? .hour rest
  let (days, rest) ← readField? .day rest
  let (months, rest) ← readField? .month rest
  let (weekdays, rest) ← readField? .weekday rest
  let (years, rest) := readYears rest
  if rest.isEmpty then
    return { seconds, minutes, hours, days, months, weekdays, years }
  else none

end NodeFleet.Cron
