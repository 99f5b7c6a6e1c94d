import NodeFleet.Calendar.Instant
import NodeFleet.Text.Whole

/-!
# RFC 3339 timestamps

Reading takes a date, a time and an offset from UTC.  Beyond RFC 3339 it takes
the shortenings of ISO 8601: the basic forms without separators, and times and
offsets without their smaller units.  A leap second counts as the second before
it.  Printing is always in UTC.
-/

namespace NodeFleet.Calendar.Rfc3339

/-- Reads a number of exactly `count` digits. -/
def readDigits (count : Nat) (text : List Char) : Option (Nat × List Char) :=
  let digits := text.take count
  if digits.length = count ∧ digits.all Char.isDigit then
    some (digits.foldl (fun value digit => value * 10 + (digit.toNat - '0'.toNat)) 0,
      text.drop count)
  else none

/-- Reads one character of a set. -/
def readOneOf (admitted : List Char) : List Char → Option (List Char)
  | [] => none
  | character :: rest => if admitted.contains character then some rest else none

/-- Reads a date, with hyphens everywhere or nowhere. -/
def readDate (text : List Char) : Option (Date × List Char) := do
  let (year, rest) ← readDigits 4 text
  let extended := rest.head? = some '-'
  let separator (text : List Char) := if extended then readOneOf ['-'] text else some text
  let (month, rest) ← readDigits 2 (← separator rest)
  let (day, rest) ← readDigits 2 (← separator rest)
  let date : Date := ⟨year, month, day⟩
  if date.isValid then return (date, rest) else none

/-- Reads one more unit of a time, if one follows. -/
def readUnit? (extended : Bool) (text : List Char) : Option (Option (Nat × List Char)) :=
  if extended then
    match text with
    | ':' :: rest => (readDigits 2 rest).map some
    | _ => some none
  else some (readDigits 2 text)

/-- Reads a fraction of a second in nanoseconds, if one follows. -/
def readFraction (text : List Char) : Option (Nat × List Char) :=
  match text with
  | mark :: rest =>
      if mark = '.' ∨ mark = ',' then
        let digits := rest.takeWhile Char.isDigit
        if 1 ≤ digits.length ∧ digits.length ≤ 9 then do
          let (value, _) ← readDigits digits.length digits
          return (value * Nat.pow 10 (9 - digits.length), rest.drop digits.length)
        else none
      else some (0, text)
  | [] => some (0, [])

structure Clock where
  hour : Nat
  minute : Nat
  second : Nat
  nanos : Nat

/-- Reads a time of day or an offset, with colons everywhere or nowhere. -/
def readClock (text : List Char) : Option (Clock × List Char) := do
  let (hour, rest) ← readDigits 2 text
  let extended := rest.head? = some ':'
  match ← readUnit? extended rest with
  | none => return (⟨hour, 0, 0, 0⟩, rest)
  | some (minute, rest) =>
      match ← readUnit? extended rest with
      | none => return (⟨hour, minute, 0, 0⟩, rest)
      | some (second, rest) =>
          let (nanos, rest) ← readFraction rest
          return (⟨hour, minute, second, nanos⟩, rest)

/-- Reads an offset from UTC, in seconds. -/
def readOffset (text : List Char) : Option (Int × List Char) :=
  match text with
  | 'Z' :: rest => some (0, rest)
  | 'z' :: rest => some (0, rest)
  | sign :: rest =>
      if sign = '+' ∨ sign = '-' then do
        let (clock, rest) ← readClock rest
        if clock.hour ≤ 25 ∧ clock.minute ≤ 59 ∧ clock.second ≤ 59 then
          let seconds : Int := (clock.hour * 3600 + clock.minute * 60 + clock.second : Nat)
          return (if sign = '-' then -seconds else seconds, rest)
        else none
      else none
  | [] => none

def read (text : String) : Option Instant := do
  let (date, rest) ← readDate text.toList
  let (clock, rest) ← readClock (← readOneOf ['T', 't', ' '] rest)
  let (offset, rest) ← readOffset rest
  if rest.isEmpty ∧ clock.hour ≤ 23 ∧ clock.minute ≤ 59 ∧ clock.second ≤ 60 then
    let time : CivilTime := ⟨date, clock.hour, clock.minute, min clock.second 59⟩
    let nanos := if clock.second = 60 then 0 else clock.nanos
    return ⟨(time.seconds - offset) * 1000000000 + nanos⟩
  else none

/-- A year in four digits, and with a sign where four do not do. -/
def printYear (year : Int) : String :=
  if 0 ≤ year ∧ year ≤ 9999 then Text.padded 4 year.toNat
  else (if year < 0 then "-" else "+") ++ Text.padded 4 year.natAbs

def printDate (date : Date) : String :=
  s!"{printYear date.year}-{Text.padded 2 date.month}-{Text.padded 2 date.day}"

def printClock (time : CivilTime) : String :=
  s!"{Text.padded 2 time.hour}:{Text.padded 2 time.minute}:{Text.padded 2 time.second}"

/-- A fraction of a second in as few of 0, 3, 6 and 9 digits as are exact. -/
def printFraction (nanos : Nat) : String :=
  if nanos = 0 then ""
  else if nanos % 1000000 = 0 then "." ++ Text.padded 3 (nanos / 1000000)
  else if nanos % 1000 = 0 then "." ++ Text.padded 6 (nanos / 1000)
  else "." ++ Text.padded 9 nanos

/-- The timestamp of the second that holds an instant. -/
def printSeconds (instant : Instant) : String :=
  let time := instant.civil
  s!"{printDate time.date}T{printClock time}Z"

/-- The timestamp of an instant with its fraction. -/
def print (instant : Instant) : String :=
  let time := instant.civil
  s!"{printDate time.date}T{printClock time}{printFraction instant.fraction}Z"

/-- The instant with a blank before its time and the name of its time zone. -/
def printSpaced (instant : Instant) : String :=
  let time := instant.civil
  s!"{printDate time.date} {printClock time}{printFraction instant.fraction} UTC"

end NodeFleet.Calendar.Rfc3339
