import NodeFleet.Calendar.Date

/-!
# Instants and durations

An instant counts nanoseconds from the start of 1970 in UTC.  A duration is
never negative.
-/

namespace NodeFleet.Calendar

/-- A point in time, in nanoseconds from the start of 1970 in UTC. -/
structure Instant where
  nanos : Int
  deriving DecidableEq, Repr

/-- A length of time, in nanoseconds. -/
structure Duration where
  nanos : Nat
  deriving DecidableEq, Repr

/-- A date and a time of day, in UTC. -/
structure CivilTime where
  date : Date
  hour : Nat
  minute : Nat
  second : Nat
  deriving DecidableEq, Repr

namespace Duration

def zero : Duration := ⟨0⟩

def ofSeconds (seconds : Nat) : Duration := ⟨seconds * 1000000000⟩

def seconds (duration : Duration) : Nat := duration.nanos / 1000000000

/-- The nanoseconds beyond the whole seconds. -/
def fraction (duration : Duration) : Nat := duration.nanos % 1000000000

end Duration

namespace Instant

/-- The instant at which a whole second starts. -/
def ofSeconds (seconds : Int) : Instant := ⟨seconds * 1000000000⟩

def seconds (instant : Instant) : Int := instant.nanos / 1000000000

/-- The nanoseconds since that second. -/
def fraction (instant : Instant) : Nat := (instant.nanos % 1000000000).toNat

/-- The time from one instant to a later one, and zero to an earlier one. -/
def durationUntil (start finish : Instant) : Duration := ⟨(finish.nanos - start.nanos).toNat⟩

def addSeconds (instant : Instant) (seconds : Int) : Instant :=
  ⟨instant.nanos + seconds * 1000000000⟩

def civil (instant : Instant) : CivilTime :=
  let ofDay := (instant.seconds % 86400).toNat
  ⟨Date.ofDayNumber (instant.seconds / 86400), ofDay / 3600, ofDay / 60 % 60, ofDay % 60⟩

/-- The earliest instant that the operator knows, the start of the year
262144 before the common era. -/
def earliest : Instant := ofSeconds ((Date.mk (-262143) 1 1).dayNumber * 86400)

instance : LE Instant := ⟨fun left right => left.nanos ≤ right.nanos⟩

instance : LT Instant := ⟨fun left right => left.nanos < right.nanos⟩

instance (left right : Instant) : Decidable (left ≤ right) :=
  inferInstanceAs (Decidable (left.nanos ≤ right.nanos))

instance (left right : Instant) : Decidable (left < right) :=
  inferInstanceAs (Decidable (left.nanos < right.nanos))

end Instant

def CivilTime.seconds (time : CivilTime) : Int :=
  time.date.dayNumber * 86400 + (time.hour * 3600 + time.minute * 60 + time.second : Nat)

def CivilTime.instant (time : CivilTime) : Instant := Instant.ofSeconds time.seconds

end NodeFleet.Calendar
