import NodeFleet.Calendar.Rfc3339

/-!
# Timestamps of objects

Objects carry whole seconds of UTC in RFC 3339.  A fraction is dropped when a
timestamp is read, so the timestamp is never after the instant that was written.
-/

namespace NodeFleet.Calendar

/-- A whole second of UTC, counted from the start of 1970. -/
structure Timestamp where
  seconds : Int
  deriving DecidableEq, Repr

namespace Timestamp

/-- The bounds of timestamps: with any offset up to 26 hours the local year has
at most four digits. -/
def bounds : Text.Bounds := ⟨-377705023201, 253402207200⟩

def read (text : String) : Option Timestamp := do
  let instant ← Rfc3339.read text
  if bounds.admits instant.seconds then return ⟨instant.seconds⟩ else none

def text (timestamp : Timestamp) : String :=
  Rfc3339.printSeconds (Instant.ofSeconds timestamp.seconds)

/-- The instant of a timestamp, read off its text. -/
def instant? (timestamp : Timestamp) : Option Instant := Rfc3339.read timestamp.text

/-- The timestamp of the second that holds an instant, if its text can be
read. -/
def ofInstant? (instant : Instant) : Option Timestamp := read (Rfc3339.printSeconds instant)

end Timestamp

end NodeFleet.Calendar
