import NodeFleet.Calendar.Timestamp
import NodeFleet.Json.Record

/-!
# Shapes of cluster objects

Objects of the cluster hold many fields that the operator only passes on.  A
shape says what such a field holds; `normalize` checks a value against it and
gives its canonical form, in which unknown members are gone, `null` members are
absent, required members are present and times are whole seconds of UTC.
-/

namespace NodeFleet.Resource

open Calendar

/-- What a field holds.  In a record each member has a key, says whether it is
required, and has a shape. -/
inductive Shape
  | text
  | bool
  | int32
  | int64
  | intOrText
  | time
  | preciseTime
  | any
  | list (item : Shape)
  | map (value : Shape)
  | record (members : List (String × Bool × Shape))
  deriving Inhabited

namespace Shape

def preciseText (instant : Instant) : String :=
  let time := instant.civil
  s!"{Rfc3339.printDate time.date}T{Rfc3339.printClock time}."
    ++ Text.padded 6 (instant.fraction / 1000) ++ "Z"

mutual

/-- The value of a required member that is absent. -/
def absent : Shape → Json
  | .text | .time | .preciseTime => .text ""
  | .bool => .bool false
  | .int32 | .int64 | .intOrText => .integer 0
  | .any => .null
  | .list _ => .array []
  | .map _ => .object []
  | .record members => .ofMembers (absentMembers members)

def absentMembers : List (String × Bool × Shape) → List (String × Json)
  | [] => []
  | (key, needed, shape) :: members =>
      if needed then (key, shape.absent) :: absentMembers members else absentMembers members

end

mutual

/-- The canonical form of a value of a shape. -/
def normalize : Shape → Json → Option Json
  | .text, json => json.readText.map .text
  | .bool, json => json.readBool.map .bool
  | .int32, json => (json.readInteger .int32).map .integer
  | .int64, json => (json.readInteger .int64).map .integer
  | .intOrText, .text value => some (.text value)
  | .intOrText, json => (json.readInteger .int32).map .integer
  | .time, json => do
      let timestamp ← Timestamp.read (← json.readText)
      return .text timestamp.text
  | .preciseTime, json => do
      let instant ← Rfc3339.read (← json.readText)
      return .text (preciseText instant)
  | .any, json => some json
  | .list item, json => (json.readList item.normalize).map .array
  | .map value, json => (json.readMap value.normalize).map (.ofMap id)
  | .record members, .object given => (normalizeMembers members (.object given)).map .ofMembers
  | .record _, _ => none

def normalizeMembers :
    List (String × Bool × Shape) → Json → Option (List (String × Json))
  | [], _ => some []
  | (key, needed, shape) :: members, json => do
      let rest ← normalizeMembers members json
      match json.get? key with
      | none | some .null => return if needed then (key, shape.absent) :: rest else rest
      | some value => return (key, ← shape.normalize value) :: rest

end

end Shape

def needs (key : String) (shape : Shape) : String × Bool × Shape := (key, true, shape)

def may (key : String) (shape : Shape) : String × Bool × Shape := (key, false, shape)

end NodeFleet.Resource
