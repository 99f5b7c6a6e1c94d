import NodeFleet.Json.Basic
import NodeFleet.Text.Whole

/-!
# Records in JSON

Readers take a JSON value to a value of a domain type, or refuse it.  A record
reads its members by key under one of two policies.  The strict one knows
required members, optional members (absent or `null`) and members with a default
(absent, but never `null`).  The lenient one takes `null` for absence and gives
an absent required member the empty value of its type.
-/

namespace NodeFleet.Json

variable {α : Type}

/-! ## Readers -/

def readText : Json → Option String := text?

def readBool : Json → Option Bool
  | .bool value => some value
  | _ => none

def readInteger (bounds : Text.Bounds) : Json → Option Int
  | .integer value => if bounds.admits value then some value else none
  | _ => none

def readList (reader : Json → Option α) : Json → Option (List α)
  | .array items => items.mapM reader
  | _ => none

def readMap (reader : Json → Option α) : Json → Option (KeyMap α)
  | .object members => do
      let entries ← members.mapM fun entry => do return (entry.1, ← reader entry.2)
      return KeyMap.ofList entries
  | _ => none

def readNullable (reader : Json → Option α) : Json → Option (Option α)
  | .null => some none
  | json => (reader json).map some

def readAny : Json → Option Json := some

/-! ## Strict records -/

/-- The record in an object, or in an array that lists the members of the given
keys in their order; the first `needed` members must be there. -/
def record? (keys : List String) (needed : Nat) : Json → Option Json
  | .object members => some (.object members)
  | .array items =>
      if needed ≤ items.length ∧ items.length ≤ keys.length then some (ofMembers (keys.zip items))
      else none
  | _ => none

def required (json : Json) (key : String) (reader : Json → Option α) : Option α :=
  (json.get? key).bind reader

def optional (json : Json) (key : String) (reader : Json → Option α) : Option (Option α) :=
  match json.get? key with
  | none => some none
  | some value => readNullable reader value

/-- A member with a value for its absence, which may not be `null`. -/
def defaulted (json : Json) (key : String) (default : α) (reader : Json → Option α) : Option α :=
  match json.get? key with
  | none => some default
  | some value => reader value

/-! ## Lenient records -/

/-- A member that counts as `default` when it is absent or `null`. -/
def lenient (json : Json) (key : String) (default : α) (reader : Json → Option α) : Option α :=
  (json.optional key reader).map (·.getD default)

/-! ## Written records -/

/-- The object with the members that are there. -/
def ofFields (fields : List (Option (String × Json))) : Json := ofMembers (fields.filterMap id)

def always (key : String) (value : Json) : Option (String × Json) := some (key, value)

def whenSome (key : String) (write : α → Json) (value : Option α) : Option (String × Json) :=
  value.map fun present => (key, write present)

def ofList (write : α → Json) (items : List α) : Json := .array (items.map write)

def ofMap (write : α → Json) (map : KeyMap α) : Json :=
  .object (map.entries.map fun entry => (entry.1, write entry.2))

def whenFilled (key : String) (write : α → Json) (items : List α) : Option (String × Json) :=
  if items.isEmpty then none else some (key, ofList write items)

def whenPopulated (key : String) (write : α → Json) (map : KeyMap α) : Option (String × Json) :=
  if map.isEmpty then none else some (key, ofMap write map)

end NodeFleet.Json
