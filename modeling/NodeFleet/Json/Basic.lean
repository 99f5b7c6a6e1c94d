import NodeFleet.KeyMap

/-!
# JSON values

An object is a list of members in increasing key order.  A number is either an
integer of at most 64 bits or a decimal, which is kept as it was written and is
not an integer even when its value is whole.
-/

namespace NodeFleet

inductive Json
  | null
  | bool (value : Bool)
  | integer (value : Int)
  | decimal (written : String)
  | text (value : String)
  | array (items : List Json)
  | object (members : List (String × Json))
  deriving Repr, Inhabited

namespace Json

/-- The object with the given members, in key order; of two members with one
key the later counts. -/
def ofMembers (members : List (String × Json)) : Json :=
  .object (members.foldl (fun ordered entry => KeyMap.insertEntry entry.1 entry.2 ordered) [])

def members? : Json → Option (List (String × Json))
  | .object members => some members
  | _ => none

/-- The members of an object, and none of any other value. -/
def membersOrNone (json : Json) : List (String × Json) := json.members?.getD []

/-- The value of a member of an object. -/
def get? (json : Json) (key : String) : Option Json :=
  KeyMap.valueIn? key json.membersOrNone

/-- The value reached by following keys from object to object. -/
def at? (json : Json) : List String → Option Json
  | [] => some json
  | key :: keys => (json.get? key).bind (·.at? keys)

def text? : Json → Option String
  | .text value => some value
  | _ => none

/-- Sets a member of an object; any other value is first replaced by the empty
object. -/
def set (json : Json) (key : String) (value : Json) : Json :=
  .object (KeyMap.insertEntry key value json.membersOrNone)

def isNull : Json → Bool
  | .null => true
  | _ => false

def ofOption {α : Type} (encode : α → Json) : Option α → Json
  | none => .null
  | some value => encode value

end Json

end NodeFleet
