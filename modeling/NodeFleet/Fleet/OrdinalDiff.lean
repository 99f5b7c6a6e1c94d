import NodeFleet.Resource.Meta
import NodeFleet.Text.Quoted

/-!
# Differences between ordinal sets

The members of an ordinal set have distinct names and carry their position in an
annotation.  The difference between the live members and the desired ones says
which to create, update and delete, each in the order of their positions.
-/

namespace NodeFleet.Fleet

open Resource Text

/-- Why two lists of objects are not ordinal sets. -/
inductive DiffFault
  | badOrdinal (name ordinal : String) (fault : WholeFault)
  | duplicateName (name side : String)
  deriving DecidableEq, Repr

def DiffFault.message : DiffFault → String
  | .badOrdinal name ordinal fault =>
      s!"resource {name} has invalid {ordinalKey} annotation {quoted ordinal}: {fault.message}"
  | .duplicateName name side => s!"duplicate name {quoted name} in {side} resources"

/-- What it takes to get from the live members to the desired ones. -/
structure Changes (α : Type) where
  creates : List α
  updates : List α
  deletes : List α

namespace Changes

variable {α : Type}

def isEmpty (changes : Changes α) : Bool :=
  changes.creates.isEmpty && changes.updates.isEmpty && changes.deletes.isEmpty

def isScaling (changes : Changes α) : Bool :=
  !changes.creates.isEmpty || !changes.deletes.isEmpty

end Changes

variable {α : Type}

/-- An object with its name and position. -/
structure Placed (α : Type) where
  name : String
  ordinal : Int
  object : α

def place (metadata : α → ObjectMeta) (object : α) : Except DiffFault (Placed α) :=
  let name := (metadata object).shownName
  let ordinal := (metadata object).ordinalText?.getD ""
  match readWhole .int64 ordinal.toList with
  | .ok position => .ok ⟨name, position, object⟩
  | .error fault => .error (.badOrdinal name ordinal fault)

/-- The places of the objects of one side; `taken` holds the names of those
before them. -/
def placeAll (metadata : α → ObjectMeta) (side : String) :
    List String → List α → Except DiffFault (List (Placed α))
  | _, [] => .ok []
  | taken, object :: objects => do
      let placed ← place metadata object
      if taken.contains placed.name then throw (.duplicateName placed.name side)
      return placed :: (← placeAll metadata side (placed.name :: taken) objects)

/-- The objects in the order of their positions; those at one position stay in
their order. -/
def inOrder (placed : List (Placed α)) : List α :=
  (placed.mergeSort fun left right => left.ordinal ≤ right.ordinal).map (·.object)

/-- The changes from placed live members to placed desired ones. -/
def changesBetween (same : α → α → Bool) (current desired : List (Placed α)) : Changes α :=
  let live (name : String) := current.find? (·.name == name)
  let wanted (name : String) := desired.any (·.name == name)
  { creates := inOrder (desired.filter fun member => (live member.name).isNone)
    updates := inOrder (desired.filter fun member =>
      (live member.name).any fun existing => !same existing.object member.object)
    deletes := inOrder (current.filter fun member => !wanted member.name) }

/-- The changes from the live members to the desired ones, where `same` says
whether a live member needs no update. -/
def diff (metadata : α → ObjectMeta) (same : α → α → Bool) (current desired : List α) :
    Except DiffFault (Changes α) := do
  let current ← placeAll metadata "current" [] current
  let desired ← placeAll metadata "desired" [] desired
  return changesBetween same current desired

end NodeFleet.Fleet
