import NodeFleet.Fleet.Desired
import NodeFleet.Fleet.OrdinalDiff
import NodeFleet.Rollout
import NodeFleet.Store.Pass

/-!
# Convergence of one ordinal set

A pass over an ordinal set first scales: it creates the missing members and
deletes the surplus ones.  Only when there are neither does it roll out changed
members, from the lowest ordinal up and no more than the rollout budget allows.
-/

namespace NodeFleet.Fleet

open Calendar Resource Store

inductive MemberKind
  | pod
  | volumeClaim
  deriving DecidableEq, Repr

/-- How a changed member is brought up to date. -/
inductive UpdateStrategy
  | recreateOnDelete
  | inPlacePatch
  deriving DecidableEq, Repr

namespace MemberKind

/-- The kind of objects that the members are. -/
@[reducible]
def kind : MemberKind → Kind
  | .pod => .pod
  | .volumeClaim => .volumeClaim

/-- Pods are deleted and come back; deleting a volume would lose its data. -/
def strategy : MemberKind → UpdateStrategy
  | .pod => .recreateOnDelete
  | .volumeClaim => .inPlacePatch

def isAvailable : (kind : MemberKind) → Int → Instant → kind.kind.Object → Bool
  | .pod, minReadySeconds, now, member => Pod.isAvailable minReadySeconds now member
  | .volumeClaim, _, _, member => VolumeClaim.isAvailable member

def needsUpdate : (kind : MemberKind) → kind.kind.Object → kind.kind.Object → Bool
  | .pod, current, desired => Pod.digest? current != Pod.digest? desired
  | .volumeClaim, current, desired =>
      VolumeClaim.requestedStorage? current != VolumeClaim.requestedStorage? desired

/-- The merge patch that brings a live member up to date in place. -/
def updatePatch : (kind : MemberKind) → kind.kind.Object → Json
  | .pod, desired =>
      .ofMembers [("metadata", .ofMembers [
        ("annotations", writeTextMap (Pod.metadata desired).annotationMap)])]
  | .volumeClaim, desired =>
      let storage := Json.ofOption .text (VolumeClaim.requestedStorage? desired)
      .ofMembers [("spec", .ofMembers [("resources", .ofMembers [
        ("requests", .ofMembers [("storage", storage)])])])]

def withOwner (owner : OwnerReference) : (kind : MemberKind) → kind.kind.Object → kind.kind.Object
  | .pod, member =>
      let member : Pod := member
      { member with metadata := { member.metadata with ownerReferences := some [owner] } }
  | .volumeClaim, member =>
      let member : VolumeClaim := member
      { member with metadata := { member.metadata with ownerReferences := some [owner] } }

end MemberKind

/-- What a pass over an ordinal set found: whether it has to be looked at again,
and how many members were available before it. -/
structure SetOutcome where
  settled : Bool
  available : Nat
  deriving DecidableEq, Repr

structure OrdinalSet where
  space : String
  selector : String
  owner : OwnerReference
  maxUnavailable : Option IntOrText
  minReadySeconds : Int

namespace OrdinalSet

variable {σ : Type}

/-- The changes that lead to the desired members; a set that has none is
broken. -/
def changes (kind : MemberKind) (current desired : List kind.kind.Object) :
    Pass σ (Changes kind.kind.Object) :=
  match diff kind.kind.metadata (fun live wanted => !kind.needsUpdate live wanted) current
      desired with
  | .ok changes => return changes
  | .error fault => throw (.broken fault.message)

def scale (set : OrdinalSet) (kind : MemberKind) (changes : Changes kind.kind.Object) :
    Pass σ Unit := do
  changes.creates.forM fun object => do
    let _ ← Pass.attempt (Exchange.create kind.kind set.space (kind.withOwner set.owner object))
  changes.deletes.forM fun object =>
    Pass.attempt (Exchange.delete kind.kind set.space (kind.kind.metadata object).shownName)

def update (set : OrdinalSet) (kind : MemberKind) (desired : kind.kind.Object) : Pass σ Unit := do
  let name := (kind.kind.metadata desired).shownName
  match kind.strategy with
  | .recreateOnDelete => Pass.attempt (Exchange.delete kind.kind set.space name)
  | .inPlacePatch =>
      let _ ← Pass.attempt (Exchange.patch kind.kind set.space name (kind.updatePatch desired))

def budget (set : OrdinalSet) (desired available : Nat) : Pass σ Nat :=
  match rolloutBudget set.maxUnavailable desired available with
  | .ok budget => return budget.toNat
  | .error fault => throw (.broken fault.message)

def reconcile (set : OrdinalSet) (kind : MemberKind) (desired : List kind.kind.Object)
    (now : Instant) : Pass σ SetOutcome := do
  let current ← Pass.attempt (Exchange.list kind.kind set.space set.selector)
  let available := current.countP (kind.isAvailable set.minReadySeconds now)
  let changes ← changes kind current desired
  if changes.isScaling then
    set.scale kind changes
    return ⟨false, available⟩
  if desired.isEmpty then
    return ⟨true, available⟩
  if changes.updates.isEmpty then
    return ⟨desired.length ≤ available, available⟩
  let budget ← set.budget desired.length available
  (changes.updates.take budget).forM (set.update kind)
  return ⟨false, available⟩

end OrdinalSet

end NodeFleet.Fleet
