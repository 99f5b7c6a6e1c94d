import NodeFleet.Resource.Scheduler
import NodeFleet.Resource.VolumeClaim

/-!
# Kinds of objects

The kinds of cluster objects that the operator works with, and what each is
called.
-/

namespace NodeFleet.Store

open Resource

inductive Kind
  | pod
  | volumeClaim
  | fullNode
  | scheduler
  | volumeSnapshot
  deriving DecidableEq, Repr

namespace Kind

@[reducible]
def Object : Kind → Type
  | .pod => Pod
  | .volumeClaim => VolumeClaim
  | .fullNode => FullNode
  | .scheduler => Scheduler
  | .volumeSnapshot => VolumeSnapshot

def all : List Kind := [.pod, .volumeClaim, .fullNode, .scheduler, .volumeSnapshot]

def name : Kind → String
  | .pod => "Pod"
  | .volumeClaim => "PersistentVolumeClaim"
  | .fullNode => "FullNode"
  | .scheduler => "ScheduledVolumeSnapshot"
  | .volumeSnapshot => "VolumeSnapshot"

def ofName? (name : String) : Option Kind := all.find? fun kind => kind.name == name

/-- The name of the collection that holds the objects of a kind. -/
def plural : Kind → String
  | .pod => "pods"
  | .volumeClaim => "persistentvolumeclaims"
  | .fullNode => "fullnodes"
  | .scheduler => "scheduledvolumesnapshots"
  | .volumeSnapshot => "volumesnapshots"

/-- The group of a kind; core kinds have the empty one. -/
def group : Kind → String
  | .pod | .volumeClaim => ""
  | .fullNode | .scheduler => groupName
  | .volumeSnapshot => "snapshot.storage.k8s.io"

def definitionName (kind : Kind) : String := s!"{kind.plural}.{kind.group}"

/-- The collection of a kind as messages call it. -/
def resourceName (kind : Kind) : String :=
  if kind.group = "" then kind.plural else kind.definitionName

def read : (kind : Kind) → Json → Option kind.Object
  | .pod => Pod.read
  | .volumeClaim => VolumeClaim.read
  | .fullNode => FullNode.read
  | .scheduler => Scheduler.read
  | .volumeSnapshot => VolumeSnapshot.read

def write : (kind : Kind) → kind.Object → Json
  | .pod => Pod.write
  | .volumeClaim => VolumeClaim.write
  | .fullNode => FullNode.write
  | .scheduler => Scheduler.write
  | .volumeSnapshot => VolumeSnapshot.write

def metadata : (kind : Kind) → kind.Object → ObjectMeta
  | .pod => Pod.metadata
  | .volumeClaim => VolumeClaim.metadata
  | .fullNode => FullNode.metadata
  | .scheduler => Scheduler.metadata
  | .volumeSnapshot => VolumeSnapshot.metadata

end Kind

end NodeFleet.Store
