import NodeFleet.Resource.Meta

/-!
# Volume snapshots

Snapshots of volumes, of which the cluster reports when they are ready to use.
-/

namespace NodeFleet.Resource

open Calendar Json

structure SnapshotSource where
  claimName : Option String
  contentName : Option String
  deriving DecidableEq, Repr

structure SnapshotSpec where
  source : SnapshotSource
  className : Option String
  deriving DecidableEq, Repr

structure SnapshotError where
  message : Option String
  time : Option Timestamp
  deriving DecidableEq, Repr

structure SnapshotStatus where
  contentName : Option String
  creationTime : Option Timestamp
  readyToUse : Option Bool
  restoreSize : Option String
  error : Option SnapshotError
  deriving DecidableEq, Repr

structure VolumeSnapshot where
  metadata : ObjectMeta
  spec : SnapshotSpec
  status : Option SnapshotStatus
  deriving Repr

namespace SnapshotSource

def read (json : Json) : Option SnapshotSource := do
  let record ← json.record? ["persistentVolumeClaimName", "volumeSnapshotContentName"] 0
  return {
    claimName := ← record.optional "persistentVolumeClaimName" readText
    contentName := ← record.optional "volumeSnapshotContentName" readText }

def write (source : SnapshotSource) : Json :=
  ofFields [
    whenSome "persistentVolumeClaimName" .text source.claimName,
    whenSome "volumeSnapshotContentName" .text source.contentName]

end SnapshotSource

namespace SnapshotSpec

def read (json : Json) : Option SnapshotSpec := do
  let record ← json.record? ["source", "volumeSnapshotClassName"] 1
  return {
    source := ← record.required "source" SnapshotSource.read
    className := ← record.optional "volumeSnapshotClassName" readText }

def write (spec : SnapshotSpec) : Json :=
  ofFields [
    always "source" spec.source.write,
    whenSome "volumeSnapshotClassName" .text spec.className]

end SnapshotSpec

namespace SnapshotError

def read (json : Json) : Option SnapshotError := do
  let record ← json.record? ["message", "time"] 0
  return {
    message := ← record.optional "message" readText
    time := ← record.optional "time" readTime }

def write (error : SnapshotError) : Json :=
  ofFields [whenSome "message" .text error.message, whenSome "time" writeTime error.time]

end SnapshotError

namespace SnapshotStatus

def empty : SnapshotStatus := ⟨none, none, none, none, none⟩

def read (json : Json) : Option SnapshotStatus := do
  let record ← json.record?
    ["boundVolumeSnapshotContentName", "creationTime", "readyToUse", "restoreSize", "error"] 0
  return {
    contentName := ← record.optional "boundVolumeSnapshotContentName" readText
    creationTime := ← record.optional "creationTime" readTime
    readyToUse := ← record.optional "readyToUse" readBool
    restoreSize := ← record.optional "restoreSize" readText
    error := ← record.optional "error" SnapshotError.read }

def write (status : SnapshotStatus) : Json :=
  ofFields [
    whenSome "boundVolumeSnapshotContentName" .text status.contentName,
    whenSome "creationTime" writeTime status.creationTime,
    whenSome "readyToUse" .bool status.readyToUse,
    whenSome "restoreSize" .text status.restoreSize,
    whenSome "error" SnapshotError.write status.error]

def isReady (status : SnapshotStatus) : Bool := status.readyToUse.getD false

end SnapshotStatus

namespace VolumeSnapshot

def apiVersion : String := "snapshot.storage.k8s.io/v1"

/-- The name of the definition without which no snapshots can be taken. -/
def definitionName : String := "volumesnapshots.snapshot.storage.k8s.io"

def read (json : Json) : Option VolumeSnapshot := do
  let record ← json.record? ["metadata", "spec", "status"] 3
  return {
    metadata := ← record.required "metadata" ObjectMeta.read
    spec := ← record.required "spec" SnapshotSpec.read
    status := ← record.optional "status" SnapshotStatus.read }

def write (snapshot : VolumeSnapshot) : Json :=
  ofFields [
    always "apiVersion" (.text apiVersion),
    always "kind" (.text "VolumeSnapshot"),
    always "metadata" snapshot.metadata.write,
    always "spec" snapshot.spec.write,
    whenSome "status" SnapshotStatus.write snapshot.status]

def isReady (snapshot : VolumeSnapshot) : Bool := snapshot.status.any (·.isReady)

def createdAt? (snapshot : VolumeSnapshot) : Option Instant := do
  (← (← snapshot.status).creationTime).instant?

end VolumeSnapshot

end NodeFleet.Resource
