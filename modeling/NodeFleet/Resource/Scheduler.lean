import NodeFleet.Resource.FullNode
import NodeFleet.Resource.VolumeSnapshot

/-!
# Snapshot schedulers

A scheduler takes snapshots of the volumes of a full node by a schedule.  Its
status holds the phase of the snapshot in progress, the pod it has taken down,
and the last snapshots.
-/

namespace NodeFleet.Resource

open Calendar Json

/-- The full node that a scheduler belongs to. -/
structure FullNodeRef where
  name : String
  namespaceName : Option String
  deriving DecidableEq, Repr

structure SchedulerSpec where
  fullNodeRef : FullNodeRef
  schedule : String
  snapshotClassName : Option String
  limit : Option Int
  minAvailable : Option Int
  candidateOrdinal : Option Int
  suspend : Option Bool
  deriving DecidableEq, Repr

/-- The phases of a snapshot, and two in which none is taken. -/
inductive SnapshotPhase
  | waitingForNext
  | findingCandidate
  | deletingPod
  | waitingForPodDeletion
  | creatingSnapshot
  | waitingForSnapshotCreation
  | restoringPod
  | suspended
  | missingDefinition
  deriving DecidableEq, Repr

/-- The pod and volume of which a snapshot is taken. -/
structure Candidate where
  podName : String
  claimName : String
  podLabels : TextMap
  deriving DecidableEq, Repr

/-- What the status keeps of a snapshot. -/
structure SnapshotRecord where
  name : String
  startedAt : Timestamp
  status : Option SnapshotStatus
  deriving DecidableEq, Repr

/-- The status of a scheduler; the history has the last completed snapshot
first. -/
structure SchedulerStatus where
  observedGeneration : Option Int
  phase : SnapshotPhase
  statusMessage : Option String
  candidate : Option Candidate
  lastSnapshot : Option SnapshotRecord
  history : List SnapshotRecord
  deriving DecidableEq, Repr

structure Scheduler where
  metadata : ObjectMeta
  spec : SchedulerSpec
  status : Option SchedulerStatus
  deriving Repr

/-! ## Reading and writing -/

namespace FullNodeRef

def read (json : Json) : Option FullNodeRef := do
  let record ← json.record? ["name", "namespace"] 1
  return {
    name := ← record.required "name" readText
    namespaceName := ← record.optional "namespace" readText }

def write (reference : FullNodeRef) : Json :=
  ofFields [
    always "name" (.text reference.name), whenSome "namespace" .text reference.namespaceName]

end FullNodeRef

namespace SchedulerSpec

def read (json : Json) : Option SchedulerSpec := do
  let record ← json.record?
    ["fullNodeRef", "schedule", "volumeSnapshotClassName", "limit", "minAvailable",
      "candidateOrdinal", "suspend"] 2
  return {
    fullNodeRef := ← record.required "fullNodeRef" FullNodeRef.read
    schedule := ← record.required "schedule" readText
    snapshotClassName := ← record.optional "volumeSnapshotClassName" readText
    limit := ← record.optional "limit" (readInteger .int32)
    minAvailable := ← record.optional "minAvailable" (readInteger .int32)
    candidateOrdinal := ← record.optional "candidateOrdinal" (readInteger .int32)
    suspend := ← record.optional "suspend" readBool }

def write (spec : SchedulerSpec) : Json :=
  ofFields [
    always "fullNodeRef" spec.fullNodeRef.write,
    always "schedule" (.text spec.schedule),
    whenSome "volumeSnapshotClassName" .text spec.snapshotClassName,
    whenSome "limit" .integer spec.limit,
    whenSome "minAvailable" .integer spec.minAvailable,
    whenSome "candidateOrdinal" .integer spec.candidateOrdinal,
    whenSome "suspend" .bool spec.suspend]

end SchedulerSpec

namespace SnapshotPhase

def all : List SnapshotPhase :=
  [.waitingForNext, .findingCandidate, .deletingPod, .waitingForPodDeletion, .creatingSnapshot,
    .waitingForSnapshotCreation, .restoringPod, .suspended, .missingDefinition]

def name : SnapshotPhase → String
  | .waitingForNext => "WaitingForNext"
  | .findingCandidate => "FindingCandidate"
  | .deletingPod => "DeletingPod"
  | .waitingForPodDeletion => "WaitingForPodDeletion"
  | .creatingSnapshot => "CreatingSnapshot"
  | .waitingForSnapshotCreation => "WaitingForSnapshotCreation"
  | .restoringPod => "RestoringPod"
  | .suspended => "Suspended"
  | .missingDefinition => "MissingCRDs"

def read : Json → Option SnapshotPhase := readWord all name

def write (phase : SnapshotPhase) : Json := .text phase.name

end SnapshotPhase

namespace Candidate

def read (json : Json) : Option Candidate := do
  let record ← json.record? ["podName", "pvcName", "podLabels"] 2
  return {
    podName := ← record.required "podName" readText
    claimName := ← record.required "pvcName" readText
    podLabels := ← record.defaulted "podLabels" .empty readTextMap }

def write (candidate : Candidate) : Json :=
  ofFields [
    always "podName" (.text candidate.podName),
    always "pvcName" (.text candidate.claimName),
    whenPopulated "podLabels" .text candidate.podLabels]

end Candidate

namespace SnapshotRecord

def read (json : Json) : Option SnapshotRecord := do
  let record ← json.record? ["name", "startedAt", "status"] 2
  return {
    name := ← record.required "name" readText
    startedAt := ← record.required "startedAt" readTime
    status := ← record.optional "status" SnapshotStatus.read }

def write (entry : SnapshotRecord) : Json :=
  ofFields [
    always "name" (.text entry.name),
    always "startedAt" (writeTime entry.startedAt),
    whenSome "status" SnapshotStatus.write entry.status]

/-- Whether the snapshot was ready when it was last looked at. -/
def isReady (entry : SnapshotRecord) : Bool := entry.status.any (·.isReady)

end SnapshotRecord

namespace SchedulerStatus

def initial : SchedulerStatus :=
  { observedGeneration := none, phase := .waitingForNext, statusMessage := none,
    candidate := none, lastSnapshot := none, history := [] }

def read (json : Json) : Option SchedulerStatus := do
  let record ← json.record?
    ["observedGeneration", "phase", "statusMessage", "candidate", "lastSnapshot", "history"] 0
  return {
    observedGeneration := ← record.optional "observedGeneration" (readInteger .int64)
    phase := ← record.defaulted "phase" .waitingForNext SnapshotPhase.read
    statusMessage := ← record.optional "statusMessage" readText
    candidate := ← record.optional "candidate" Candidate.read
    lastSnapshot := ← record.optional "lastSnapshot" SnapshotRecord.read
    history := ← record.defaulted "history" [] (readList SnapshotRecord.read) }

def write (status : SchedulerStatus) : Json :=
  ofFields [
    whenSome "observedGeneration" .integer status.observedGeneration,
    always "phase" status.phase.write,
    whenSome "statusMessage" .text status.statusMessage,
    whenSome "candidate" Candidate.write status.candidate,
    whenSome "lastSnapshot" SnapshotRecord.write status.lastSnapshot,
    whenFilled "history" SnapshotRecord.write status.history]

def historyLimit : Nat := 5

/-- Puts a completed snapshot at the front of the history. -/
def pushHistory (status : SchedulerStatus) (entry : SnapshotRecord) : SchedulerStatus :=
  let others := status.history.filter fun other => other.name != entry.name
  { status with history := (entry :: others).take historyLimit }

end SchedulerStatus

namespace Scheduler

def read (json : Json) : Option Scheduler := do
  let record ← json.record? ["metadata", "spec", "status"] 3
  return {
    metadata := ← record.required "metadata" ObjectMeta.read
    spec := ← record.required "spec" SchedulerSpec.read
    status := ← record.optional "status" SchedulerStatus.read }

def write (scheduler : Scheduler) : Json :=
  ofFields [
    always "apiVersion" (.text FullNode.apiVersion),
    always "kind" (.text "ScheduledVolumeSnapshot"),
    always "metadata" scheduler.metadata.write,
    always "spec" scheduler.spec.write,
    whenSome "status" SchedulerStatus.write scheduler.status]

/-! ## Derived values -/

def name (scheduler : Scheduler) : String := scheduler.metadata.shownName

def statusKey (scheduler : Scheduler) : String :=
  scheduler.metadata.namespaceName.getD "" ++ "." ++ scheduler.name

/-- The namespace of the full node, which by default is the scheduler's own. -/
def fullNodeNamespace? (scheduler : Scheduler) : Option String :=
  match scheduler.spec.fullNodeRef.namespaceName with
  | some name => if name = "" then scheduler.metadata.namespaceName else some name
  | none => scheduler.metadata.namespaceName

def limit (scheduler : Scheduler) : Nat := (scheduler.spec.limit.getD 3).toNat

/-- The number of pods in sync that must be there before one is taken down. -/
def minAvailable (scheduler : Scheduler) : Nat := (scheduler.spec.minAvailable.getD 2).toNat

def isSuspended (scheduler : Scheduler) : Bool := scheduler.spec.suspend.getD false

def snapshotLabels (scheduler : Scheduler) : TextMap := .ofList [(sourceKey, scheduler.name)]

def snapshotSelector (scheduler : Scheduler) : String := labelSelector scheduler.snapshotLabels

end Scheduler

end NodeFleet.Resource
