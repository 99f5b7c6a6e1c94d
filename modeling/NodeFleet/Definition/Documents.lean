import NodeFleet.Definition.Schema
import NodeFleet.Store.Kind

/-!
# The operator's definitions

The definitions that have to be installed in a cluster before it takes full
nodes and schedulers.
-/

namespace NodeFleet.Definition

open Definition.Field Resource Store

/-- A column that listings of objects show. -/
structure Column where
  name : String
  type : String
  path : String
  deriving DecidableEq, Repr

structure KindDefinition where
  kind : Kind
  singular : String
  shortName : String
  columns : List Column
  spec : Schema
  status : Schema

/-! ## Full nodes -/

def environmentVariable : Schema :=
  .described "EnvVar represents an environment variable present in a Container."
    (.ofShape CoreShapes.environmentVariable)

def resourceRequirements : Schema :=
  .described "ResourceRequirements describes the compute resource requirements."
    (.ofShape CoreShapes.resources)

def claimTemplate : Schema :=
  .record [
    (required "storage" .text).described "Requested storage, e.g. `500Gi`.",
    nullable "storageClassName" .text,
    optional "accessModes" (.list .text),
    nullable "mountPath" .text,
    (nullable "dataSource" (.ofShape CoreShapes.typedReference)).described
      "Restore new volumes from an existing VolumeSnapshot."]

def rolloutStrategy : Schema :=
  .record [
    (nullable "maxUnavailable" .intOrText).described
      ("Absolute number or percentage (`\"25%\"`) of replicas that may be\n"
        ++ "unavailable during an update. Defaults to 1.")]

def fullNodeSpec : Schema :=
  .record [
    (required "replicas" .int32).ruled "self >= 0" "replicas must not be negative",
    required "image" .text,
    nullable "imagePullPolicy" .text,
    optional "args" (.list .text),
    optional "env" (.list environmentVariable),
    nullable "resources" resourceRequirements,
    nullable "serviceAccountName" .text,
    required "volumeClaimTemplate" claimTemplate,
    nullable "rolloutStrategy" rolloutStrategy,
    (nullable "minReadySeconds" .int32).described
      "Seconds a pod must stay Ready before it counts as available."]

def podSync : Schema :=
  .record [nullable "inSync" .bool, nullable "height" .word64, nullable "error" .text]

def heldPod : Schema := .record [required "podCandidate" .text]

def fullNodeStatus : Schema :=
  .record [
    nullable "observedGeneration" .int64,
    defaulted "phase" NodePhase.progressing.write (.words (NodePhase.all.map NodePhase.name)),
    nullable "statusMessage" .text,
    defaulted "availableReplicas" (.integer 0) .int32,
    (optional "syncInfo" (.map podSync)).described
      "Per-pod sync state keyed by pod name, reported by the chain sync monitor.",
    (optional "scheduledSnapshots" (.map heldPod)).described
      "Pods temporarily removed for a snapshot, keyed by `<namespace>.<scheduler name>`."]

/-! ## Schedulers -/

def fullNodeRef : Schema :=
  .record [
    required "name" .text,
    (nullable "namespace" .text).described
      "Defaults to the namespace of the ScheduledVolumeSnapshot."]

def schedulerSpec : Schema :=
  .record [
    required "fullNodeRef" fullNodeRef,
    ((required "schedule" .text).described
      "Standard five field cron expression, evaluated in UTC.").ruled
      "self != \x27\x27" "schedule must not be empty",
    nullable "volumeSnapshotClassName" .text,
    (nullable "limit" .int32).described
      "Number of ready snapshots to retain. Defaults to 3.",
    (nullable "minAvailable" .int32).described
      "Minimum in-sync pods required before one is taken down. Defaults to 2.",
    (nullable "candidateOrdinal" .int32).described
      "Always snapshot the pod with this ordinal.",
    nullable "suspend" .bool]

def timestamp : Schema :=
  .described
    ("Time is a wrapper around time.Time which supports correct marshaling to YAML and JSON.  "
      ++ "Wrappers are provided for many of the factory methods that the time package offers.")
    .time

def quantity : Schema :=
  .described "Quantity is a fixed-point representation of a number." .text

def snapshotError : Schema :=
  .record [nullable "message" .text, nullable "time" timestamp]

def snapshotStatus : Schema :=
  .record [
    nullable "boundVolumeSnapshotContentName" .text,
    nullable "creationTime" timestamp,
    nullable "readyToUse" .bool,
    nullable "restoreSize" quantity,
    nullable "error" snapshotError]

def candidate : Schema :=
  .record [
    required "podName" .text, required "pvcName" .text, optional "podLabels" (.map .text)]

def snapshotRecord : Schema :=
  .record [
    required "name" .text, required "startedAt" timestamp, nullable "status" snapshotStatus]

def schedulerStatus : Schema :=
  .record [
    nullable "observedGeneration" .int64,
    defaulted "phase" SnapshotPhase.waitingForNext.write
      (.words (SnapshotPhase.all.map SnapshotPhase.name)),
    nullable "statusMessage" .text,
    (nullable "candidate" candidate).described
      "Pod and volume currently quiesced for a snapshot.",
    (nullable "lastSnapshot" snapshotRecord).described
      "Most recently created snapshot, ready or not.",
    (optional "history" (.list snapshotRecord)).described
      "Completed snapshots, most recent first."]

/-! ## Documents -/

def phaseColumn : Column := ⟨"Phase", "string", ".status.phase"⟩

def ageColumn : Column := ⟨"Age", "date", ".metadata.creationTimestamp"⟩

def fullNode : KindDefinition :=
  { kind := .fullNode, singular := "fullnode", shortName := "fn"
    columns := [phaseColumn, ⟨"Available", "integer", ".status.availableReplicas"⟩, ageColumn]
    spec := fullNodeSpec, status := fullNodeStatus }

def scheduler : KindDefinition :=
  { kind := .scheduler, singular := "scheduledvolumesnapshot", shortName := "svs"
    columns := [phaseColumn, ⟨"Last Snapshot", "string", ".status.lastSnapshot.name"⟩, ageColumn]
    spec := schedulerSpec, status := schedulerStatus }

def Column.write (column : Column) : Json :=
  .ofMembers [
    ("name", .text column.name), ("type", .text column.type), ("jsonPath", .text column.path)]

namespace KindDefinition

def schema (definition : KindDefinition) : Json :=
  let description :=
    "Auto-generated derived type for " ++ definition.kind.name ++ "Spec via `CustomResource`"
  let schema := Schema.record [
    required "spec" definition.spec, nullable "status" definition.status]
  .ofMembers (schema.members ++ [
    ("description", .text description), ("title", .text definition.kind.name)])

def version (definition : KindDefinition) : Json :=
  .ofMembers [
    ("name", .text "v1alpha1"),
    ("served", .bool true),
    ("storage", .bool true),
    ("schema", .ofMembers [("openAPIV3Schema", definition.schema)]),
    ("additionalPrinterColumns", .array (definition.columns.map Column.write)),
    ("subresources", .ofMembers [("status", .object [])])]

def names (definition : KindDefinition) : Json :=
  .ofMembers [
    ("categories", .array []),
    ("kind", .text definition.kind.name),
    ("plural", .text definition.kind.plural),
    ("shortNames", .array [.text definition.shortName]),
    ("singular", .text definition.singular)]

def write (definition : KindDefinition) : Json :=
  .ofMembers [
    ("apiVersion", .text "apiextensions.k8s.io/v1"),
    ("kind", .text "CustomResourceDefinition"),
    ("metadata", .ofMembers [("name", .text definition.kind.definitionName)]),
    ("spec", .ofMembers [
      ("group", .text definition.kind.group),
      ("names", definition.names),
      ("scope", .text "Namespaced"),
      ("versions", .array [definition.version])])]

end KindDefinition

def documents : List Json := [fullNode.write, scheduler.write]

end NodeFleet.Definition
