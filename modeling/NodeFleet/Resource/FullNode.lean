import NodeFleet.Resource.CoreShapes
import NodeFleet.Rollout

/-!
# Full nodes

A full node asks for a number of replicas, each a pod with a volume.  Its status
reports how far the operator has got, what the sync monitor says of each pod,
and which pods are held down while a snapshot is taken.
-/

namespace NodeFleet.Resource

open Calendar Json

/-- The form of the volumes of a full node. -/
structure ClaimTemplate where
  storage : String
  storageClassName : Option String
  accessModes : List String
  mountPath : Option String
  dataSource : Option Json

/-- How changed pods are rolled out. -/
structure RolloutStrategy where
  maxUnavailable : Option IntOrText
  deriving DecidableEq, Repr

structure FullNodeSpec where
  replicas : Int
  image : String
  imagePullPolicy : Option String
  args : List String
  env : List Json
  resources : Option Json
  serviceAccountName : Option String
  claimTemplate : ClaimTemplate
  rolloutStrategy : Option RolloutStrategy
  minReadySeconds : Option Int

/-- How far the operator has got with a full node. -/
inductive NodePhase
  | progressing
  | complete
  | error
  deriving DecidableEq, Repr

/-- What the sync monitor says of a pod. -/
structure PodSync where
  inSync : Option Bool
  height : Option Int
  error : Option String
  deriving DecidableEq, Repr

/-- A pod that is held down for a snapshot. -/
structure HeldPod where
  podName : String
  deriving DecidableEq, Repr

/-- The status of a full node; held pods stand under the key of the scheduler
that holds them. -/
structure FullNodeStatus where
  observedGeneration : Option Int
  phase : NodePhase
  statusMessage : Option String
  availableReplicas : Int
  syncInfo : KeyMap PodSync
  heldPods : KeyMap HeldPod
  deriving DecidableEq, Repr

structure FullNode where
  metadata : ObjectMeta
  spec : FullNodeSpec
  status : Option FullNodeStatus

/-! ## Reading and writing -/

def readIntOrText : Json → Option IntOrText
  | .text value => some (.text value)
  | json => (json.readInteger .int32).map .number

def writeIntOrText : IntOrText → Json
  | .number value => .integer value
  | .text value => .text value

/-- Reads one of a few words, alone or as the only key of an object that holds
`null`. -/
def readWord {α : Type} (values : List α) (name : α → String) : Json → Option α
  | .text word => values.find? fun value => name value == word
  | .object [(word, .null)] => values.find? fun value => name value == word
  | _ => none

namespace ClaimTemplate

def read (json : Json) : Option ClaimTemplate := do
  let record ← json.record?
    ["storage", "storageClassName", "accessModes", "mountPath", "dataSource"] 1
  return {
    storage := ← record.required "storage" readText
    storageClassName := ← record.optional "storageClassName" readText
    accessModes := ← record.defaulted "accessModes" [] readTexts
    mountPath := ← record.optional "mountPath" readText
    dataSource := ← record.optional "dataSource" CoreShapes.typedReference.normalize }

def write (template : ClaimTemplate) : Json :=
  ofFields [
    always "storage" (.text template.storage),
    whenSome "storageClassName" .text template.storageClassName,
    whenFilled "accessModes" .text template.accessModes,
    whenSome "mountPath" .text template.mountPath,
    whenSome "dataSource" id template.dataSource]

end ClaimTemplate

namespace RolloutStrategy

def read (json : Json) : Option RolloutStrategy := do
  let record ← json.record? ["maxUnavailable"] 0
  return { maxUnavailable := ← record.optional "maxUnavailable" readIntOrText }

def write (strategy : RolloutStrategy) : Json :=
  ofFields [whenSome "maxUnavailable" writeIntOrText strategy.maxUnavailable]

end RolloutStrategy

namespace FullNodeSpec

def read (json : Json) : Option FullNodeSpec := do
  let record ← json.record?
    ["replicas", "image", "imagePullPolicy", "args", "env", "resources", "serviceAccountName",
      "volumeClaimTemplate", "rolloutStrategy", "minReadySeconds"] 8
  return {
    replicas := ← record.required "replicas" (readInteger .int32)
    image := ← record.required "image" readText
    imagePullPolicy := ← record.optional "imagePullPolicy" readText
    args := ← record.defaulted "args" [] readTexts
    env := ← record.defaulted "env" [] (readList CoreShapes.environmentVariable.normalize)
    resources := ← record.optional "resources" CoreShapes.resources.normalize
    serviceAccountName := ← record.optional "serviceAccountName" readText
    claimTemplate := ← record.required "volumeClaimTemplate" ClaimTemplate.read
    rolloutStrategy := ← record.optional "rolloutStrategy" RolloutStrategy.read
    minReadySeconds := ← record.optional "minReadySeconds" (readInteger .int32) }

def write (spec : FullNodeSpec) : Json :=
  ofFields [
    always "replicas" (.integer spec.replicas),
    always "image" (.text spec.image),
    whenSome "imagePullPolicy" .text spec.imagePullPolicy,
    whenFilled "args" .text spec.args,
    whenFilled "env" id spec.env,
    whenSome "resources" id spec.resources,
    whenSome "serviceAccountName" .text spec.serviceAccountName,
    always "volumeClaimTemplate" spec.claimTemplate.write,
    whenSome "rolloutStrategy" RolloutStrategy.write spec.rolloutStrategy,
    whenSome "minReadySeconds" .integer spec.minReadySeconds]

end FullNodeSpec

namespace NodePhase

def all : List NodePhase := [.progressing, .complete, .error]

def name : NodePhase → String
  | .progressing => "Progressing"
  | .complete => "Complete"
  | .error => "Error"

def read : Json → Option NodePhase := readWord all name

def write (phase : NodePhase) : Json := .text phase.name

end NodePhase

namespace PodSync

def read (json : Json) : Option PodSync := do
  let record ← json.record? ["inSync", "height", "error"] 0
  return {
    inSync := ← record.optional "inSync" readBool
    height := ← record.optional "height" (readInteger .word64)
    error := ← record.optional "error" readText }

def write (sync : PodSync) : Json :=
  ofFields [
    whenSome "inSync" .bool sync.inSync, whenSome "height" .integer sync.height,
    whenSome "error" .text sync.error]

end PodSync

namespace HeldPod

def read (json : Json) : Option HeldPod := do
  let record ← json.record? ["podCandidate"] 1
  return { podName := ← record.required "podCandidate" readText }

def write (held : HeldPod) : Json := ofFields [always "podCandidate" (.text held.podName)]

end HeldPod

namespace FullNodeStatus

def initial : FullNodeStatus :=
  { observedGeneration := none, phase := .progressing, statusMessage := none,
    availableReplicas := 0, syncInfo := .empty, heldPods := .empty }

def read (json : Json) : Option FullNodeStatus := do
  let record ← json.record?
    ["observedGeneration", "phase", "statusMessage", "availableReplicas", "syncInfo",
      "scheduledSnapshots"] 0
  return {
    observedGeneration := ← record.optional "observedGeneration" (readInteger .int64)
    phase := ← record.defaulted "phase" .progressing NodePhase.read
    statusMessage := ← record.optional "statusMessage" readText
    availableReplicas := ← record.defaulted "availableReplicas" 0 (readInteger .int32)
    syncInfo := ← record.defaulted "syncInfo" .empty (readMap PodSync.read)
    heldPods := ← record.defaulted "scheduledSnapshots" .empty (readMap HeldPod.read) }

def write (status : FullNodeStatus) : Json :=
  ofFields [
    whenSome "observedGeneration" .integer status.observedGeneration,
    always "phase" status.phase.write,
    whenSome "statusMessage" .text status.statusMessage,
    always "availableReplicas" (.integer status.availableReplicas),
    whenPopulated "syncInfo" PodSync.write status.syncInfo,
    whenPopulated "scheduledSnapshots" HeldPod.write status.heldPods]

/-- Registers the pod that is held down under a key, or clears the key. -/
def hold (status : FullNodeStatus) (key : String) (pod : Option String) : FullNodeStatus :=
  match pod with
  | some podName => { status with heldPods := status.heldPods.insert key ⟨podName⟩ }
  | none => { status with heldPods := status.heldPods.erase key }

end FullNodeStatus

namespace FullNode

def podComponent : String := "fullnode"

def claimComponent : String := "pvc"

def apiVersion : String := groupName ++ "/v1alpha1"

def read (json : Json) : Option FullNode := do
  let record ← json.record? ["metadata", "spec", "status"] 3
  return {
    metadata := ← record.required "metadata" ObjectMeta.read
    spec := ← record.required "spec" FullNodeSpec.read
    status := ← record.optional "status" FullNodeStatus.read }

def write (node : FullNode) : Json :=
  ofFields [
    always "apiVersion" (.text apiVersion),
    always "kind" (.text "FullNode"),
    always "metadata" node.metadata.write,
    always "spec" node.spec.write,
    whenSome "status" FullNodeStatus.write node.status]

/-! ## Derived values -/

def name (node : FullNode) : String := node.metadata.shownName

def ownerReference (node : FullNode) : OwnerReference :=
  { apiVersion := apiVersion, kind := "FullNode", name := node.name,
    uid := node.metadata.uid.getD "", controller := some true, blockOwnerDeletion := some true }

def selectorLabels (node : FullNode) : TextMap :=
  .ofList [(nameKey, "fullnode"), (instanceKey, node.name)]

/-- The labels of the objects of one component of the full node. -/
def labelsFor (node : FullNode) (component : String) : TextMap :=
  (node.selectorLabels.insert managedByKey operatorName).insert componentKey component

def componentSelector (node : FullNode) (component : String) : String :=
  labelSelector (node.selectorLabels.insert componentKey component)

def podName (node : FullNode) (ordinal : Int) : String := s!"{node.name}-{ordinal}"

def claimName (node : FullNode) (ordinal : Int) : String := s!"pvc-{node.name}-{ordinal}"

def maxUnavailable (node : FullNode) : Option IntOrText :=
  node.spec.rolloutStrategy.bind (·.maxUnavailable)

/-- The seconds that a pod stays ready before it counts as available. -/
def minReadySeconds (node : FullNode) : Int := max (node.spec.minReadySeconds.getD 0) 0

def updateStatus (update : FullNodeStatus → FullNodeStatus) (node : FullNode) : FullNode :=
  { node with status := some (update (node.status.getD .initial)) }

def heldPodNames (node : FullNode) : List String :=
  match node.status with
  | none => []
  | some status => status.heldPods.values.map (·.podName)

end FullNode

end NodeFleet.Resource
