import NodeFleet.Resource.CoreShapes

/-!
# Pods

A pod as the operator reads and writes it: the fields it looks at have types of
their own, and all others are passed on in canonical form.  The main notions are
how long a pod has been ready, whether it is available, and which volume claim
it mounts first.
-/

namespace NodeFleet.Resource

open Calendar Json

/-- Members in canonical form that are passed on without being looked at. -/
abbrev Passed := List (String × Json)

/-- The canonical forms of the given members of an object. -/
def readPassed (members : List (String × Bool × Shape)) (json : Json) : Option Passed :=
  Shape.normalizeMembers members json

/-- The object of some members and the ones passed on. -/
def writePassed (fields : List (Option (String × Json))) (passed : Passed) : Json :=
  ofMembers (fields.filterMap id ++ passed)

structure VolumeMount where
  name : String
  mountPath : String
  passed : Passed

structure Container where
  name : String
  image : Option String
  imagePullPolicy : Option String
  args : Option (List String)
  env : Option (List Json)
  resources : Option Json
  volumeMounts : Option (List VolumeMount)
  passed : Passed

structure ClaimSource where
  claimName : String
  readOnly : Option Bool

structure Volume where
  name : String
  claim : Option ClaimSource
  passed : Passed

structure PodSpec where
  containers : List Container
  hostname : Option String
  restartPolicy : Option String
  serviceAccountName : Option String
  volumes : Option (List Volume)
  passed : Passed

structure PodCondition where
  kind : String
  status : String
  lastTransitionTime : Option Timestamp
  passed : Passed

structure PodStatus where
  conditions : Option (List PodCondition)
  passed : Passed

structure Pod where
  metadata : ObjectMeta
  spec : Option PodSpec
  status : Option PodStatus

/-! ## Reading and writing -/

namespace VolumeMount

def passedShape : List (String × Bool × Shape) :=
  [may "mountPropagation" .text, may "readOnly" .bool, may "recursiveReadOnly" .text,
    may "subPath" .text, may "subPathExpr" .text]

def read (json : Json) : Option VolumeMount := do
  let _ ← json.members?
  return {
    name := ← json.lenient "name" "" readText
    mountPath := ← json.lenient "mountPath" "" readText
    passed := ← readPassed passedShape json }

def write (mount : VolumeMount) : Json :=
  writePassed [always "name" (.text mount.name), always "mountPath" (.text mount.mountPath)]
    mount.passed

end VolumeMount

namespace Container

def read (json : Json) : Option Container := do
  let _ ← json.members?
  return {
    name := ← json.lenient "name" "" readText
    image := ← json.optional "image" readText
    imagePullPolicy := ← json.optional "imagePullPolicy" readText
    args := ← json.optional "args" readTexts
    env := ← json.optional "env" (readList CoreShapes.environmentVariable.normalize)
    resources := ← json.optional "resources" CoreShapes.resources.normalize
    volumeMounts := ← json.optional "volumeMounts" (readList VolumeMount.read)
    passed := ← readPassed CoreShapes.containerRest json }

def write (container : Container) : Json :=
  writePassed [
    always "name" (.text container.name),
    whenSome "image" .text container.image,
    whenSome "imagePullPolicy" .text container.imagePullPolicy,
    whenSome "args" writeTexts container.args,
    whenSome "env" .array container.env,
    whenSome "resources" id container.resources,
    whenSome "volumeMounts" (Json.ofList VolumeMount.write) container.volumeMounts]
    container.passed

end Container

namespace ClaimSource

def read (json : Json) : Option ClaimSource := do
  let _ ← json.members?
  return {
    claimName := ← json.lenient "claimName" "" readText
    readOnly := ← json.optional "readOnly" readBool }

def write (source : ClaimSource) : Json :=
  ofFields [
    always "claimName" (.text source.claimName), whenSome "readOnly" .bool source.readOnly]

end ClaimSource

namespace Volume

def read (json : Json) : Option Volume := do
  let _ ← json.members?
  return {
    name := ← json.lenient "name" "" readText
    claim := ← json.optional "persistentVolumeClaim" ClaimSource.read
    passed := ← readPassed CoreShapes.volumeSources json }

def write (volume : Volume) : Json :=
  writePassed [
    always "name" (.text volume.name),
    whenSome "persistentVolumeClaim" ClaimSource.write volume.claim]
    volume.passed

end Volume

namespace PodSpec

def read (json : Json) : Option PodSpec := do
  let _ ← json.members?
  return {
    containers := ← json.lenient "containers" [] (readList Container.read)
    hostname := ← json.optional "hostname" readText
    restartPolicy := ← json.optional "restartPolicy" readText
    serviceAccountName := ← json.optional "serviceAccountName" readText
    volumes := ← json.optional "volumes" (readList Volume.read)
    passed := ← readPassed CoreShapes.podSpecRest json }

def write (spec : PodSpec) : Json :=
  writePassed [
    always "containers" (Json.ofList Container.write spec.containers),
    whenSome "hostname" .text spec.hostname,
    whenSome "restartPolicy" .text spec.restartPolicy,
    whenSome "serviceAccountName" .text spec.serviceAccountName,
    whenSome "volumes" (Json.ofList Volume.write) spec.volumes]
    spec.passed

end PodSpec

namespace PodCondition

def read (json : Json) : Option PodCondition := do
  let _ ← json.members?
  return {
    kind := ← json.lenient "type" "" readText
    status := ← json.lenient "status" "" readText
    lastTransitionTime := ← json.optional "lastTransitionTime" readTime
    passed := ← readPassed CoreShapes.podConditionRest json }

def write (condition : PodCondition) : Json :=
  writePassed [
    always "type" (.text condition.kind),
    always "status" (.text condition.status),
    whenSome "lastTransitionTime" writeTime condition.lastTransitionTime]
    condition.passed

end PodCondition

namespace PodStatus

def read (json : Json) : Option PodStatus := do
  let _ ← json.members?
  return {
    conditions := ← json.optional "conditions" (readList PodCondition.read)
    passed := ← readPassed CoreShapes.podStatusRest json }

def write (status : PodStatus) : Json :=
  writePassed [whenSome "conditions" (Json.ofList PodCondition.write) status.conditions]
    status.passed

end PodStatus

/-- Whether an object that states its version or kind states the given one. -/
def agrees (json : Json) (key expected : String) : Bool :=
  match json.get? key with
  | none => true
  | some value => value.text? == some expected

namespace Pod

def read (json : Json) : Option Pod := do
  let _ ← json.members?
  guard (agrees json "apiVersion" "v1" && agrees json "kind" "Pod")
  return {
    metadata := ← json.lenient "metadata" .empty ObjectMeta.read
    spec := ← json.optional "spec" PodSpec.read
    status := ← json.optional "status" PodStatus.read }

def write (pod : Pod) : Json :=
  ofFields [
    always "apiVersion" (.text "v1"),
    always "kind" (.text "Pod"),
    always "metadata" pod.metadata.write,
    whenSome "spec" PodSpec.write pod.spec,
    whenSome "status" PodStatus.write pod.status]

/-! ## Readiness -/

def readyCondition? (pod : Pod) : Option PodCondition := do
  let conditions ← (← pod.status).conditions
  conditions.find? (·.kind == "Ready")

/-- The time since which the pod has been ready; a ready pod without such a
time has always been ready. -/
def readySince? (pod : Pod) : Option Instant := do
  let condition ← pod.readyCondition?
  if condition.status = "True" then
    return (condition.lastTransitionTime.bind Timestamp.instant?).getD .earliest
  else none

def isReady (pod : Pod) : Bool := pod.readySince?.isSome

/-- Whether the pod is not being deleted and has been ready for a number of
seconds. -/
def isAvailable (minReadySeconds : Int) (now : Instant) (pod : Pod) : Bool :=
  if pod.metadata.isTerminating then false
  else
    match pod.readySince? with
    | none => false
    | some since => minReadySeconds ≤ 0 || since.addSeconds minReadySeconds ≤ now

/-! ## Volumes and digests -/

/-- The name of the first volume claim that the pod mounts. -/
def claimName? (pod : Pod) : Option String := do
  let volumes ← (← pod.spec).volumes
  let source ← volumes.findSome? (·.claim)
  return source.claimName

def digest? (pod : Pod) : Option String := pod.metadata.annotationMap.find? podHashKey

end Pod

end NodeFleet.Resource
