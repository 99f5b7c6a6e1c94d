import NodeFleet.Resource.Pod

/-!
# Volume claims

A volume claim as the operator reads and writes it.
-/

namespace NodeFleet.Resource

open Calendar Json

structure ClaimResources where
  limits : Option TextMap
  requests : Option TextMap
  deriving DecidableEq, Repr

structure ClaimSpec where
  accessModes : Option (List String)
  dataSource : Option Json
  resources : Option ClaimResources
  storageClassName : Option String
  passed : Passed

structure ClaimStatus where
  phase : Option String
  passed : Passed

structure VolumeClaim where
  metadata : ObjectMeta
  spec : Option ClaimSpec
  status : Option ClaimStatus

namespace ClaimResources

def read (json : Json) : Option ClaimResources := do
  let _ ← json.members?
  return {
    limits := ← json.optional "limits" readTextMap
    requests := ← json.optional "requests" readTextMap }

def write (resources : ClaimResources) : Json :=
  ofFields [
    whenSome "limits" writeTextMap resources.limits,
    whenSome "requests" writeTextMap resources.requests]

end ClaimResources

namespace ClaimSpec

def read (json : Json) : Option ClaimSpec := do
  let _ ← json.members?
  return {
    accessModes := ← json.optional "accessModes" readTexts
    dataSource := ← json.optional "dataSource" CoreShapes.typedReference.normalize
    resources := ← json.optional "resources" ClaimResources.read
    storageClassName := ← json.optional "storageClassName" readText
    passed := ← readPassed CoreShapes.claimSpecRest json }

def write (spec : ClaimSpec) : Json :=
  writePassed [
    whenSome "accessModes" writeTexts spec.accessModes,
    whenSome "dataSource" id spec.dataSource,
    whenSome "resources" ClaimResources.write spec.resources,
    whenSome "storageClassName" .text spec.storageClassName]
    spec.passed

end ClaimSpec

namespace ClaimStatus

def read (json : Json) : Option ClaimStatus := do
  let _ ← json.members?
  return {
    phase := ← json.optional "phase" readText
    passed := ← readPassed CoreShapes.claimStatusRest json }

def write (status : ClaimStatus) : Json :=
  writePassed [whenSome "phase" .text status.phase] status.passed

end ClaimStatus

namespace VolumeClaim

def read (json : Json) : Option VolumeClaim := do
  let _ ← json.members?
  guard (agrees json "apiVersion" "v1" && agrees json "kind" "PersistentVolumeClaim")
  return {
    metadata := ← json.lenient "metadata" .empty ObjectMeta.read
    spec := ← json.optional "spec" ClaimSpec.read
    status := ← json.optional "status" ClaimStatus.read }

def write (claim : VolumeClaim) : Json :=
  ofFields [
    always "apiVersion" (.text "v1"),
    always "kind" (.text "PersistentVolumeClaim"),
    always "metadata" claim.metadata.write,
    whenSome "spec" ClaimSpec.write claim.spec,
    whenSome "status" ClaimStatus.write claim.status]

def requestedStorage? (claim : VolumeClaim) : Option String := do
  (← (← (← claim.spec).resources).requests).find? "storage"

/-- Whether the claim is bound and not being deleted. -/
def isAvailable (claim : VolumeClaim) : Bool :=
  !claim.metadata.isTerminating && (claim.status.bind (·.phase)) == some "Bound"

end VolumeClaim

end NodeFleet.Resource
