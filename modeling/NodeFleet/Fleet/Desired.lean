import NodeFleet.Digest.Sha256
import NodeFleet.Json.Printer
import NodeFleet.Resource.FullNode
import NodeFleet.Resource.VolumeClaim

/-!
# The desired members of a full node

A full node desires one pod and one volume claim for each ordinal below its
replicas.  A pod that is held down for a snapshot is not desired; its claim is.
-/

namespace NodeFleet.Resource

open Json

def defaultMountPath : String := "/home/operator/data"

def defaultAccessMode : String := "ReadWriteOnce"

def dataVolumeName : String := "vol-chain-home"

def nodeContainerName : String := "node"

/-- The text whose digest stands for the specification and labels of a pod. -/
def Pod.digestText (pod : Pod) : String :=
  String.ofList ((Json.ofOption PodSpec.write pod.spec).print ++
    (Json.ofOption writeTextMap pod.metadata.labels).print)

def Pod.digest (pod : Pod) : String := Digest.sha256Hex pod.digestText

namespace FullNode

/-- A list that is left out when it is empty. -/
def filled {α : Type} (items : List α) : Option (List α) :=
  if items.isEmpty then none else some items

def mountPath (node : FullNode) : String :=
  node.spec.claimTemplate.mountPath.getD defaultMountPath

def container (node : FullNode) : Container :=
  { name := nodeContainerName
    image := some node.spec.image
    imagePullPolicy := node.spec.imagePullPolicy
    args := filled node.spec.args
    env := filled node.spec.env
    resources := node.spec.resources
    volumeMounts := some [{ name := dataVolumeName, mountPath := node.mountPath, passed := [] }]
    passed := [] }

def podSpec (node : FullNode) (ordinal : Int) : PodSpec :=
  { containers := [node.container]
    hostname := some (node.podName ordinal)
    restartPolicy := some "Always"
    serviceAccountName := node.spec.serviceAccountName
    volumes := some [{
      name := dataVolumeName
      claim := some { claimName := node.claimName ordinal, readOnly := none }
      passed := [] }]
    passed := [] }

def memberMetadata (node : FullNode) (component name : String) (ordinal : Int) : ObjectMeta :=
  { ObjectMeta.empty with
    name := some name
    namespaceName := node.metadata.namespaceName
    labels := some (node.labelsFor component)
    annotations := some (.ofList [(ordinalKey, toString ordinal)]) }

/-- The pod of an ordinal before it carries its digest. -/
def plainPod (node : FullNode) (ordinal : Int) : Pod :=
  { metadata := node.memberMetadata podComponent (node.podName ordinal) ordinal
    spec := some (node.podSpec ordinal)
    status := none }

def newPod (node : FullNode) (ordinal : Int) : Pod :=
  let pod := node.plainPod ordinal
  let annotations := pod.metadata.annotationMap.insert podHashKey pod.digest
  { pod with metadata := { pod.metadata with annotations := some annotations } }

def claimSpec (node : FullNode) : ClaimSpec :=
  let template := node.spec.claimTemplate
  { accessModes :=
      some (if template.accessModes.isEmpty then [defaultAccessMode] else template.accessModes)
    dataSource := template.dataSource
    resources := some { limits := none, requests := some (.ofList [("storage", template.storage)]) }
    storageClassName := template.storageClassName
    passed := [] }

def newClaim (node : FullNode) (ordinal : Int) : VolumeClaim :=
  { metadata := node.memberMetadata claimComponent (node.claimName ordinal) ordinal
    spec := some node.claimSpec
    status := none }

def ordinals (node : FullNode) : List Int :=
  (List.range node.spec.replicas.toNat).map Int.ofNat

/-- The desired pods, without those held down for snapshots. -/
def desiredPods (node : FullNode) : List Pod :=
  (node.ordinals.map node.newPod).filter fun pod =>
    pod.metadata.name.all fun name => !node.heldPodNames.contains name

def desiredClaims (node : FullNode) : List VolumeClaim := node.ordinals.map node.newClaim

end FullNode

end NodeFleet.Resource
