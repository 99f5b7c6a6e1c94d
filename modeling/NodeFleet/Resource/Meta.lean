import NodeFleet.Resource.Shape

/-!
# Object metadata

The metadata of a cluster object, the well-known keys of labels and
annotations, and label selectors.
-/

namespace NodeFleet.Resource

open Calendar Json

/-- Labels, annotations, and other maps of texts. -/
abbrev TextMap := KeyMap String

/-- A reference from an object to the object that owns it. -/
structure OwnerReference where
  apiVersion : String
  kind : String
  name : String
  uid : String
  controller : Option Bool
  blockOwnerDeletion : Option Bool
  deriving DecidableEq, Repr

structure ObjectMeta where
  annotations : Option TextMap
  creationTimestamp : Option Timestamp
  deletionGracePeriodSeconds : Option Int
  deletionTimestamp : Option Timestamp
  finalizers : Option (List String)
  generateName : Option String
  generation : Option Int
  labels : Option TextMap
  managedFields : Option Json
  name : Option String
  namespaceName : Option String
  ownerReferences : Option (List OwnerReference)
  resourceVersion : Option String
  selfLink : Option String
  uid : Option String
  deriving Repr

/-! ## Well-known keys -/

def groupName : String := "chainops.io"

def operatorName : String := "chainops-operator"

/-- The annotation that holds the position of a member in its set. -/
def ordinalKey : String := groupName ++ "/ordinal"

/-- The annotation that holds the digest of a pod's specification and labels. -/
def podHashKey : String := groupName ++ "/pod-spec-hash"

/-- The label that names the scheduler of a snapshot. -/
def sourceKey : String := groupName ++ "/source"

def nameKey : String := "app.kubernetes.io/name"

def instanceKey : String := "app.kubernetes.io/instance"

def componentKey : String := "app.kubernetes.io/component"

def managedByKey : String := "app.kubernetes.io/managed-by"

/-! ## Label selectors -/

/-- The selector that asks for every label of a map, in key order. -/
def labelSelector (labels : TextMap) : String :=
  ",".intercalate (labels.entries.map fun label => s!"{label.1}={label.2}")

/-! ## Reading and writing -/

def readTime (json : Json) : Option Timestamp := (json.readText).bind Timestamp.read

def writeTime (timestamp : Timestamp) : Json := .text timestamp.text

def readTexts : Json → Option (List String) := readList readText

def writeTexts : List String → Json := Json.ofList .text

def readTextMap : Json → Option TextMap := readMap readText

def writeTextMap : TextMap → Json := ofMap .text

namespace OwnerReference

def read (json : Json) : Option OwnerReference := do
  let _ ← json.members?
  return {
    apiVersion := ← json.lenient "apiVersion" "" readText
    kind := ← json.lenient "kind" "" readText
    name := ← json.lenient "name" "" readText
    uid := ← json.lenient "uid" "" readText
    controller := ← json.optional "controller" readBool
    blockOwnerDeletion := ← json.optional "blockOwnerDeletion" readBool }

def write (reference : OwnerReference) : Json :=
  ofFields [
    always "apiVersion" (.text reference.apiVersion),
    always "kind" (.text reference.kind),
    always "name" (.text reference.name),
    always "uid" (.text reference.uid),
    whenSome "controller" .bool reference.controller,
    whenSome "blockOwnerDeletion" .bool reference.blockOwnerDeletion]

end OwnerReference

namespace ObjectMeta

def empty : ObjectMeta :=
  { annotations := none, creationTimestamp := none, deletionGracePeriodSeconds := none,
    deletionTimestamp := none, finalizers := none, generateName := none, generation := none,
    labels := none, managedFields := none, name := none, namespaceName := none,
    ownerReferences := none, resourceVersion := none, selfLink := none, uid := none }

/-- The shape of the record of who manages which fields. -/
def managedFieldsShape : Shape :=
  .list <| .record [
    may "apiVersion" .text, may "fieldsType" .text, may "fieldsV1" .any, may "manager" .text,
    may "operation" .text, may "subresource" .text, may "time" .time]

def read (json : Json) : Option ObjectMeta := do
  let _ ← json.members?
  return {
    annotations := ← json.optional "annotations" readTextMap
    creationTimestamp := ← json.optional "creationTimestamp" readTime
    deletionGracePeriodSeconds := ←
      json.optional "deletionGracePeriodSeconds" (readInteger .int64)
    deletionTimestamp := ← json.optional "deletionTimestamp" readTime
    finalizers := ← json.optional "finalizers" readTexts
    generateName := ← json.optional "generateName" readText
    generation := ← json.optional "generation" (readInteger .int64)
    labels := ← json.optional "labels" readTextMap
    managedFields := ← json.optional "managedFields" managedFieldsShape.normalize
    name := ← json.optional "name" readText
    namespaceName := ← json.optional "namespace" readText
    ownerReferences := ← json.optional "ownerReferences" (readList OwnerReference.read)
    resourceVersion := ← json.optional "resourceVersion" readText
    selfLink := ← json.optional "selfLink" readText
    uid := ← json.optional "uid" readText }

def write (metadata : ObjectMeta) : Json :=
  ofFields [
    whenSome "annotations" writeTextMap metadata.annotations,
    whenSome "creationTimestamp" writeTime metadata.creationTimestamp,
    whenSome "deletionGracePeriodSeconds" .integer metadata.deletionGracePeriodSeconds,
    whenSome "deletionTimestamp" writeTime metadata.deletionTimestamp,
    whenSome "finalizers" writeTexts metadata.finalizers,
    whenSome "generateName" .text metadata.generateName,
    whenSome "generation" .integer metadata.generation,
    whenSome "labels" writeTextMap metadata.labels,
    whenSome "managedFields" id metadata.managedFields,
    whenSome "name" .text metadata.name,
    whenSome "namespace" .text metadata.namespaceName,
    whenSome "ownerReferences" (Json.ofList OwnerReference.write) metadata.ownerReferences,
    whenSome "resourceVersion" .text metadata.resourceVersion,
    whenSome "selfLink" .text metadata.selfLink,
    whenSome "uid" .text metadata.uid]

/-- The name of an object: its own, or the start of a generated one. -/
def shownName (metadata : ObjectMeta) : String :=
  (metadata.name.or metadata.generateName).getD ""

def labelMap (metadata : ObjectMeta) : TextMap := metadata.labels.getD .empty

def annotationMap (metadata : ObjectMeta) : TextMap := metadata.annotations.getD .empty

def ordinalText? (metadata : ObjectMeta) : Option String :=
  metadata.annotationMap.find? ordinalKey

def isTerminating (metadata : ObjectMeta) : Bool := metadata.deletionTimestamp.isSome

end ObjectMeta

end NodeFleet.Resource
