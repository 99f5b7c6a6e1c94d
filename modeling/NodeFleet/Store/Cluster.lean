import NodeFleet.Json.MergePatch
import NodeFleet.Store.Program
import NodeFleet.Text.Split

/-!
# A cluster in memory

The cluster keeps objects as JSON, in the form in which they were written, and
answers the calls of a program.  Faults that were planted before answer calls in
its place.  It keeps the successful writes and the events in their order.
-/

namespace NodeFleet.Store

open Text

inductive Verb
  | list
  | get
  | create
  | delete
  | patch
  | status
  | event
  | definition
  deriving DecidableEq, Repr

namespace Verb

def all : List Verb := [.list, .get, .create, .delete, .patch, .status, .event, .definition]

def name : Verb → String
  | .list => "list"
  | .get => "get"
  | .create => "create"
  | .delete => "delete"
  | .patch => "patch"
  | .status => "status"
  | .event => "event"
  | .definition => "crd"

end Verb

/-- What a fault does to a call. -/
inductive FaultEffect
  | refuse (status : ApiStatus)
  | hang
  deriving DecidableEq, Repr

/-- A fault answers the calls with its verb, and with its kind and name if it
has them, as many times as it says. -/
structure Fault where
  verb : String
  kind : Option String
  name : Option String
  times : Option Nat
  effect : FaultEffect
  deriving DecidableEq, Repr

structure Write where
  verb : Verb
  kind : String
  space : String
  name : String
  body : Option Json

/-- A cluster; objects stand under their kind, namespace and name. -/
structure Cluster where
  objects : KeyMap (KeyMap (KeyMap Json))
  definitions : List String
  faults : List Fault
  writes : List Write
  events : List Event

namespace Cluster

def initial : Cluster :=
  { objects := .empty, definitions := [Resource.VolumeSnapshot.definitionName], faults := [],
    writes := [], events := [] }

/-! ## Objects -/

def objectsIn (cluster : Cluster) (kind space : String) : KeyMap Json :=
  (((cluster.objects.find? kind).getD .empty).find? space).getD .empty

def find? (cluster : Cluster) (kind space name : String) : Option Json :=
  (cluster.objectsIn kind space).find? name

def setObjectsIn (cluster : Cluster) (kind space : String) (named : KeyMap Json) : Cluster :=
  let spaces := (cluster.objects.find? kind).getD .empty
  { cluster with objects := cluster.objects.insert kind (spaces.insert space named) }

def insert (cluster : Cluster) (kind space name : String) (object : Json) : Cluster :=
  cluster.setObjectsIn kind space ((cluster.objectsIn kind space).insert name object)

def remove (cluster : Cluster) (kind space name : String) : Cluster :=
  cluster.setObjectsIn kind space ((cluster.objectsIn kind space).erase name)

theorem objectsIn_setObjectsIn (cluster : Cluster) (kind space kind' space' : String)
    (named : KeyMap Json) :
    (cluster.setObjectsIn kind space named).objectsIn kind' space' =
      if kind = kind' ∧ space = space' then named else cluster.objectsIn kind' space' := by
  unfold setObjectsIn objectsIn
  simp only [KeyMap.find?_insert]
  by_cases sameKind : kind = kind'
  · subst sameKind
    by_cases sameSpace : space = space' <;> simp [KeyMap.find?_insert, sameSpace]
  · simp [sameKind]

theorem find?_insert (cluster : Cluster) (kind space name kind' space' name' : String)
    (object : Json) :
    (cluster.insert kind space name object).find? kind' space' name' =
      if kind = kind' ∧ space = space' ∧ name = name' then some object
      else cluster.find? kind' space' name' := by
  unfold insert find?
  rw [objectsIn_setObjectsIn]
  by_cases samePlace : kind = kind' ∧ space = space'
  · obtain ⟨rfl, rfl⟩ := samePlace
    simp [KeyMap.find?_insert]
  · rw [if_neg samePlace, if_neg fun same => samePlace ⟨same.1, same.2.1⟩]

theorem find?_remove (cluster : Cluster) (kind space name kind' space' name' : String) :
    (cluster.remove kind space name).find? kind' space' name' =
      if kind = kind' ∧ space = space' ∧ name = name' then none
      else cluster.find? kind' space' name' := by
  unfold remove find?
  rw [objectsIn_setObjectsIn]
  by_cases samePlace : kind = kind' ∧ space = space'
  · obtain ⟨rfl, rfl⟩ := samePlace
    simp [KeyMap.find?_erase]
  · rw [if_neg samePlace, if_neg fun same => samePlace ⟨same.1, same.2.1⟩]

/-- The places of all objects, in the order of kind, namespace and name. -/
def places (cluster : Cluster) : List (String × String × String) :=
  cluster.objects.entries.flatMap fun (kind, spaces) =>
    spaces.entries.flatMap fun (space, named) =>
      named.keys.map fun name => (kind, space, name)

/-! ## Faults -/

def Fault.matches (fault : Fault) (verb : Verb) (kind name : String) : Bool :=
  fault.verb == verb.name && fault.kind.all (· == kind) && fault.name.all (· == name)
    && fault.times.all (0 < ·)

/-- The effect of the first fault that is for a call, and the faults once it has
been used. -/
def takeFault (verb : Verb) (kind name : String) :
    List Fault → Option (FaultEffect × List Fault)
  | [] => none
  | fault :: faults =>
      if Fault.matches fault verb kind name then
        some (fault.effect, { fault with times := fault.times.map (· - 1) } :: faults)
      else (takeFault verb kind name faults).map fun (effect, rest) => (effect, fault :: rest)

/-! ## Selectors -/

def selected (selector : String) : List (String × Option String) :=
  if selector = "" then []
  else
    (splitAt ',' selector.toList).map fun part =>
      match splitFirst? '=' part with
      | some (key, value) => (String.ofList key, some (String.ofList value))
      | none => (String.ofList part, none)

/-- Whether labels have every value that a selector asks for. -/
def selects (selector : String) (labels : String → Option String) : Bool :=
  (selected selector).all fun (key, value) => value.isSome && labels key == value

def labelsOf (object : Json) (key : String) : Option String :=
  (object.at? ["metadata", "labels", key]).bind Json.text?

/-! ## Answers -/

def refusal (code : Nat) (reason message : String) : ApiFailure :=
  .refused { verdict := some .failure, code, reason, message }

def notFound (resource name : String) : ApiFailure :=
  refusal 404 "NotFound" (resource ++ " \"" ++ name ++ "\" not found")

def alreadyExists (kind : Kind) (name : String) : ApiFailure :=
  refusal 409 "AlreadyExists" (kind.resourceName ++ " \"" ++ name ++ "\" already exists")

def modified (kind : Kind) (name : String) : ApiFailure :=
  refusal 409 "Conflict" ("Operation cannot be fulfilled on " ++ kind.resourceName ++ " \"" ++ name
    ++ "\": the object has been modified")

/-- An object of a kind, or a failure when it cannot be read as one. -/
def readAs (kind : Kind) (object : Json) : Except ApiFailure kind.Object :=
  match kind.read object with
  | some value => .ok value
  | none => .error .unreadable

/-- The number that a resource version stands for. -/
def versionNumber (version : Option Json) : Int :=
  match version.bind Json.text? with
  | none => 0
  | some digits =>
      match readWhole .word64 digits.toList with
      | .ok value => value
      | .error _ => 0

/-- The time at which objects of the cluster begin to be deleted. -/
def deletionTime : String := "2024-01-01T00:00:00Z"

def logged (cluster : Cluster) (verb : Verb) (kind : Kind) (space name : String)
    (body : Option Json) : Cluster :=
  { cluster with writes := cluster.writes ++ [⟨verb, kind.name, space, name, body⟩] }

def serveList (kind : Kind) (space selector : String) (cluster : Cluster) :
    Except ApiFailure (List kind.Object) :=
  ((cluster.objectsIn kind.name space).values.filter fun object =>
    selects selector (labelsOf object)).mapM (readAs kind)

def serveGet (kind : Kind) (space name : String) (cluster : Cluster) :
    Except ApiFailure kind.Object :=
  match cluster.find? kind.name space name with
  | none => .error (notFound kind.resourceName name)
  | some object => readAs kind object

def serveCreate (kind : Kind) (space : String) (object : kind.Object) (cluster : Cluster) :
    Except ApiFailure kind.Object × Cluster :=
  let name := (kind.metadata object).name.getD ""
  match cluster.find? kind.name space name with
  | some _ => (.error (alreadyExists kind name), cluster)
  | none =>
      let written := kind.write object
      let metadata := ((written.get? "metadata").getD .null).set "namespace" (.text space)
      let stored := written.set "metadata" metadata
      (readAs kind stored,
        (cluster.insert kind.name space name stored).logged .create kind space name none)

def serveDelete (kind : Kind) (space name : String) (cluster : Cluster) :
    Except ApiFailure Unit × Cluster :=
  match cluster.find? kind.name space name with
  | none => (.error (notFound kind.resourceName name), cluster)
  | some object =>
      let kept :=
        match object.at? ["metadata", "finalizers"] with
        | some (.array (_ :: _)) => true
        | _ => false
      let cluster :=
        if kept then
          let metadata := ((object.get? "metadata").getD .null).set "deletionTimestamp"
            (.text deletionTime)
          cluster.insert kind.name space name (object.set "metadata" metadata)
        else cluster.remove kind.name space name
      (.ok (), cluster.logged .delete kind space name
        (some (.ofMembers [("foreground", .bool true)])))

def servePatch (kind : Kind) (space name : String) (change : Json) (cluster : Cluster) :
    Except ApiFailure kind.Object × Cluster :=
  match cluster.find? kind.name space name with
  | none => (.error (notFound kind.resourceName name), cluster)
  | some object =>
      let changed := change.mergePatch object
      (readAs kind changed,
        (cluster.insert kind.name space name changed).logged .patch kind space name (some change))

def serveStatus (kind : Kind) (space name : String) (object : kind.Object) (cluster : Cluster) :
    Except ApiFailure kind.Object × Cluster :=
  match cluster.find? kind.name space name with
  | none => (.error (notFound kind.resourceName name), cluster)
  | some stored =>
      let body := kind.write object
      let version := stored.at? ["metadata", "resourceVersion"]
      if version.bind Json.text? = (kind.metadata object).resourceVersion then
        let status := (body.get? "status").getD .null
        let metadata := ((stored.get? "metadata").getD .null).set "resourceVersion"
          (.text (toString (versionNumber version + 1)))
        let changed := (stored.set "status" status).set "metadata" metadata
        let cluster := cluster.insert kind.name space name changed
        (readAs kind changed, cluster.logged .status kind space name (some status))
      else (.error (modified kind name), cluster)

/-- What a call is, for the faults: its verb, and the kind and name of its
object. -/
def subject : Request → Verb × String × String
  | .list kind _ _ => (.list, kind.name, "")
  | .get kind _ name => (.get, kind.name, name)
  | .create kind _ object => (.create, kind.name, (kind.metadata object).name.getD "")
  | .delete kind _ name => (.delete, kind.name, name)
  | .patch kind _ name _ => (.patch, kind.name, name)
  | .replaceStatus kind _ name _ => (.status, kind.name, name)
  | .publish _ => (.event, "Event", "")
  | .findDefinition kind => (.definition, "CustomResourceDefinition", kind.definitionName)

def serveSoundly :
    (request : Request) → Cluster → Except ApiFailure request.Reply × Cluster
  | .list kind space selector, cluster => (serveList kind space selector cluster, cluster)
  | .get kind space name, cluster => (serveGet kind space name cluster, cluster)
  | .create kind space object, cluster => serveCreate kind space object cluster
  | .delete kind space name, cluster => serveDelete kind space name cluster
  | .patch kind space name change, cluster => servePatch kind space name change cluster
  | .replaceStatus kind space name object, cluster => serveStatus kind space name object cluster
  | .publish event, cluster => (.ok (), { cluster with events := cluster.events ++ [event] })
  | .findDefinition kind, cluster =>
      if cluster.definitions.contains kind.definitionName then (.ok (), cluster)
      else
        (.error (notFound "customresourcedefinitions.apiextensions.k8s.io" kind.definitionName),
          cluster)

def serve (request : Request) (cluster : Cluster) : Answer request × Cluster :=
  let (verb, kind, name) := subject request
  match takeFault verb kind name cluster.faults with
  | some (.refuse status, faults) => (some (.error (.refused status)), { cluster with faults })
  | some (.hang, faults) => (none, { cluster with faults })
  | none =>
      let (reply, cluster) := serveSoundly request cluster
      (some reply, cluster)

end Cluster

end NodeFleet.Store
