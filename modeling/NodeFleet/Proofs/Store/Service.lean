import NodeFleet.Proofs.Store.Registry

/-!
# What an API server answers

The relation `Serves` lists every answer that a server may give to a call, and
what the server holds afterwards.  The server is free where real ones differ: it
stamps new objects, it removes an object at once or lets it terminate first, and
it may leave some calls without effect.  A call that fails does not claim that
its object is missing: that answer is kept for objects that are.
-/

namespace NodeFleet.Store

open Calendar Resource

/-- Whether a failure says of an object that it is not there. -/
def ApiFailure.claimsMissing : ApiFailure → Bool
  | .refused status => status.saysNotFound || status.code == 404
  | _ => false

/-- The place that a call may change. -/
def Request.place? : Request → Option (Kind × String × String)
  | .create kind space object => some (kind, space, (kind.metadata object).name.getD "")
  | .delete kind space name => some (kind, space, name)
  | .patch kind space name _ => some (kind, space, name)
  | .replaceStatus kind space name _ => some (kind, space, name)
  | _ => none

/-- What a server keeps of the metadata of a new object; the rest is its own to
fill in. -/
structure Stamped (space : String) (written stored : ObjectMeta) : Prop where
  name : stored.name = written.name
  inSpace : stored.namespaceName = some space
  labels : stored.labels = written.labels
  annotations : stored.annotations = written.annotations
  owners : stored.ownerReferences = written.ownerReferences
  living : stored.deletionTimestamp = none

namespace Kind

def doomed (kind : Kind) (time : Timestamp) (object : kind.Object) : kind.Object :=
  kind.withMetadata { kind.metadata object with deletionTimestamp := some time } object

def renewed (kind : Kind) (version : String) (written stored : kind.Object) : kind.Object :=
  kind.withMetadata { kind.metadata stored with resourceVersion := some version }
    (kind.withStatusOf written stored)

end Kind

/-- What a server may answer to a call on what it holds, and what it holds
afterwards. -/
inductive Serves (mayFail : Request → Prop) :
    (request : Request) → Registry → Answer request → Registry → Prop
  | listed (kind : Kind) (space selector : String) (registry : Registry) :
      Serves mayFail (.list kind space selector) registry
        (some (.ok (registry.selected kind space selector))) registry
  | found {kind : Kind} {space name : String} {object : kind.Object} {registry : Registry}
      (there : registry.find? kind space name = some object) :
      Serves mayFail (.get kind space name) registry (some (.ok object)) registry
  | missing {kind : Kind} {space name : String} {registry : Registry}
      (absent : registry.find? kind space name = none) :
      Serves mayFail (.get kind space name) registry
        (some (.error (Cluster.notFound kind.resourceName name))) registry
  | created {kind : Kind} {space name : String} {object : kind.Object} {metadata : ObjectMeta}
      {before after : Registry}
      (named : (kind.metadata object).name = some name)
      (absent : before.find? kind space name = none)
      (stamped : Stamped space (kind.metadata object) metadata)
      (sets : before.Sets kind space name (some (kind.withMetadata metadata object)) after) :
      Serves mayFail (.create kind space object) before
        (some (.ok (kind.withMetadata metadata object))) after
  | taken {kind : Kind} {space name : String} {object other : kind.Object}
      {registry : Registry}
      (named : (kind.metadata object).name = some name)
      (there : registry.find? kind space name = some other) :
      Serves mayFail (.create kind space object) registry
        (some (.error (Cluster.alreadyExists kind name))) registry
  | nameless {kind : Kind} {space : String} {object : kind.Object} {registry : Registry}
      (unnamed : (kind.metadata object).name = none) :
      Serves mayFail (.create kind space object) registry (some (.error .unnamed)) registry
  | removed {kind : Kind} {space name : String} {object : kind.Object}
      {before after : Registry}
      (there : before.find? kind space name = some object)
      (sets : before.Sets kind space name none after) :
      Serves mayFail (.delete kind space name) before (some (.ok ())) after
  | doomed {kind : Kind} {space name : String} {object : kind.Object} {time : Timestamp}
      {before after : Registry}
      (there : before.find? kind space name = some object)
      (sets : before.Sets kind space name (some (kind.doomed time object)) after) :
      Serves mayFail (.delete kind space name) before (some (.ok ())) after
  | nothingToDelete {kind : Kind} {space name : String} {registry : Registry}
      (absent : registry.find? kind space name = none) :
      Serves mayFail (.delete kind space name) registry
        (some (.error (Cluster.notFound kind.resourceName name))) registry
  | patched {kind : Kind} {space name : String} {change : Json} {object changed : kind.Object}
      {before after : Registry}
      (there : before.find? kind space name = some object)
      (reads : kind.read (change.mergePatch (kind.write object)) = some changed)
      (sets : before.Sets kind space name (some changed) after) :
      Serves mayFail (.patch kind space name change) before (some (.ok changed)) after
  | misfit {kind : Kind} {space name : String} {change : Json} {object : kind.Object}
      {registry : Registry}
      (there : registry.find? kind space name = some object)
      (fits : ∀ changed, kind.read (change.mergePatch (kind.write object)) = some changed →
        ¬ kind.IsPlaced space name changed) :
      Serves mayFail (.patch kind space name change) registry (some (.error .unreadable))
        registry
  | nothingToPatch {kind : Kind} {space name : String} {change : Json} {registry : Registry}
      (absent : registry.find? kind space name = none) :
      Serves mayFail (.patch kind space name change) registry
        (some (.error (Cluster.notFound kind.resourceName name))) registry
  | renewed {kind : Kind} {space name version : String} {written stored : kind.Object}
      {before after : Registry}
      (there : before.find? kind space name = some stored)
      (current : (kind.metadata stored).resourceVersion =
        (kind.metadata written).resourceVersion)
      (fresh : (kind.metadata stored).resourceVersion ≠ some version)
      (sets : before.Sets kind space name (some (kind.renewed version written stored)) after) :
      Serves mayFail (.replaceStatus kind space name written) before
        (some (.ok (kind.renewed version written stored))) after
  | outdated {kind : Kind} {space name : String} {written stored : kind.Object}
      {registry : Registry}
      (there : registry.find? kind space name = some stored)
      (changed : (kind.metadata stored).resourceVersion ≠
        (kind.metadata written).resourceVersion) :
      Serves mayFail (.replaceStatus kind space name written) registry
        (some (.error (Cluster.modified kind name))) registry
  | nothingToRenew {kind : Kind} {space name : String} {written : kind.Object}
      {registry : Registry}
      (absent : registry.find? kind space name = none) :
      Serves mayFail (.replaceStatus kind space name written) registry
        (some (.error (Cluster.notFound kind.resourceName name))) registry
  | published (event : Event) (registry : Registry) :
      Serves mayFail (.publish event) registry (some (.ok ())) registry
  | defined {kind : Kind} {registry : Registry}
      (known : kind.definitionName ∈ registry.definitions) :
      Serves mayFail (.findDefinition kind) registry (some (.ok ())) registry
  | undefined {kind : Kind} {registry : Registry}
      (unknown : kind.definitionName ∉ registry.definitions) :
      Serves mayFail (.findDefinition kind) registry
        (some (.error
          (Cluster.notFound "customresourcedefinitions.apiextensions.k8s.io"
            kind.definitionName))) registry
  | failed {request : Request} {failure : ApiFailure} {registry : Registry}
      (may : mayFail request) (honest : failure.claimsMissing = false) :
      Serves mayFail request registry (some (.error failure)) registry
  | unanswered {request : Request} {registry : Registry} (may : mayFail request) :
      Serves mayFail request registry none registry

namespace Serves

variable {mayFail : Request → Prop} {request : Request} {before after : Registry}
  {answer : Answer request}

/-- A call changes nothing but the place that it is for. -/
theorem find?_eq (served : Serves mayFail request before answer after)
    {kind : Kind} {space name : String}
    (other : request.place? ≠ some (kind, space, name)) :
    after.find? kind space name = before.find? kind space name := by
  cases served with
  | created named absent stamped sets =>
      refine sets.elsewhere kind space name fun same => other ?_
      simp [Request.place?, named, same]
  | removed there sets => exact sets.elsewhere _ _ _ fun same => other (by rw [same]; rfl)
  | doomed there sets => exact sets.elsewhere _ _ _ fun same => other (by rw [same]; rfl)
  | patched there reads sets => exact sets.elsewhere _ _ _ fun same => other (by rw [same]; rfl)
  | renewed there current fresh sets =>
      exact sets.elsewhere _ _ _ fun same => other (by rw [same]; rfl)
  | _ => rfl

/-- The labels of an object that is found after a call are those that it had before, or
those that it was created with, unless a patch changes them. -/
theorem labels_cases (served : Serves mayFail request before answer after) {kind : Kind}
    {space name : String} {object : kind.Object}
    (found : after.find? kind space name = some object)
    (patches : ∀ change, request = .patch kind space name change →
      ∀ stored changed, kind.read (change.mergePatch (kind.write stored)) = some changed →
        (kind.metadata changed).labels = (kind.metadata stored).labels) :
    (∃ stored, before.find? kind space name = some stored ∧
      (kind.metadata object).labels = (kind.metadata stored).labels) ∨
    ∃ written, request = .create kind space written ∧
      (kind.metadata written).name = some name ∧
      (kind.metadata object).labels = (kind.metadata written).labels := by
  by_cases aimed : request.place? = some (kind, space, name)
  · cases served with
    | created named absent stamped sets =>
        obtain ⟨rfl, rfl, rfl⟩ : _ = kind ∧ _ = space ∧ _ = name := by
          simpa [Request.place?, named] using aimed
        obtain rfl := Option.some.inj (sets.here.symm.trans found)
        exact Or.inr ⟨_, rfl, named, by rw [Kind.metadata_withMetadata, stamped.labels]⟩
    | removed there sets =>
        obtain ⟨rfl, rfl, rfl⟩ : _ = kind ∧ _ = space ∧ _ = name := by
          simpa [Request.place?] using aimed
        exact absurd (sets.here.symm.trans found) (by simp)
    | doomed there sets =>
        obtain ⟨rfl, rfl, rfl⟩ : _ = kind ∧ _ = space ∧ _ = name := by
          simpa [Request.place?] using aimed
        obtain rfl := Option.some.inj (sets.here.symm.trans found)
        exact Or.inl ⟨_, there, by rw [Kind.doomed, Kind.metadata_withMetadata]⟩
    | patched there reads sets =>
        obtain ⟨rfl, rfl, rfl⟩ : _ = kind ∧ _ = space ∧ _ = name := by
          simpa [Request.place?] using aimed
        obtain rfl := Option.some.inj (sets.here.symm.trans found)
        exact Or.inl ⟨_, there, patches _ rfl _ _ reads⟩
    | renewed there current fresh sets =>
        obtain ⟨rfl, rfl, rfl⟩ : _ = kind ∧ _ = space ∧ _ = name := by
          simpa [Request.place?] using aimed
        obtain rfl := Option.some.inj (sets.here.symm.trans found)
        exact Or.inl ⟨_, there, by rw [Kind.renewed, Kind.metadata_withMetadata]⟩
    | _ => exact Or.inl ⟨object, found, rfl⟩
  · rw [served.find?_eq aimed] at found
    exact Or.inl ⟨object, found, rfl⟩

end Serves

/-! ## A server always has an answer -/

/-- What a server may keep of the metadata of a new object. -/
def stamp (space : String) (written : ObjectMeta) : ObjectMeta :=
  { written with namespaceName := some space, deletionTimestamp := none }

theorem stamped_stamp (space : String) (written : ObjectMeta) :
    Stamped space written (stamp space written) :=
  ⟨rfl, rfl, rfl, rfl, rfl, rfl⟩

def otherVersion (version : Option String) : String := if version = some "1" then "2" else "1"

theorem ne_otherVersion (version : Option String) : version ≠ some (otherVersion version) := by
  unfold otherVersion
  split
  · rename_i same
    rw [same]
    decide
  · assumption

/-- What a server answers that never fails and removes objects at once, and what it holds
afterwards. -/
def respond : (request : Request) → Registry → Answer request × Registry
  | .list kind space selector, registry =>
      (some (.ok (registry.selected kind space selector)), registry)
  | .get kind space name, registry =>
      match registry.find? kind space name with
      | some object => (some (.ok object), registry)
      | none => (some (.error (Cluster.notFound kind.resourceName name)), registry)
  | .create kind space object, registry =>
      match (kind.metadata object).name with
      | none => (some (.error .unnamed), registry)
      | some name =>
          match registry.find? kind space name with
          | some _ => (some (.error (Cluster.alreadyExists kind name)), registry)
          | none =>
              let stored := kind.withMetadata (stamp space (kind.metadata object)) object
              (some (.ok stored), registry.put kind space name stored)
  | .delete kind space name, registry =>
      match registry.find? kind space name with
      | some _ => (some (.ok ()), registry.drop kind space name)
      | none => (some (.error (Cluster.notFound kind.resourceName name)), registry)
  | .patch kind space name change, registry =>
      match registry.find? kind space name with
      | none => (some (.error (Cluster.notFound kind.resourceName name)), registry)
      | some object =>
          match kind.read (change.mergePatch (kind.write object)) with
          | none => (some (.error .unreadable), registry)
          | some changed =>
              if kind.IsPlaced space name changed then
                (some (.ok changed), registry.put kind space name changed)
              else (some (.error .unreadable), registry)
  | .replaceStatus kind space name written, registry =>
      match registry.find? kind space name with
      | none => (some (.error (Cluster.notFound kind.resourceName name)), registry)
      | some stored =>
          if (kind.metadata stored).resourceVersion = (kind.metadata written).resourceVersion then
            let version := otherVersion (kind.metadata stored).resourceVersion
            let renewed := kind.renewed version written stored
            (some (.ok renewed), registry.put kind space name renewed)
          else (some (.error (Cluster.modified kind name)), registry)
  | .publish _, registry => (some (.ok ()), registry)
  | .findDefinition kind, registry =>
      if kind.definitionName ∈ registry.definitions then (some (.ok ()), registry)
      else
        (some (.error (Cluster.notFound "customresourcedefinitions.apiextensions.k8s.io"
          kind.definitionName)), registry)

section Responding

variable {kind : Kind} {space name : String} {object stored : kind.Object}

/-- An object that is created with a name is stored under it. -/
theorem isPlaced_stamp (named : (kind.metadata object).name = some name) :
    kind.IsPlaced space name
      (kind.withMetadata (stamp space (kind.metadata object)) object) where
  named := by
    rw [Kind.metadata_withMetadata]
    exact named
  inSpace := by
    rw [Kind.metadata_withMetadata]
    rfl

/-- An object keeps its place when its status is replaced. -/
theorem isPlaced_renewed (version : String) (written : kind.Object)
    (placed : kind.IsPlaced space name stored) :
    kind.IsPlaced space name (kind.renewed version written stored) where
  named := by
    rw [Kind.renewed, Kind.metadata_withMetadata]
    exact placed.named
  inSpace := by
    rw [Kind.renewed, Kind.metadata_withMetadata]
    exact placed.inSpace

theorem serves_respond_create (mayFail : Request → Prop) (kind : Kind) (space : String)
    (object : kind.Object) (before : Registry) :
    Serves mayFail (.create kind space object) before
      (respond (.create kind space object) before).1
      (respond (.create kind space object) before).2 := by
  cases named : (kind.metadata object).name with
  | none =>
      simp only [respond, named]
      exact .nameless named
  | some name =>
      cases there : before.find? kind space name with
      | some other =>
          simp only [respond, named, there]
          exact .taken named there
      | none =>
          simp only [respond, named, there]
          exact .created named there (stamped_stamp space _)
            (before.sets_put (isPlaced_stamp named))

theorem serves_respond_patch (mayFail : Request → Prop) (kind : Kind) (space name : String)
    (change : Json) (before : Registry) :
    Serves mayFail (.patch kind space name change) before
      (respond (.patch kind space name change) before).1
      (respond (.patch kind space name change) before).2 := by
  cases there : before.find? kind space name with
  | none =>
      simp only [respond, there]
      exact .nothingToPatch there
  | some object =>
      cases reads : kind.read (change.mergePatch (kind.write object)) with
      | none =>
          simp only [respond, there, reads]
          exact .misfit there fun changed readsToo => by simp [reads] at readsToo
      | some changed =>
          simp only [respond, there, reads]
          by_cases placed : kind.IsPlaced space name changed
          · rw [if_pos placed]
            exact .patched there reads (before.sets_put placed)
          · rw [if_neg placed]
            refine .misfit there fun other readsToo => ?_
            obtain rfl := Option.some.inj (reads.symm.trans readsToo)
            exact placed

theorem serves_respond_replaceStatus (mayFail : Request → Prop) (kind : Kind)
    (space name : String) (written : kind.Object) (before : Registry) :
    Serves mayFail (.replaceStatus kind space name written) before
      (respond (.replaceStatus kind space name written) before).1
      (respond (.replaceStatus kind space name written) before).2 := by
  cases there : before.find? kind space name with
  | none =>
      simp only [respond, there]
      exact .nothingToRenew there
  | some stored =>
      simp only [respond, there]
      by_cases current : (kind.metadata stored).resourceVersion =
          (kind.metadata written).resourceVersion
      · have placed := Registry.isPlaced_of_find? there
        rw [if_pos current]
        exact .renewed there current (ne_otherVersion _)
          (before.sets_put (isPlaced_renewed _ written placed))
      · rw [if_neg current]
        exact .outdated there current

theorem serves_respond (mayFail : Request → Prop) (request : Request) (before : Registry) :
    Serves mayFail request before (respond request before).1 (respond request before).2 := by
  cases request with
  | list kind space selector => exact .listed kind space selector before
  | get kind space name =>
      cases there : before.find? kind space name with
      | none =>
          simp only [respond, there]
          exact .missing there
      | some object =>
          simp only [respond, there]
          exact .found there
  | create kind space object => exact serves_respond_create mayFail kind space object before
  | delete kind space name =>
      cases there : before.find? kind space name with
      | none =>
          simp only [respond, there]
          exact .nothingToDelete there
      | some object =>
          simp only [respond, there]
          exact .removed there (before.sets_drop kind space name)
  | patch kind space name change =>
      exact serves_respond_patch mayFail kind space name change before
  | replaceStatus kind space name written =>
      exact serves_respond_replaceStatus mayFail kind space name written before
  | publish event => exact .published event before
  | findDefinition kind =>
      by_cases known : kind.definitionName ∈ before.definitions
      · simp only [respond, if_pos known]
        exact .defined known
      · simp only [respond, if_neg known]
        exact .undefined known

end Responding

end NodeFleet.Store
