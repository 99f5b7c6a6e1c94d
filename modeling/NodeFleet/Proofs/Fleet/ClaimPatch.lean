import NodeFleet.Fleet.OrdinalSet
import NodeFleet.Proofs.Json.PlacePatch
import NodeFleet.Proofs.Json.ReadBack

/-!
# Patches of volume claims

The patch of a volume claim sets the storage that the claim requests, and nothing else.
-/

namespace NodeFleet.Resource

open Json

/-! ## Members that a reader does not look at -/

theorem optional_set_of_ne {α : Type} {key other : String} (different : key ≠ other)
    (json value : Json) (reader : Json → Option α) :
    (json.set key value).optional other reader = json.optional other reader := by
  simp only [Json.optional, get?_set, if_neg different]

theorem optional_set_self {α : Type} {key : String} {value : Json} {read : α}
    {reader : Json → Option α} (refuses : reader .null = none) (reads : reader value = some read)
    (json : Json) : (json.set key value).optional key reader = some (some read) := by
  simp only [Json.optional, get?_set, if_true]
  cases value with
  | null => exact absurd (refuses.symm.trans reads) (by simp)
  | _ => simp only [readNullable, reads, Option.map_some]

theorem agrees_set_of_ne {key other : String} (different : key ≠ other) (json value : Json)
    (expected : String) : agrees (json.set key value) other expected =
      agrees json other expected := by
  simp only [agrees, get?_set, if_neg different]

/-- What is passed on depends on the members of the shape only. -/
theorem normalizeMembers_congr {shapes : List (String × Bool × Shape)} {left right : Json}
    (same : ∀ shape ∈ shapes, left.get? shape.1 = right.get? shape.1) :
    Shape.normalizeMembers shapes left = Shape.normalizeMembers shapes right := by
  induction shapes with
  | nil => simp only [Shape.normalizeMembers]
  | cons shape shapes inductionHypothesis =>
      obtain ⟨first, rest⟩ := List.forall_mem_cons.1 same
      obtain ⟨key, needed, shape⟩ := shape
      simp only [Shape.normalizeMembers, inductionHypothesis rest, first]

theorem exists_rest_of_cons {key : String} {needed : Bool} {shape : Shape}
    {shapes : List (String × Bool × Shape)} {json : Json} {passed : Passed}
    (reads : Shape.normalizeMembers ((key, needed, shape) :: shapes) json = some passed) :
    ∃ rest, Shape.normalizeMembers shapes json = some rest ∧
      (passed = rest ∨ ∃ value, passed = (key, value) :: rest) := by
  simp only [Shape.normalizeMembers, Option.bind_eq_bind, Option.bind_eq_some_iff] at reads
  obtain ⟨rest, restReads, reads⟩ := reads
  refine ⟨rest, restReads, ?_⟩
  split at reads
  · split at reads
    · exact Or.inr ⟨_, (Option.some.inj reads).symm⟩
    · exact Or.inl (Option.some.inj reads).symm
  · split at reads
    · exact Or.inr ⟨_, (Option.some.inj reads).symm⟩
    · exact Or.inl (Option.some.inj reads).symm
  · obtain ⟨value, _, reads⟩ := Option.bind_eq_some_iff.1 reads
    exact Or.inr ⟨value, (Option.some.inj reads).symm⟩

/-- What is passed on has keys of the shape only. -/
theorem exists_shape_of_mem {shapes : List (String × Bool × Shape)} {json : Json}
    {passed : Passed} (reads : Shape.normalizeMembers shapes json = some passed)
    {entry : String × Json} (member : entry ∈ passed) :
    ∃ shape ∈ shapes, shape.1 = entry.1 := by
  induction shapes generalizing passed with
  | nil =>
      simp only [Shape.normalizeMembers, Option.some.injEq] at reads
      subst reads
      cases member
  | cons first shapes inductionHypothesis =>
      obtain ⟨rest, restReads, either⟩ := exists_rest_of_cons reads
      have inFirstOrRest : first.1 = entry.1 ∨ entry ∈ rest := by
        rcases either with rfl | ⟨value, rfl⟩
        · exact Or.inr member
        · exact (List.mem_cons.1 member).imp_left fun same => (congrArg Prod.fst same).symm
      rcases inFirstOrRest with same | inRest
      · exact ⟨first, List.mem_cons_self, same⟩
      · obtain ⟨shape, inShapes, same⟩ := inductionHypothesis restReads inRest
        exact ⟨shape, List.mem_cons_of_mem _ inShapes, same⟩

namespace ClaimResources

theorem read_eq_some_iff {json : Json} {resources : ClaimResources} :
    ClaimResources.read json = some resources ↔ json.members?.isSome = true ∧
      json.optional "limits" readTextMap = some resources.limits ∧
      json.optional "requests" readTextMap = some resources.requests := by
  obtain ⟨limits, requests⟩ := resources
  simp [ClaimResources.read, Option.bind_eq_some_iff, Option.isSome_iff_exists]

theorem get?_write (resources : ClaimResources) :
    resources.write.get? "limits" = resources.limits.map writeTextMap ∧
      resources.write.get? "requests" = resources.requests.map writeTextMap := by
  obtain ⟨limits, requests⟩ := resources
  simp only [ClaimResources.write, ofFields, get?_ofMembers]
  cases limits <;> cases requests <;> exact ⟨rfl, rfl⟩

end ClaimResources

namespace ClaimSpec

theorem read_eq_some_iff {json : Json} {spec : ClaimSpec} :
    ClaimSpec.read json = some spec ↔ json.members?.isSome = true ∧
      json.optional "accessModes" readTexts = some spec.accessModes ∧
      json.optional "dataSource" CoreShapes.typedReference.normalize = some spec.dataSource ∧
      json.optional "resources" ClaimResources.read = some spec.resources ∧
      json.optional "storageClassName" readText = some spec.storageClassName ∧
      readPassed CoreShapes.claimSpecRest json = some spec.passed := by
  obtain ⟨accessModes, dataSource, resources, storageClassName, passed⟩ := spec
  simp [ClaimSpec.read, Option.bind_eq_some_iff, Option.isSome_iff_exists]

theorem get?_write_resources {spec : ClaimSpec}
    (unpassed : ∀ entry ∈ spec.passed, entry.1 ≠ "resources") :
    spec.write.get? "resources" = spec.resources.map ClaimResources.write := by
  obtain ⟨accessModes, dataSource, resources, storageClassName, passed⟩ := spec
  have none : KeyMap.valueIn? "resources" passed.reverse = none :=
    KeyMap.valueIn?_eq_none_iff.2 fun entry member => unpassed entry (List.mem_reverse.1 member)
  rw [ClaimSpec.write, writePassed, get?_ofMembers, List.reverse_append, KeyMap.valueIn?_append,
    none, Option.none_or]
  cases accessModes <;> cases dataSource <;> cases resources <;> cases storageClassName <;> rfl

end ClaimSpec

namespace VolumeClaim

theorem read_eq_some_iff {json : Json} {claim : VolumeClaim} :
    VolumeClaim.read json = some claim ↔ json.members?.isSome = true ∧
      (agrees json "apiVersion" "v1" && agrees json "kind" "PersistentVolumeClaim") = true ∧
      json.lenient "metadata" .empty ObjectMeta.read = some claim.metadata ∧
      json.optional "spec" ClaimSpec.read = some claim.spec ∧
      json.optional "status" ClaimStatus.read = some claim.status := by
  obtain ⟨metadata, spec, status⟩ := claim
  simp [VolumeClaim.read, Option.bind_eq_some_iff, Option.isSome_iff_exists, guard]

theorem get?_write (claim : VolumeClaim) :
    claim.write.get? "apiVersion" = some (.text "v1") ∧
      claim.write.get? "kind" = some (.text "PersistentVolumeClaim") ∧
      claim.write.get? "metadata" = some claim.metadata.write ∧
      claim.write.get? "spec" = claim.spec.map ClaimSpec.write ∧
      claim.write.get? "status" = claim.status.map ClaimStatus.write := by
  obtain ⟨metadata, spec, status⟩ := claim
  simp only [VolumeClaim.write, ofFields, get?_ofMembers]
  cases spec <;> cases status <;> exact ⟨rfl, rfl, rfl, rfl, rfl⟩

end VolumeClaim

theorem ne_resources_of_mem_claimSpecRest :
    ∀ shape ∈ CoreShapes.claimSpecRest, shape.1 ≠ "resources" := by
  simp [CoreShapes.claimSpecRest, CoreShapes.texts, may]

theorem resources_not_passed {json : Json} {passed : Passed}
    (reads : readPassed CoreShapes.claimSpecRest json = some passed) :
    ∀ entry ∈ passed, entry.1 ≠ "resources" := by
  intro entry member same
  obtain ⟨shape, inShapes, sameKey⟩ := exists_shape_of_mem reads member
  exact ne_resources_of_mem_claimSpecRest shape inShapes (sameKey.trans same)

theorem readPassed_set_resources (json value : Json) :
    readPassed CoreShapes.claimSpecRest (json.set "resources" value) =
      readPassed CoreShapes.claimSpecRest json := by
  apply normalizeMembers_congr
  intro shape member
  rw [get?_set, if_neg (ne_resources_of_mem_claimSpecRest shape member).symm]

/-! ## Claims that request other storage -/

/-- The resources with another request for storage, or none. -/
def ClaimResources.requesting (storage : Option String) (resources : ClaimResources) :
    ClaimResources :=
  { resources with requests := some ((resources.requests.getD .empty).put "storage" storage) }

def ClaimSpec.requesting (storage : Option String) (spec : ClaimSpec) : ClaimSpec :=
  { spec with
    resources := some ((spec.resources.getD ⟨none, none⟩).requesting storage) }

/-- The claim with another request for storage, or none, and otherwise the same. -/
def VolumeClaim.requesting (storage : Option String) (claim : VolumeClaim) : VolumeClaim :=
  { claim with spec := some ((claim.spec.getD ⟨none, none, none, none, []⟩).requesting storage) }

theorem VolumeClaim.requestedStorage?_requesting (storage : Option String)
    (claim : VolumeClaim) : (claim.requesting storage).requestedStorage? = storage :=
  KeyMap.find?_put ..

variable {json : Json} {storage : Option String}

/-- The requests that a patch leaves where requests were read or missing. -/
theorem readTextMap_patched {requests : Option TextMap}
    (ordered : json.OrderedAt ["requests"])
    (reads : json.optional "requests" readTextMap = some requests) :
    readTextMap ((placePatch storage "storage" []).mergePatch
        ((json.get? "requests").getD .null)) =
      some ((requests.getD .empty).put "storage" storage) := by
  obtain ⟨missing, there⟩ := getD_get?_of_optional reads
  rw [placePatch, mergePatch_text]
  cases requests with
  | none =>
      rw [missing rfl]
      cases storage with
      | none => rfl
      | some storage => rfl
  | some requests =>
      exact readMap_put_text (ordered.below _ rfl) (there requests rfl) "storage" storage

namespace ClaimResources

/-- The members of resources that were read, or are missing. -/
theorem optional_of_given {resources : Option ClaimResources}
    (reads : json.optional "resources" read = some resources) :
    let member := (json.get? "resources").getD .null
    member.optional "limits" readTextMap = some (resources.getD ⟨none, none⟩).limits ∧
      member.optional "requests" readTextMap = some (resources.getD ⟨none, none⟩).requests := by
  obtain ⟨missing, there⟩ := getD_get?_of_optional reads
  cases resources with
  | none =>
      rw [missing rfl]
      exact ⟨rfl, rfl⟩
  | some resources => exact (read_eq_some_iff.1 (there resources rfl)).2

theorem read_patched {resources : Option ClaimResources}
    (ordered : json.OrderedAt ["resources", "requests"])
    (reads : json.optional "resources" read = some resources) :
    read ((placePatch storage "requests" ["storage"]).mergePatch
        ((json.get? "resources").getD .null)) =
      some ((resources.getD ⟨none, none⟩).requesting storage) := by
  obtain ⟨limits, requests⟩ := optional_of_given reads
  rw [mergePatch_placePatch_cons]
  refine read_eq_some_iff.2 ⟨rfl, ?_, ?_⟩
  · rw [Json.put, optional_set_of_ne (by decide)]
    exact limits
  · exact optional_set_self rfl (readTextMap_patched ordered.below requests) _

end ClaimResources

namespace ClaimSpec

/-- The members of a specification that was read, or is missing. -/
theorem optional_of_given {spec : Option ClaimSpec}
    (reads : json.optional "spec" read = some spec) :
    let member := (json.get? "spec").getD .null
    let given := spec.getD ⟨none, none, none, none, []⟩
    member.optional "accessModes" readTexts = some given.accessModes ∧
      member.optional "dataSource" CoreShapes.typedReference.normalize = some given.dataSource ∧
      member.optional "resources" ClaimResources.read = some given.resources ∧
      member.optional "storageClassName" readText = some given.storageClassName ∧
      readPassed CoreShapes.claimSpecRest member = some given.passed := by
  obtain ⟨missing, there⟩ := getD_get?_of_optional reads
  cases spec with
  | none =>
      rw [missing rfl]
      exact ⟨rfl, rfl, rfl, rfl, rfl⟩
  | some spec => exact (read_eq_some_iff.1 (there spec rfl)).2

theorem read_patched {spec : Option ClaimSpec}
    (ordered : json.OrderedAt ["spec", "resources", "requests"])
    (reads : json.optional "spec" read = some spec) :
    read ((placePatch storage "resources" ["requests", "storage"]).mergePatch
        ((json.get? "spec").getD .null)) =
      some ((spec.getD ⟨none, none, none, none, []⟩).requesting storage) := by
  obtain ⟨accessModes, dataSource, resources, storageClassName, passed⟩ := optional_of_given reads
  rw [mergePatch_placePatch_cons, Json.put]
  refine read_eq_some_iff.2 ⟨rfl, ?_, ?_, ?_, ?_, ?_⟩
  · rw [optional_set_of_ne (by decide)]
    exact accessModes
  · rw [optional_set_of_ne (by decide)]
    exact dataSource
  · exact optional_set_self rfl (ClaimResources.read_patched ordered.below resources) _
  · rw [optional_set_of_ne (by decide)]
    exact storageClassName
  · rw [readPassed_set_resources]
    exact passed

/-- The requests of a specification are written in order. -/
theorem orderedAt_write (spec : ClaimSpec)
    (unpassed : ∀ entry ∈ spec.passed, entry.1 ≠ "resources") :
    spec.write.OrderedAt ["resources", "requests"] := by
  refine orderedAt_of_get? (get?_write_resources unpassed) fun resources _ => ?_
  refine orderedAt_of_get? resources.get?_write.2 fun requests _ => ?_
  intro member found
  obtain rfl := Option.some.inj found
  exact List.pairwise_map.2 requests.increasing

end ClaimSpec

namespace VolumeClaim

theorem read_patched {live : VolumeClaim} (reads : VolumeClaim.read json = some live)
    (ordered : json.OrderedAt ["spec", "resources", "requests"]) :
    VolumeClaim.read ((placePatch storage "spec" ["resources", "requests", "storage"]).mergePatch
      json) = some (live.requesting storage) := by
  obtain ⟨_, form, metadata, spec, status⟩ := read_eq_some_iff.1 reads
  rw [mergePatch_placePatch_cons, Json.put]
  refine read_eq_some_iff.2 ⟨rfl, ?_, ?_, ?_, ?_⟩
  · rw [agrees_set_of_ne (by decide), agrees_set_of_ne (by decide)]
    exact form
  · rw [Json.lenient, optional_set_of_ne (by decide)]
    exact metadata
  · exact optional_set_self rfl (ClaimSpec.read_patched ordered spec) _
  · rw [optional_set_of_ne (by decide)]
    exact status

/-- The requests of a claim are written in order. -/
theorem orderedAt_write {claim : VolumeClaim}
    (legible : VolumeClaim.read claim.write = some claim) :
    claim.write.OrderedAt ["spec", "resources", "requests"] := by
  obtain ⟨_, _, _, readsSpec, _⟩ := read_eq_some_iff.1 legible
  obtain ⟨_, _, _, foundSpec, _⟩ := claim.get?_write
  refine orderedAt_of_get? foundSpec fun spec given => ?_
  have readsBack : ClaimSpec.read spec.write = some spec := by
    have readsGiven := (getD_get?_of_optional readsSpec).2 spec given
    rwa [foundSpec, given] at readsGiven
  obtain ⟨_, _, _, _, _, readsPassed⟩ := ClaimSpec.read_eq_some_iff.1 readsBack
  exact spec.orderedAt_write (resources_not_passed readsPassed)

end VolumeClaim

/-- Patching a claim that is read as it was written sets the storage that it requests,
and keeps its metadata and its status. -/
theorem exists_patched {claim wanted : VolumeClaim} {storage : String}
    (legible : VolumeClaim.read claim.write = some claim)
    (asks : wanted.requestedStorage? = some storage) :
    ∃ changed, VolumeClaim.read
        ((Fleet.MemberKind.updatePatch .volumeClaim wanted).mergePatch claim.write) =
          some changed ∧
      changed.metadata = claim.metadata ∧ changed.status = claim.status ∧
      changed.requestedStorage? = some storage :=
  ⟨_, VolumeClaim.read_patched legible (VolumeClaim.orderedAt_write legible), rfl, rfl,
    (VolumeClaim.requestedStorage?_requesting ..).trans asks⟩

/-! ## What a patch keeps -/

theorem ObjectMeta.labels_of_read {json : Json} {metadata : ObjectMeta}
    (reads : ObjectMeta.read json = some metadata) :
    json.optional "labels" readTextMap = some metadata.labels := by
  unfold ObjectMeta.read at reads
  -- The labels stand between eight other fields and seven more.
  iterate 8 obtain ⟨_, _, reads⟩ := Option.bind_eq_some_iff.1 reads
  obtain ⟨labels, found, reads⟩ := Option.bind_eq_some_iff.1 reads
  iterate 7 obtain ⟨_, _, reads⟩ := Option.bind_eq_some_iff.1 reads
  rw [found, ← Option.some.inj reads]

/-- Labels are read as they were written. -/
theorem ObjectMeta.labels_of_read_write {metadata changed : ObjectMeta}
    (reads : ObjectMeta.read metadata.write = some changed) :
    changed.labels = metadata.labels := by
  have found : metadata.write.get? "labels" = metadata.labels.map writeTextMap := by
    simp [ObjectMeta.write, get?_ofFields_whenSome, get?_ofFields_nil]
  have labels : metadata.write.optional "labels" readTextMap = some metadata.labels :=
    optional_eq_of_get? rfl found fun _ _ => readMap_ofMap fun _ _ => rfl
  exact Option.some.inj ((ObjectMeta.labels_of_read reads).symm.trans labels)

/-- A patch for any desired claim keeps the labels of a claim. -/
theorem VolumeClaim.labels_of_patched {claim wanted changed : VolumeClaim}
    (reads : VolumeClaim.read
      ((Fleet.MemberKind.updatePatch .volumeClaim wanted).mergePatch claim.write) = some changed) :
    changed.metadata.labels = claim.metadata.labels := by
  have patch : ∃ resources : Json, resources ≠ .null ∧
      Fleet.MemberKind.updatePatch .volumeClaim wanted = .object [("spec", resources)] :=
    ⟨_, Json.noConfusion, rfl⟩
  obtain ⟨resources, present, patches⟩ := patch
  obtain ⟨_, _, metadata, _, _⟩ := VolumeClaim.read_eq_some_iff.1 reads
  rw [patches, mergePatch_member present, Json.lenient, optional_set_of_ne (by decide),
    Json.optional, claim.get?_write.2.2.1] at metadata
  have metadataReads : ObjectMeta.read claim.metadata.write = some changed.metadata := by
    simpa [readNullable, ObjectMeta.write, ofFields, ofMembers] using metadata
  exact ObjectMeta.labels_of_read_write metadataReads

end NodeFleet.Resource

namespace NodeFleet.Fleet

open Json Resource

/-! ## Claims that are up to date -/

/-- The place of the storage that a claim requests. -/
def storagePlace : List String := ["spec", "resources", "requests", "storage"]

/-- Whatever claim is live, in whatever form, and whatever claim is desired, with a request for
storage or without: after the patch the live claim is read as it was but for the storage it
requests, so that it does not have to be updated any more.  The patch changes nothing else, apart
from making the objects that the storage is in, and changes nothing when it is applied again. -/
theorem updatePatch_settles {json : Json} {live : VolumeClaim} (desired : VolumeClaim)
    (reads : VolumeClaim.read json = some live)
    (ordered : json.OrderedAt ["spec", "resources", "requests"]) :
    let patch := MemberKind.updatePatch .volumeClaim desired
    let patched := patch.mergePatch json
    (∃ claim, VolumeClaim.read patched = some claim ∧
        claim = live.requesting desired.requestedStorage? ∧
        MemberKind.needsUpdate .volumeClaim claim desired = false) ∧
      patched.at? storagePlace = desired.requestedStorage?.map .text ∧
      (∀ path, ¬ storagePlace <+: path → ¬ path <+: storagePlace →
        patched.at? path = json.at? path) ∧
      (∀ path, path <+: storagePlace → path ≠ storagePlace →
        ∃ members, patched.at? path = some (.object members)) ∧
      patch.mergePatch patched = patched := by
  intro patch patched
  refine ⟨⟨_, VolumeClaim.read_patched reads ordered, rfl, ?upToDate⟩, ?storage, ?others, ?way,
    ?again⟩
  case upToDate =>
    rw [MemberKind.needsUpdate, VolumeClaim.requestedStorage?_requesting, bne_self_eq_false]
  case storage =>
    exact at?_placePatch desired.requestedStorage? "spec" ["resources", "requests", "storage"] json
  case others =>
    intro path below above
    exact at?_placePatch_of_apart below above
  case way =>
    intro path before stops
    exact exists_at?_placePatch before stops
  case again =>
    exact mergePatch_placePatch_idem desired.requestedStorage? "spec"
      ["resources", "requests", "storage"] json

/-- A bound claim that requests storage and also a rate. -/
def ratedClaim : VolumeClaim where
  metadata := { ObjectMeta.empty with name := some "pvc-cosmoshub-0" }
  spec := some {
    accessModes := some ["ReadWriteOnce"], dataSource := none
    resources := some ⟨none, some (.ofList [("iops", "3000"), ("storage", "100Gi")])⟩
    storageClassName := some "premium", passed := [] }
  status := some ⟨some "Bound", []⟩

/-- A patch to no request for storage leaves the other request. -/
theorem updatePatch_settles_ratedClaim :
    let unsized : VolumeClaim := ⟨.empty, none, none⟩
    let patch := MemberKind.updatePatch .volumeClaim unsized
    let patched := patch.mergePatch ratedClaim.write
    VolumeClaim.read ratedClaim.write = some ratedClaim ∧
      ratedClaim.write.OrderedAt ["spec", "resources", "requests"] ∧
      (∃ claim, VolumeClaim.read patched = some claim ∧
        MemberKind.needsUpdate .volumeClaim claim unsized = false) ∧
      patched.at? storagePlace = none ∧
      patched.at? ["spec", "resources", "requests", "iops"] = some (.text "3000") ∧
      patch.mergePatch patched = patched := by
  have legible : VolumeClaim.read ratedClaim.write = some ratedClaim := rfl
  have ordered := VolumeClaim.orderedAt_write legible
  obtain ⟨⟨claim, reads, _, upToDate⟩, removed, others, _, again⟩ :=
    updatePatch_settles ⟨.empty, none, none⟩ legible ordered
  have apart := others ["spec", "resources", "requests", "iops"] (by decide) (by decide)
  exact ⟨legible, ordered, ⟨claim, reads, upToDate⟩, removed, apart.trans rfl, again⟩

end NodeFleet.Fleet
