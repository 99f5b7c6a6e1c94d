import NodeFleet.Fleet.Converge
import NodeFleet.Proofs.Fleet.Availability
import NodeFleet.Proofs.Fleet.DesiredPods

/-!
# Stale pods

A cluster may hold every desired pod of a full node, available and outdated.
-/

namespace NodeFleet.Fleet

open Calendar Resource Store Text

def readyStatus : PodStatus :=
  { conditions := some [
      { kind := "Ready", status := "True", lastTransitionTime := none, passed := [] }]
    passed := [] }

/-- A pod as it is live, ready and without its digest. -/
def stalePod (pod : Pod) : Pod :=
  { metadata := { pod.metadata with
      annotations := some (pod.metadata.annotationMap.erase podHashKey) }
    spec := pod.spec
    status := some readyStatus }

theorem digest?_stalePod (pod : Pod) : (stalePod pod).digest? = none := by
  simp [stalePod, Pod.digest?, ObjectMeta.annotationMap, KeyMap.find?_erase]

theorem ordinalText?_stalePod (pod : Pod) :
    (stalePod pod).metadata.ordinalText? = pod.metadata.ordinalText? := by
  have other : podHashKey ≠ ordinalKey := by decide
  simp [stalePod, ObjectMeta.ordinalText?, ObjectMeta.annotationMap, KeyMap.find?_erase, other]

theorem isAvailable_stalePod {pod : Pod} {minReadySeconds : Int} {now : Instant}
    (living : pod.metadata.isTerminating = false)
    (longAgo : Instant.earliest.addSeconds minReadySeconds ≤ now) :
    (stalePod pod).isAvailable minReadySeconds now = true := by
  have since : (stalePod pod).readySince? = some .earliest := rfl
  have same : (stalePod pod).metadata.isTerminating = pod.metadata.isTerminating := rfl
  simp [Pod.isAvailable, same, living, since, longAgo]

def podSet (node : FullNode) (space : String) : OrdinalSet :=
  componentSet node space FullNode.podComponent

/-- The pods that a registry holds are just the desired ones of a full node, each of them
stale. -/
def HoldsStale (node : FullNode) (space : String) (registry : Registry) : Prop :=
  ∀ (name : String) (object : Pod), registry.find? .pod space name = some object ↔
    object ∈ node.desiredPods.map stalePod ∧ object.metadata.shownName = name

section Holding

variable {node : FullNode} {space : String} {registry : Registry}

/-- A cluster with the stale pods and nothing else. -/
def staleCluster (node : FullNode) (space : String) : Registry :=
  Registry.empty.fill .pod space (node.desiredPods.map stalePod)

theorem holdsStale_staleCluster (inSpace : node.metadata.namespaceName = some space) :
    HoldsStale node space (staleCluster node space) := by
  refine Registry.empty.find?_fill_iff .pod space (fun _ => rfl) _ ?_ ?_
  · intro object member
    obtain ⟨pod, inDesired, rfl⟩ := List.mem_map.1 member
    obtain ⟨index, _, rfl, _⟩ := (node.mem_desiredPods_iff pod).1 inDesired
    exact ⟨rfl, inSpace⟩
  · rw [List.map_map]
    exact node.desiredPods_nodup

theorem HoldsStale.find?_eq (holds : HoldsStale node space registry) {pod : Pod}
    (inDesired : pod ∈ node.desiredPods) :
    registry.find? .pod space pod.metadata.shownName = some (stalePod pod) :=
  (holds _ _).2 ⟨List.mem_map_of_mem inDesired, rfl⟩

theorem HoldsStale.mem_listed (holds : HoldsStale node space registry)
    (plain : ',' ∉ node.name.toList) {pod : Pod} (inDesired : pod ∈ node.desiredPods) :
    stalePod pod ∈ (podSet node space).listed .pod registry := by
  refine registry.mem_selected_iff.2 ⟨holds.find?_eq inDesired, ?_⟩
  obtain ⟨index, _, rfl, _⟩ := (node.mem_desiredPods_iff pod).1 inDesired
  exact FullNode.selects_labelsFor plain (by decide)

theorem HoldsStale.exists_of_mem_listed (holds : HoldsStale node space registry) {live : Pod}
    (member : live ∈ (podSet node space).listed .pod registry) :
    ∃ pod ∈ node.desiredPods, stalePod pod = live :=
  List.mem_map.1 ((holds _ _).1 (registry.mem_selected_iff.1 member).1).1

theorem HoldsStale.comparable (holds : HoldsStale node space registry)
    (replicasFit : node.spec.replicas ≤ Bounds.int32.high)
    (limitFits : ∀ limit, node.maxUnavailable = some (.number limit) →
      limit ≤ Bounds.int32.high) :
    (podSet node space).Comparable node.desiredPods registry where
  listed_readable := by
    intro live member
    obtain ⟨pod, inDesired, rfl⟩ := holds.exists_of_mem_listed member
    unfold HasPosition
    rw [ordinalText?_stalePod]
    exact FullNode.hasPosition_of_desired inDesired replicasFit
  desired_readable := fun pod inDesired => FullNode.hasPosition_of_desired inDesired replicasFit
  desired_nodup := node.desiredPods_nodup
  desired_fits := node.length_desiredPods_fits replicasFit
  limit_fits := limitFits

theorem HoldsStale.matching (holds : HoldsStale node space registry)
    (plain : ',' ∉ node.name.toList) :
    (podSet node space).Matches node.desiredPods registry where
  desired_of_listed := by
    intro live member
    obtain ⟨pod, inDesired, rfl⟩ := holds.exists_of_mem_listed member
    exact ⟨pod, inDesired, rfl⟩
  listed_of_desired := fun pod inDesired =>
    ⟨stalePod pod, holds.mem_listed plain inDesired, rfl⟩

theorem HoldsStale.available_eq (holds : HoldsStale node space registry) {now : Instant}
    (longAgo : Instant.earliest.addSeconds node.minReadySeconds ≤ now) :
    (podSet node space).available node.desiredPods now registry = node.desiredPods.length := by
  refine List.countP_eq_length.2 fun pod inDesired => ?_
  have living : pod.metadata.isTerminating = false := by
    obtain ⟨index, _, rfl, _⟩ := (node.mem_desiredPods_iff pod).1 inDesired
    rfl
  have stored : registry.find? .pod (podSet node space).space pod.metadata.shownName =
      some (stalePod pod) := holds.find?_eq inDesired
  unfold OrdinalSet.isAvailableAt
  rw [stored, Option.any_some]
  exact isAvailable_stalePod living longAgo

theorem digest?_stalePod_ne {pod : Pod} (inDesired : pod ∈ node.desiredPods) :
    (stalePod pod).digest? ≠ pod.digest? := by
  obtain ⟨index, _, rfl, _⟩ := (node.mem_desiredPods_iff pod).1 inDesired
  rw [digest?_stalePod, FullNode.digest?_newPod]
  exact fun none => nomatch none

/-- Nothing but stale pods is at the names of the desired ones. -/
theorem HoldsStale.mem_listed_of_found (holds : HoldsStale node space registry)
    (plain : ',' ∉ node.name.toList) {name : String} {object : Pod}
    (found : registry.find? .pod space name = some object) :
    object ∈ (podSet node space).listed .pod registry := by
  obtain ⟨pod, inDesired, rfl⟩ := List.mem_map.1 ((holds _ _).1 found).1
  exact holds.mem_listed plain inDesired

/-- Every desired pod is listed with another digest. -/
theorem HoldsStale.outdated (holds : HoldsStale node space registry)
    (plain : ',' ∉ node.name.toList) {pod : Pod} (inDesired : pod ∈ node.desiredPods) :
    ∃ live ∈ (podSet node space).listed .pod registry,
      (Pod.metadata live).shownName = pod.metadata.shownName ∧ Pod.digest? live ≠ pod.digest? :=
  ⟨stalePod pod, holds.mem_listed plain inDesired, rfl, digest?_stalePod_ne inDesired⟩

end Holding

end NodeFleet.Fleet
