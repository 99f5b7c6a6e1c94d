import Mathlib.Data.List.Nodup
import NodeFleet.Fleet.Desired
import NodeFleet.Proofs.Fleet.OrdinalDiff
import NodeFleet.Proofs.Resource.Selector
import NodeFleet.Proofs.Text.Decimal

/-!
# The desired pods

The desired pods of a full node have distinct names, state their positions and carry
the labels by which the full node finds its pods.
-/

namespace NodeFleet.Resource

open Fleet Store Text

namespace FullNode

variable {node : FullNode}

theorem mem_desiredPods_iff (node : FullNode) (pod : Pod) :
    pod ∈ node.desiredPods ↔ ∃ index : Nat, index < node.spec.replicas.toNat ∧
      pod = node.newPod index ∧ node.podName index ∉ node.heldPodNames := by
  simp only [desiredPods, ordinals, List.map_map, List.mem_filter, List.mem_map, List.mem_range]
  constructor
  · rintro ⟨⟨index, below, rfl⟩, free⟩
    exact ⟨index, below, rfl, by simpa [newPod, plainPod, memberMetadata] using free⟩
  · rintro ⟨index, below, rfl, free⟩
    exact ⟨⟨index, below, rfl⟩, by simpa [newPod, plainPod, memberMetadata] using free⟩

theorem podName_ne_empty (node : FullNode) (ordinal : Int) : node.podName ordinal ≠ "" := by
  intro empty
  have text : node.name ++ "-" ++ toString ordinal = "" := empty
  have letters := congrArg String.toList text
  simp only [String.toList_append, String.toList_empty, List.append_eq_nil_iff] at letters
  exact absurd letters.1.2 (by decide)

theorem toList_podName (node : FullNode) (ordinal : Nat) :
    (node.podName ordinal).toList = node.name.toList ++ '-' :: Nat.toDigits 10 ordinal := by
  have text : node.podName ordinal = node.name ++ "-" ++ toString (Int.ofNat ordinal) := rfl
  have digits : (toString (Int.ofNat ordinal)).toList = Nat.toDigits 10 ordinal := Nat.toList_repr
  rw [text, String.toList_append, String.toList_append, digits, List.append_assoc]
  rfl

/-- The last dash of the name of a pod tells the full node and the ordinal. -/
theorem podName_eq_iff {node other : FullNode} {left right : Nat} :
    node.podName left = other.podName right ↔ node.name = other.name ∧ left = right := by
  constructor
  · intro same
    have lists := congrArg String.toList same
    rw [toList_podName, toList_podName] at lists
    obtain ⟨names, digits⟩ := append_cons_injective_of_notMem
      dash_notMem_toDigits dash_notMem_toDigits lists
    exact ⟨String.toList_injective names, toDigits_injective digits⟩
  · rintro ⟨names, rfl⟩
    simp only [podName, names]

theorem podName_injective (node : FullNode) {left right : Nat}
    (same : node.podName left = node.podName right) : left = right :=
  (podName_eq_iff.1 same).2

theorem desiredPods_nodup (node : FullNode) :
    (node.desiredPods.map fun pod => pod.metadata.shownName).Nodup := by
  refine List.Nodup.sublist (List.filter_sublist.map _) ?_
  simp only [ordinals, List.map_map]
  refine List.nodup_range.map_on fun left _ right _ same => ?_
  exact node.podName_injective same

theorem length_desiredPods_le (node : FullNode) :
    node.desiredPods.length ≤ node.spec.replicas.toNat := by
  have all : (node.ordinals.map node.newPod).length = node.spec.replicas.toNat := by
    simp [ordinals]
  exact all ▸ List.length_filter_le _ _

theorem length_desiredPods_fits (node : FullNode)
    (replicasFit : node.spec.replicas ≤ Bounds.int32.high) :
    (node.desiredPods.length : Int) ≤ Bounds.int32.high := by
  have short := node.length_desiredPods_le
  have positive : (0 : Int) ≤ Bounds.int32.high := by decide
  omega

theorem shownName_not_held {pod : Pod} (desired : pod ∈ node.desiredPods) :
    pod.metadata.shownName ∉ node.heldPodNames := by
  obtain ⟨index, _, rfl, free⟩ := (node.mem_desiredPods_iff pod).1 desired
  exact free

theorem digest?_newPod (node : FullNode) (ordinal : Int) :
    (node.newPod ordinal).digest? = some (node.plainPod ordinal).digest := by
  simp [Pod.digest?, newPod, ObjectMeta.annotationMap, KeyMap.find?_insert]

theorem ordinalText?_newPod (node : FullNode) (ordinal : Int) :
    (node.newPod ordinal).metadata.ordinalText? = some (toString ordinal) := by
  have other : podHashKey ≠ ordinalKey := by decide
  simp [ObjectMeta.ordinalText?, newPod, plainPod, memberMetadata, ObjectMeta.annotationMap,
    KeyMap.find?_insert, KeyMap.ofList, other]

/-- The ordinal of a replica is a position, when the replicas are a 32-bit number. -/
theorem hasPosition_of_ordinal {α : Type} {metadata : α → ObjectMeta} {object : α} {index : Nat}
    (stated : (metadata object).ordinalText? = some (toString (Int.ofNat index)))
    (below : index < node.spec.replicas.toNat)
    (replicasFit : node.spec.replicas ≤ Bounds.int32.high) : HasPosition metadata object := by
  have fits : (index : Int) ≤ Bounds.int64.high := by
    have narrow : Bounds.int32.high ≤ Bounds.int64.high := by decide
    omega
  refine ⟨index, ?_⟩
  rw [stated, Option.getD_some]
  exact readWhole_toString fits

/-- A desired pod states its position. -/
theorem hasPosition_of_desired {pod : Pod} (desired : pod ∈ node.desiredPods)
    (replicasFit : node.spec.replicas ≤ Bounds.int32.high) :
    HasPosition Pod.metadata pod := by
  obtain ⟨index, below, rfl, _⟩ := (node.mem_desiredPods_iff pod).1 desired
  exact hasPosition_of_ordinal (node.ordinalText?_newPod index) below replicasFit

theorem find?_labelsFor (node : FullNode) (component key : String) :
    (node.labelsFor component).find? key =
      if key = componentKey then some component
      else if key = managedByKey then some operatorName
      else if key = instanceKey then some node.name
      else if key = nameKey then some "fullnode"
      else none := by
  simp only [labelsFor, selectorLabels, KeyMap.ofList, List.foldl, KeyMap.find?_insert,
    KeyMap.find?_empty, eq_comm]

/-- The labels of a component carry what its selector asks for. -/
theorem selects_labelsFor (plain : ',' ∉ node.name.toList) {component : String}
    (plainComponent : ',' ∉ component.toList) :
    Cluster.selects (node.componentSelector component) (node.labelsFor component).find? =
      true := by
  have instanceOther : instanceKey ≠ componentKey ∧ instanceKey ≠ managedByKey := by decide
  have nameOther : nameKey ≠ componentKey ∧ nameKey ≠ managedByKey ∧ nameKey ≠ instanceKey := by
    decide
  rw [selects_componentSelector_iff plain plainComponent]
  refine ⟨?_, ?_, ?_⟩
  · simp [find?_labelsFor]
  · simp [find?_labelsFor, instanceOther]
  · simp [find?_labelsFor, nameOther]

/-- A full node of an example, with pods that are held down. -/
def sample (replicas : Int) (held : KeyMap HeldPod) : FullNode :=
  { metadata := { ObjectMeta.empty with
      name := some "cosmoshub"
      namespaceName := some "default" }
    spec := {
      replicas := replicas
      image := "gaia:v18"
      imagePullPolicy := none
      args := []
      env := []
      resources := none
      serviceAccountName := none
      claimTemplate := {
        storage := "100Gi"
        storageClassName := none
        accessModes := []
        mountPath := none
        dataSource := none }
      rolloutStrategy := none
      minReadySeconds := none }
    status := some { FullNodeStatus.initial with heldPods := held } }

end FullNode

end NodeFleet.Resource
