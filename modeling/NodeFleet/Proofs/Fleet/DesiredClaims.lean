import NodeFleet.Proofs.Fleet.ClaimPatch
import NodeFleet.Proofs.Fleet.DesiredPods

/-!
# The desired volume claims

The desired claims of a full node have distinct names, state their positions, carry the
labels by which the full node finds its claims, and request the storage of the template.
-/

namespace NodeFleet.Resource

open Fleet Store Text

namespace FullNode

variable {node : FullNode}

theorem mem_desiredClaims_iff (node : FullNode) (claim : VolumeClaim) :
    claim ∈ node.desiredClaims ↔ ∃ index : Nat, index < node.spec.replicas.toNat ∧
      claim = node.newClaim index := by
  simp only [desiredClaims, ordinals, List.map_map, List.mem_map, List.mem_range]
  constructor
  · rintro ⟨index, below, rfl⟩
    exact ⟨index, below, rfl⟩
  · rintro ⟨index, below, rfl⟩
    exact ⟨index, below, rfl⟩

theorem length_desiredClaims (node : FullNode) :
    node.desiredClaims.length = node.spec.replicas.toNat := by
  simp [desiredClaims, ordinals]

theorem length_desiredClaims_fits (node : FullNode)
    (replicasFit : node.spec.replicas ≤ Bounds.int32.high) :
    (node.desiredClaims.length : Int) ≤ Bounds.int32.high := by
  have length := node.length_desiredClaims
  have positive : (0 : Int) ≤ Bounds.int32.high := by decide
  omega

theorem claimName_eq (node : FullNode) (ordinal : Int) :
    node.claimName ordinal = "pvc-" ++ node.podName ordinal := by
  have texts : "pvc-" ++ node.name ++ "-" ++ toString ordinal =
      "pvc-" ++ (node.name ++ "-" ++ toString ordinal) := by
    simp only [String.append_assoc]
  exact texts

theorem claimName_ne_empty (node : FullNode) (ordinal : Int) : node.claimName ordinal ≠ "" := by
  intro empty
  have letters := congrArg String.toList (node.claimName_eq ordinal ▸ empty)
  simp at letters

theorem claimName_eq_iff {node other : FullNode} {left right : Nat} :
    node.claimName left = other.claimName right ↔ node.name = other.name ∧ left = right := by
  rw [claimName_eq, claimName_eq, ← podName_eq_iff]
  constructor
  · intro same
    have lists := congrArg String.toList same
    simp only [String.toList_append, List.append_cancel_left_eq] at lists
    exact String.toList_injective lists
  · rintro same
    rw [same]

theorem claimName_injective (node : FullNode) {left right : Nat}
    (same : node.claimName left = node.claimName right) : left = right :=
  (claimName_eq_iff.1 same).2

theorem desiredClaims_nodup (node : FullNode) :
    (node.desiredClaims.map fun claim => claim.metadata.shownName).Nodup := by
  simp only [desiredClaims, ordinals, List.map_map]
  refine List.nodup_range.map_on fun left _ right _ same => ?_
  exact node.claimName_injective same

theorem ordinalText?_newClaim (node : FullNode) (ordinal : Int) :
    (node.newClaim ordinal).metadata.ordinalText? = some (toString ordinal) := by
  simp [ObjectMeta.ordinalText?, newClaim, memberMetadata, ObjectMeta.annotationMap,
    KeyMap.find?_insert, KeyMap.ofList]

theorem hasPosition_of_desiredClaim {claim : VolumeClaim} (desired : claim ∈ node.desiredClaims)
    (replicasFit : node.spec.replicas ≤ Bounds.int32.high) :
    HasPosition VolumeClaim.metadata claim := by
  obtain ⟨index, below, rfl⟩ := (node.mem_desiredClaims_iff claim).1 desired
  exact hasPosition_of_ordinal (node.ordinalText?_newClaim index) below replicasFit

theorem requestedStorage?_newClaim (node : FullNode) (ordinal : Int) :
    (node.newClaim ordinal).requestedStorage? = some node.spec.claimTemplate.storage := rfl

end FullNode

end NodeFleet.Resource
