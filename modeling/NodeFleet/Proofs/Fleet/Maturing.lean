import NodeFleet.Proofs.Fleet.ClaimPatch
import NodeFleet.Proofs.Fleet.Ripening
import NodeFleet.Proofs.Fleet.StalePods

/-!
# Members that have matured

Between two passes over a set there is always something that its cluster may make of it: the
members that are being deleted are gone, and the others have got the status that makes them
available.
-/

namespace NodeFleet.Resource

open Json

def boundStatus : ClaimStatus := { phase := some "Bound", passed := [] }

namespace VolumeClaim

/-- A claim that is read as it was written is so when it is bound. -/
theorem read_write_bound {claim : VolumeClaim}
    (legible : VolumeClaim.read claim.write = some claim) :
    VolumeClaim.read { claim with status := some boundStatus }.write =
      some { claim with status := some boundStatus } := by
  obtain ⟨_, sameForm, sameMetadata, sameSpec, _⟩ := read_eq_some_iff.1 legible
  obtain ⟨version, form, metadata, spec, _⟩ := claim.get?_write
  obtain ⟨version', form', metadata', spec', status'⟩ :=
    VolumeClaim.get?_write { claim with status := some boundStatus }
  refine read_eq_some_iff.2 ⟨rfl, ?_, ?_, ?_, ?_⟩
  · simp only [agrees, version', form']
    rfl
  · rw [lenient, Json.optional, metadata']
    rwa [lenient, Json.optional, metadata] at sameMetadata
  · rw [Json.optional, spec']
    rwa [Json.optional, spec] at sameSpec
  · rw [Json.optional, status']
    rfl

end VolumeClaim

end NodeFleet.Resource

namespace NodeFleet.Fleet

open Calendar Resource Store

namespace MemberKind

/-- A member once it is available. -/
def matured : (kind : MemberKind) → kind.kind.Object → kind.kind.Object
  | .pod, member => { (member : Pod) with status := some readyStatus }
  | .volumeClaim, member => { (member : VolumeClaim) with status := some boundStatus }

@[simp] theorem metadata_matured (kind : MemberKind) (member : kind.kind.Object) :
    kind.kind.metadata (kind.matured member) = kind.kind.metadata member := by
  cases kind <;> rfl

theorem keeps_matured (kind : MemberKind) (member : kind.kind.Object) :
    kind.Keeps member (kind.matured member) := by
  cases kind <;> exact ⟨rfl, rfl, rfl⟩

theorem ready_matured {minReadySeconds : Int} {now : Instant}
    (longAgo : Instant.earliest.addSeconds minReadySeconds ≤ now) (kind : MemberKind)
    (member : kind.kind.Object) : kind.Ready minReadySeconds now (kind.matured member) := by
  cases kind with
  | pod => exact ⟨.earliest, rfl, longAgo⟩
  | volumeClaim => rfl

end MemberKind

namespace OrdinalSet

variable {set : OrdinalSet} {kind : MemberKind} {desired : List kind.kind.Object}
  {now : Instant} {before after later : Registry} {plan : List Request} {calls : List Call}

/-- The listed members that are not being deleted, once they are available. -/
def maturedMembers (set : OrdinalSet) (kind : MemberKind) (registry : Registry) :
    List kind.kind.Object :=
  ((set.listed kind registry).filter fun live =>
    !(kind.kind.metadata live).isTerminating).map kind.matured

theorem mem_maturedMembers_iff {registry : Registry} {member : kind.kind.Object} :
    member ∈ set.maturedMembers kind registry ↔ ∃ live ∈ set.listed kind registry,
      (kind.kind.metadata live).isTerminating = false ∧ kind.matured live = member := by
  simp [maturedMembers, and_assoc]

/-- A registry that holds the matured members of a set, and no others of their kind. -/
def HoldsMatured (set : OrdinalSet) (kind : MemberKind) (before after : Registry) : Prop :=
  ∀ name object, after.find? kind.kind set.space name = some object ↔
    object ∈ set.maturedMembers kind before ∧ (kind.kind.metadata object).shownName = name

theorem HoldsMatured.mem_listed_iff (holds : set.HoldsMatured kind before after)
    {member : kind.kind.Object} :
    member ∈ set.listed kind after ↔ member ∈ set.maturedMembers kind before := by
  constructor
  · intro listed
    exact ((holds _ _).1 (find?_of_mem_listed listed)).1
  · intro matured
    refine mem_listed_of_found ((holds _ _).2 ⟨matured, rfl⟩) ?_
    obtain ⟨live, listed, _, rfl⟩ := mem_maturedMembers_iff.1 matured
    rw [kind.metadata_matured]
    exact (before.mem_selected_iff.1 listed).2

/-- The matured members depend on the objects of their kind and namespace. -/
theorem HoldsMatured.congr (holds : set.HoldsMatured kind after later)
    (same : ∀ name, after.find? kind.kind set.space name =
      before.find? kind.kind set.space name) : set.HoldsMatured kind before later := by
  unfold HoldsMatured maturedMembers at *
  rwa [listed_congr same] at holds

theorem HoldsMatured.ripens (holds : set.HoldsMatured kind before after)
    (longAgo : Instant.earliest.addSeconds set.minReadySeconds ≤ now)
    (legible : set.Legible kind desired after) : set.Ripens kind desired now before after where
  stay := fun live listed living => ⟨kind.matured live,
    holds.mem_listed_iff.2 (mem_maturedMembers_iff.2 ⟨live, listed, living, rfl⟩),
    kind.keeps_matured live⟩
  come := by
    intro later listed
    obtain ⟨live, listedBefore, living, rfl⟩ :=
      mem_maturedMembers_iff.1 (holds.mem_listed_iff.1 listed)
    exact ⟨live, listedBefore, living, kind.keeps_matured live⟩
  living := by
    intro later listed
    obtain ⟨live, _, living, rfl⟩ := mem_maturedMembers_iff.1 (holds.mem_listed_iff.1 listed)
    rwa [kind.metadata_matured]
  ready := by
    intro later listed
    obtain ⟨live, _, _, rfl⟩ := mem_maturedMembers_iff.1 (holds.mem_listed_iff.1 listed)
    exact kind.ready_matured longAgo live
  legible := legible
  unoccupied := fun _ _ object there => holds.mem_listed_iff.2 ((holds _ _).1 there).1

theorem isPlaced_of_mem_maturedMembers {registry : Registry} {member : kind.kind.Object}
    (matured : member ∈ set.maturedMembers kind registry) :
    kind.kind.IsPlaced set.space (kind.kind.metadata member).shownName member := by
  obtain ⟨live, listed, _, rfl⟩ := mem_maturedMembers_iff.1 matured
  have placed := Registry.isPlaced_of_find? (find?_of_mem_listed listed)
  rw [kind.metadata_matured]
  exact ⟨kind.metadata_matured live ▸ placed.named, kind.metadata_matured live ▸ placed.inSpace⟩

theorem maturedMembers_nodup (set : OrdinalSet) (kind : MemberKind) (registry : Registry) :
    ((set.maturedMembers kind registry).map fun member =>
      (kind.kind.metadata member).shownName).Nodup := by
  simp only [maturedMembers, List.map_map, Function.comp_def, kind.metadata_matured]
  exact (set.listed_nodup kind registry).sublist (List.filter_sublist.map _)

/-- The members that still have to be patched are read as they were written. -/
theorem HoldsMatured.legible (holds : set.HoldsMatured kind after later)
    (attainable : set.Attainable kind desired)
    (completed : set.Completed kind desired now before plan calls after)
    (orderly : set.Orderly kind desired before) : set.Legible kind desired later := by
  intro inPlace member listed wanted inDesired same outdated
  obtain ⟨live, listedAfter, living, rfl⟩ :=
    mem_maturedMembers_iff.1 (holds.mem_listed_iff.1 listed)
  rw [kind.metadata_matured] at same
  rw [kind.needsUpdate_eq, (kind.keeps_matured live).revision_eq, ← kind.needsUpdate_eq]
    at outdated
  cases kind with
  | pod => cases inPlace
  | volumeClaim =>
      rcases (completed.lasts attainable orderly listedAfter living).source with listedBefore |
        ⟨_, other, otherDesired, otherName, current⟩
      · exact VolumeClaim.read_write_bound
          (orderly.legible rfl live listedBefore wanted inDesired same outdated)
      · obtain rfl := List.inj_on_of_nodup_map attainable.nodup otherDesired inDesired
          (otherName.trans same)
        rw [MemberKind.needsUpdate_eq_false_iff.2 current] at outdated
        cases outdated

end OrdinalSet

end NodeFleet.Fleet
