import NodeFleet.Proofs.Fleet.Converge
import NodeFleet.Proofs.Fleet.Resumption

/-!
# The members that a full node desires

A full node desires a claim for each ordinal below its replicas, and a pod for each of them that is
not held down.  Name, position and labels of a member agree with its ordinal, as does the claim
that a pod mounts.  So there is nothing wrong with the desired side of a difference, and what a
pass creates is found by the next one.
-/

namespace NodeFleet.Resource.FullNode

open Fleet Store Text

variable {node : FullNode} {kind : MemberKind}

/-- The ordinals of the members that are desired, in ascending order. -/
def desiredOrdinals (node : FullNode) : MemberKind → List Nat
  | .pod =>
      (List.range node.spec.replicas.toNat).filter fun index =>
        !node.heldPodNames.contains (node.podName index)
  | .volumeClaim => List.range node.spec.replicas.toNat

def newMember (node : FullNode) : (kind : MemberKind) → Int → kind.kind.Object
  | .pod => node.newPod
  | .volumeClaim => node.newClaim

theorem desired_eq (node : FullNode) (kind : MemberKind) :
    node.desired kind =
      (node.desiredOrdinals kind).map fun index => node.newMember kind (Int.ofNat index) := by
  cases kind with
  | volumeClaim => exact List.map_map
  | pod =>
      rw [desired, desiredPods, ordinals, List.map_map, List.filter_map]
      congr 1

theorem pairwise_desiredOrdinals (node : FullNode) (kind : MemberKind) :
    (node.desiredOrdinals kind).Pairwise (· < ·) := by
  cases kind with
  | volumeClaim => exact List.pairwise_lt_range
  | pod => exact List.pairwise_lt_range.filter _

theorem mem_desiredOrdinals_iff {index : Nat} :
    index ∈ node.desiredOrdinals kind ↔ (index : Int) < node.spec.replicas ∧
      (kind = .pod → node.podName index ∉ node.heldPodNames) := by
  cases kind with
  | volumeClaim => simp [desiredOrdinals, Int.lt_toNat]
  | pod => simp [desiredOrdinals, Int.lt_toNat]

/-- What a member says of itself agrees with its ordinal. -/
structure MemberFits (node : FullNode) (kind : MemberKind) (index : Nat)
    (member : kind.kind.Object) : Prop where
  named : (kind.kind.metadata member).name = some (node.memberName kind index)
  placed : place kind.kind.metadata member = .ok ⟨node.memberName kind index, index, member⟩
  labelled : ∀ key value,
    (node.selectorLabels.insert componentKey kind.component).find? key = some value →
      (kind.kind.metadata member).labelMap.find? key = some value

theorem find?_labelsFor_of_componentLabels {component key value : String}
    (asked : (node.selectorLabels.insert componentKey component).find? key = some value) :
    (node.labelsFor component).find? key = some value := by
  have managed : managedByKey ≠ instanceKey ∧ managedByKey ≠ nameKey := by decide
  rw [find?_componentLabels] at asked
  rw [find?_labelsFor]
  split at asked
  · rename_i same
    rwa [if_pos same]
  rename_i notComponent
  have notManaged : key ≠ managedByKey := by
    rintro rfl
    simp [managed] at asked
  rwa [if_neg notComponent, if_neg notManaged]

theorem memberFits_newMember (node : FullNode) (kind : MemberKind) {index : Nat}
    (below : (index : Int) < node.spec.replicas)
    (replicasFit : node.spec.replicas ≤ Bounds.int32.high) :
    node.MemberFits kind index (node.newMember kind index) := by
  have named : (kind.kind.metadata (node.newMember kind index)).name =
      some (node.memberName kind index) := by
    cases kind <;> rfl
  have labels : (kind.kind.metadata (node.newMember kind index)).labels =
      some (node.labelsFor kind.component) := by
    cases kind <;> rfl
  have stated : (kind.kind.metadata (node.newMember kind index)).ordinalText? =
      some (toString (Int.ofNat index)) := by
    cases kind with
    | pod => exact node.ordinalText?_newPod index
    | volumeClaim => exact node.ordinalText?_newClaim index
  refine ⟨named, ?_, fun key value asked => ?_⟩
  · have fits : (index : Int) ≤ Bounds.int64.high := by
      have narrow : Bounds.int32.high ≤ Bounds.int64.high := by decide
      omega
    have reads : readWhole .int64 (toString (Int.ofNat index)).toList = .ok (index : Int) :=
      readWhole_toString fits
    rw [place, stated, Option.getD_some, reads, ObjectMeta.shownName, named]
    rfl
  · rw [ObjectMeta.labelMap, labels]
    exact find?_labelsFor_of_componentLabels asked

/-- A pod mounts the claim of its ordinal. -/
theorem claimName?_newPod (node : FullNode) (ordinal : Int) :
    (node.newPod ordinal).claimName? = (node.newClaim ordinal).metadata.name := rfl

end NodeFleet.Resource.FullNode

namespace NodeFleet.Fleet

open Calendar Resource Store Text

/-! ## What a pass creates -/

namespace OrdinalSet

variable {mayFail : Request → Prop} {set : OrdinalSet} {kind : MemberKind}
  {desired : List kind.kind.Object} {now : Instant} {registry before after : Registry}
  {calls : List Call} {call : Call}

/-- What a call of a pass over a set creates is a desired member, and there at the end of the
pass. -/
theorem found_of_creation
    (named : ∀ wanted ∈ desired,
      (kind.kind.metadata wanted).name = some (kind.kind.metadata wanted).shownName)
    (course : set.Course kind desired now registry calls)
    (chain : Chain mayFail before calls after) (member : call ∈ calls) {kind' : Kind}
    {space : String} {object : kind'.Object} (creates : call.request = .create kind' space object)
    (succeeds : call.Succeeds) :
    ∃ wanted ∈ desired, call.request = set.creation kind wanted ∧ ∃ stored,
      after.find? kind.kind set.space (kind.kind.metadata wanted).shownName = some stored ∧
        Matching kind wanted stored := by
  rcases course with broken | ⟨plan, planned, broken⟩
  · have listing := List.mem_singleton.1 (broken.request_mem member)
    cases creates.symm.trans listing
  rcases List.mem_cons.1 (broken.request_mem member) with listing | inPlan
  · cases creates.symm.trans listing
  obtain ⟨changes, found, ⟨_, rfl⟩ | ⟨_, rfl⟩ | ⟨_, _, _, budget, _, rfl⟩⟩ := plan_eq_ok planned
  · rcases List.mem_append.1 inPlan with creation | deletion
    · obtain ⟨wanted, created, same⟩ := List.mem_map.1 creation
      have inDesired := (((lead_of_differences found).mem_creates wanted).1 created).1
      have apart : Apart (calls.map (·.request)) := by
        have whole : Apart (set.listing kind :: set.scalingCalls kind changes) := by
          rw [Apart, List.filterMap_cons_none rfl]
          exact apart_scalingCalls named found
        exact whole.sublist (broken.requests_prefix.filterMap Request.place?).sublist
      exact ⟨wanted, inDesired, same.symm, (matching_of_creation chain apart member same.symm
        (named wanted inDesired) succeeds.not_fails).2⟩
    · obtain ⟨live, _, same⟩ := List.mem_map.1 deletion
      cases creates.symm.trans same.symm
  · cases inPlan
  · obtain ⟨renewed, _, same⟩ := List.mem_map.1 inPlan
    cases kind with
    | pod => cases creates.symm.trans same.symm
    | volumeClaim => cases creates.symm.trans same.symm

end OrdinalSet

variable {mayFail : Request → Prop} {node : FullNode} {kind : MemberKind} {now : Instant}
  {registry before after : Registry} {calls : List Call} {call : Call}

/-- What a pass over the members of one kind creates is found by its labels afterwards. -/
theorem mem_listed_of_creation (plain : ',' ∉ node.name.toList) (kind : MemberKind)
    (course : ComponentCourse node kind.component kind (node.desired kind) now registry calls)
    (chain : Chain mayFail before calls after) (member : call ∈ calls) {kind' : Kind}
    {space : String} {object : kind'.Object} (creates : call.request = .create kind' space object)
    (succeeds : call.Succeeds) :
    ∃ wanted ∈ node.desired kind, call.request = (memberSet node space kind).creation kind wanted ∧
      ∃ stored ∈ (memberSet node space kind).listed kind after,
        (kind.kind.metadata stored).shownName = (kind.kind.metadata wanted).shownName := by
  rcases course with rfl | ⟨space', _, course⟩
  · cases member
  have named : ∀ wanted ∈ node.desired kind,
      (kind.kind.metadata wanted).name = some (kind.kind.metadata wanted).shownName :=
    fun wanted inDesired => FullNode.named_of_desired inDesired
  obtain ⟨wanted, inDesired, creation, stored, there, matching⟩ :=
    OrdinalSet.found_of_creation named course chain member creates succeeds
  obtain rfl : space = space' := by
    cases creates.symm.trans creation
    rfl
  have finds := (FullNode.finds_of_desired plain inDesired).of_labels_eq matching.labels_eq.symm
  exact ⟨wanted, inDesired, creation, stored, OrdinalSet.mem_listed_of_found there finds,
    (Registry.isPlaced_of_find? there).shownName_eq⟩

/-- A request creates a member that is desired, and the member is found by its labels. -/
def CreatesListed (node : FullNode) (space : String) (request : Request) (registry : Registry) :
    Prop :=
  ∃ kind : MemberKind, ∃ wanted ∈ node.desired kind,
    request = (memberSet node space kind).creation kind wanted ∧
      ∃ stored ∈ (memberSet node space kind).listed kind registry,
        (kind.kind.metadata stored).shownName = (kind.kind.metadata wanted).shownName

/-- What a pass over a full node creates is found by its labels afterwards. -/
theorem createsListed_of_runs (plain : ',' ∉ node.name.toList)
    {result : Except (Halt PassError) Convergence} {final : Ledger}
    (runs : (converge node now : Pass Unit Convergence).Runs mayFail () (.opened registry) result
      () final) {call : Call} (member : call ∈ final.calls) {kind' : Kind} {space : String}
    {object : kind'.Object} (creates : call.request = .create kind' space object)
    (succeeds : call.Succeeds) : CreatesListed node space call.request final.registry := by
  have chain := Program.Runs.chain runs
  obtain ⟨calls, made, claims, pods, middle, rfl, claimsCourse, podsCourse⟩ :=
    Pass.EnsuresAlways.of_runs (ensures_converge node now () (.opened registry)) runs
  rw [Ledger.calls_opened, List.nil_append] at made
  rw [made] at chain member
  obtain ⟨between, first, second⟩ := chain.split
  rcases List.mem_append.1 member with early | late
  · obtain ⟨wanted, inDesired, creation, stored, listed, sameName⟩ :=
      mem_listed_of_creation plain .volumeClaim claimsCourse first early creates succeeds
    -- The pass over the pods leaves the claims alone.
    have kept : ∀ space name, final.registry.find? .volumeClaim space name =
        between.find? .volumeClaim space name := by
      refine fun space name => second.find?_eq fun call inPods aimed => ?_
      cases podsCourse.kind_eq_of_place? inPods aimed
    refine ⟨.volumeClaim, wanted, inDesired, creation, stored, ?_, sameName⟩
    exact OrdinalSet.mem_listed_of_found
      ((kept _ _).trans (OrdinalSet.find?_of_mem_listed listed))
      (between.mem_selected_iff.1 listed).2
  · exact ⟨.pod, mem_listed_of_creation plain .pod podsCourse second late creates succeeds⟩

/-- There is nothing wrong with the desired side of a difference. -/
theorem placeAll_current_of_diff {same : kind.kind.Object → kind.kind.Object → Bool}
    {current : List kind.kind.Object} {fault : DiffFault}
    (replicasFit : node.spec.replicas ≤ Bounds.int32.high)
    (faulty : diff kind.kind.metadata same current (node.desired kind) = .error fault) :
    placeAll kind.kind.metadata "current" [] current = .error fault := by
  have placeable : ∃ desired,
      placeAll kind.kind.metadata "desired" [] (node.desired kind) = .ok desired :=
    exists_placeAll "desired"
      (fun wanted inDesired => FullNode.hasPosition_of_wanted inDesired replicasFit)
      (node.desired_nodup kind) fun _ _ => List.not_mem_nil
  obtain ⟨desired, stand⟩ := placeable
  rw [diff] at faulty
  cases there : placeAll kind.kind.metadata "current" [] current with
  | error other =>
      rw [there] at faulty
      cases faulty
      rfl
  | ok placed =>
      rw [there, stand] at faulty
      cases faulty

/-- The pods that a full node desires are, in ascending order, those of the ordinals below its
replicas that are not held down, and the claims those of all these ordinals.  A pod mounts the
claim of its ordinal.  Of either kind the names are distinct; a member has the name, the position
and all labels of the selector for its ordinal; only the live side can be wrong with a difference;
and unless the name of the full node has a comma, which selectors are cut at, whatever a pass
creates is found by the next one. -/
theorem desired_members_fit (node : FullNode)
    (replicasFit : node.spec.replicas ≤ Bounds.int32.high) :
    (∃ ordinals : List Nat, ordinals.Pairwise (· < ·) ∧
      (∀ index : Nat, index ∈ ordinals ↔
        (index : Int) < node.spec.replicas ∧ node.podName index ∉ node.heldPodNames) ∧
      node.desiredPods = ordinals.map fun index => node.newPod (Int.ofNat index)) ∧
    (∃ ordinals : List Nat, ordinals.Pairwise (· < ·) ∧
      (∀ index : Nat, index ∈ ordinals ↔ (index : Int) < node.spec.replicas) ∧
      node.desiredClaims = ordinals.map fun index => node.newClaim (Int.ofNat index)) ∧
    (∀ index : Int, (node.newPod index).claimName? = (node.newClaim index).metadata.name) ∧
    ∀ kind : MemberKind,
      ((node.desired kind).map fun member => (kind.kind.metadata member).shownName).Nodup ∧
      (∀ member ∈ node.desired kind, ∃ index : Nat, (index : Int) < node.spec.replicas ∧
        member = node.newMember kind index ∧ node.MemberFits kind index member) ∧
      (∀ same current fault,
        diff kind.kind.metadata same current (node.desired kind) = .error fault →
          placeAll kind.kind.metadata "current" [] current = .error fault) ∧
      (',' ∉ node.name.toList → ∀ (mayFail : Request → Prop) (now : Instant)
        (registry : Registry) (result : Except (Halt PassError) Convergence) (final : Ledger),
          (converge node now : Pass Unit Convergence).Runs mayFail () (.opened registry) result ()
            final →
          ∀ call ∈ final.calls, ∀ (space : String) (object : kind.kind.Object),
            call.request = .create kind.kind space object → call.Succeeds →
              CreatesListed node space call.request final.registry) := by
  refine ⟨⟨_, node.pairwise_desiredOrdinals .pod, fun index => ?_, node.desired_eq .pod⟩,
    ⟨_, node.pairwise_desiredOrdinals .volumeClaim, fun index => ?_,
      node.desired_eq .volumeClaim⟩, node.claimName?_newPod, fun kind =>
    ⟨node.desired_nodup kind, ?members, ?differences, ?created⟩⟩
  · simp [FullNode.mem_desiredOrdinals_iff]
  · simp [FullNode.mem_desiredOrdinals_iff]
  case members =>
    intro member inDesired
    rw [node.desired_eq kind] at inDesired
    obtain ⟨index, wanted, rfl⟩ := List.mem_map.1 inDesired
    have below := (FullNode.mem_desiredOrdinals_iff.1 wanted).1
    exact ⟨index, below, rfl, node.memberFits_newMember kind below replicasFit⟩
  case differences => exact fun same current fault => placeAll_current_of_diff replicasFit
  case created =>
    intro plain mayFail now registry result final runs call member space object creates succeeds
    exact createsListed_of_runs plain runs member creates succeeds

/-- A full node with three replicas, the second of which is held down. -/
def gappedNode : FullNode := FullNode.sample 3 (.ofList [("default.hourly", ⟨"cosmoshub-1"⟩)])

/-- A pass over a full node of one replica, from nothing, in which no call fails. -/
def firstRun : (Except (Halt PassError) Convergence × Unit) × Ledger :=
  ((converge (FullNode.sample 1 .empty) .earliest : Pass Unit Convergence).run.run () :
    Program _).run (Program.serve fun _ => false) (.opened .empty)

def createsClaim : Request → Bool
  | .create .volumeClaim _ _ => true
  | _ => false

theorem exists_of_createsClaim {request : Request} (creates : createsClaim request = true) :
    ∃ space object, request = .create .volumeClaim space object := by
  cases request with
  | create kind space object =>
      cases kind with
      | volumeClaim => exact ⟨space, object, rfl⟩
      | _ => cases creates
  | _ => cases creates

/-- The second pod is not desired, but its claim is; and the first pass over a full node of one
replica creates a claim that the next one finds. -/
theorem desired_members_fit_of_gap :
    gappedNode.spec.replicas ≤ Bounds.int32.high ∧
      (∃ pods : List Nat, 0 ∈ pods ∧ 1 ∉ pods ∧ 2 ∈ pods ∧
        gappedNode.desiredPods = pods.map fun index => gappedNode.newPod (Int.ofNat index)) ∧
      (∃ claims : List Nat, 0 ∈ claims ∧ 1 ∈ claims ∧ 2 ∈ claims ∧
        gappedNode.desiredClaims = claims.map fun index => gappedNode.newClaim (Int.ofNat index)) ∧
      ∃ call ∈ firstRun.2.calls, call.Succeeds ∧ ∃ space,
        CreatesListed (FullNode.sample 1 .empty) space call.request firstRun.2.registry := by
  have fits : gappedNode.spec.replicas ≤ Bounds.int32.high := by decide
  obtain ⟨⟨pods, _, inPods, desiredPods⟩, ⟨claims, _, inClaims, desiredClaims⟩, _⟩ :=
    desired_members_fit gappedNode fits
  refine ⟨fits, ⟨pods, ?_, ?_, ?_, desiredPods⟩, ⟨claims, ?_, ?_, ?_, desiredClaims⟩, ?_⟩
  · exact (inPods 0).2 (by decide)
  · exact fun member => absurd ((inPods 1).1 member).2 (by decide)
  · exact (inPods 2).2 (by decide)
  · exact (inClaims 0).2 (by decide)
  · exact (inClaims 1).2 (by decide)
  · exact (inClaims 2).2 (by decide)
  have made : (firstRun.2.calls.any fun call => createsClaim call.request && call.Succeeds) =
      true := by
    decide +kernel
  obtain ⟨call, member, creation⟩ := List.any_eq_true.1 made
  obtain ⟨creates, succeeds⟩ := Bool.and_eq_true_iff.1 creation
  obtain ⟨space, object, request⟩ := exists_of_createsClaim creates
  obtain ⟨_, _, _, each⟩ := desired_members_fit (FullNode.sample 1 .empty) (by decide)
  obtain ⟨_, _, _, created⟩ := each .volumeClaim
  have runs : (converge (FullNode.sample 1 .empty) .earliest : Pass Unit Convergence).Runs
      (fun _ => False) () (.opened .empty) firstRun.1.1 () firstRun.2 :=
    Program.runs_run (fun _ fails => nomatch fails) _ _
  exact ⟨call, member, of_decide_eq_true succeeds, space, created (by decide) _ _ _ _ _ runs call
    member space object request (of_decide_eq_true succeeds)⟩

end NodeFleet.Fleet
