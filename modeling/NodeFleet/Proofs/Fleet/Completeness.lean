import NodeFleet.Proofs.Fleet.Convergence

/-!
# Complete full nodes

The controller records a full node as complete and waits for a change exactly when its
cluster has the claims and the pods that the full node asks for, up to date and available.
Then it writes nothing but the status.
-/

namespace NodeFleet.Fleet

open Calendar Resource Store Text

variable {mayFail : Request → Prop} {σ : Type}

/-! ## Sets that a pass can survey -/

namespace OrdinalSet

variable {set : OrdinalSet} {kind : MemberKind} {desired : List kind.kind.Object}
  {now : Instant} {registry after : Registry} {changes : Changes kind.kind.Object}

/-- Listed and desired members that a pass can compare and call by name, within the range of
the numbers that it computes with. -/
structure Surveyable (set : OrdinalSet) (kind : MemberKind) (desired : List kind.kind.Object)
    (registry : Registry) : Prop where
  listed_readable : ∀ live ∈ set.listed kind registry, HasPosition kind.kind.metadata live
  listed_named : ∀ live ∈ set.listed kind registry, (kind.kind.metadata live).shownName ≠ ""
  desired_readable : ∀ wanted ∈ desired, HasPosition kind.kind.metadata wanted
  desired_named : ∀ wanted ∈ desired, (kind.kind.metadata wanted).shownName ≠ ""
  desired_nodup : (desired.map fun wanted => (kind.kind.metadata wanted).shownName).Nodup
  desired_fits : (desired.length : Int) ≤ Bounds.int32.high
  limit_fits : ∀ limit, set.maxUnavailable = some (.number limit) → limit ≤ Bounds.int32.high

theorem Surveyable.congr (surveyable : set.Surveyable kind desired registry)
    (same : ∀ name, after.find? kind.kind set.space name =
      registry.find? kind.kind set.space name) : set.Surveyable kind desired after := by
  have listed : set.listed kind after = set.listed kind registry := listed_congr same
  exact { surveyable with
    listed_readable := by rw [listed]; exact surveyable.listed_readable
    listed_named := by rw [listed]; exact surveyable.listed_named }

theorem Surveyable.exists_differences (surveyable : set.Surveyable kind desired registry) :
    ∃ changes, set.differences kind desired registry = .ok changes :=
  exists_diff surveyable.listed_readable (set.listed_nodup kind registry)
    surveyable.desired_readable surveyable.desired_nodup

/-- The calls of a pass that got to its end; they only look if the set was settled. -/
structure Surveyed (set : OrdinalSet) (kind : MemberKind) (desired : List kind.kind.Object)
    (now : Instant) (registry : Registry) (calls : List Call) : Prop where
  course : set.Course kind desired now registry calls
  idle : set.isSettled kind desired now registry = true →
    ∀ call ∈ calls, call.request = set.listing kind

/-- A pass over a set that it can survey gets to its end, unless a call does not succeed. -/
theorem Surveyable.ensures_surveyed {ledger : Ledger}
    (surveyable : set.Surveyable kind desired ledger.registry) (now : Instant) (state : σ) :
    (set.reconcile kind desired now : Pass σ SetOutcome).Ensures mayFail
      (fun outcome _ final => outcome = set.outcome kind desired now ledger.registry ∧
        ∃ calls, final.calls = ledger.calls ++ calls ∧
          set.Surveyed kind desired now ledger.registry calls)
      (fun _ _ final => ∃ call ∈ final.calls, ¬ call.Succeeds) state ledger := by
  obtain ⟨changes, found⟩ := surveyable.exists_differences
  obtain ⟨plan, planned⟩ :=
    exists_plan_of_fits found surveyable.desired_fits surveyable.limit_fits now
  have named :=
    target?_ne_of_planned surveyable.listed_named surveyable.desired_named planned
  refine (ensures_reached now state ledger planned named).mono ?_ ?_
  · rintro outcome _ final ⟨reported, calls, made, carried⟩
    refine ⟨reported, calls, made, Or.inr ⟨plan, planned, carried.breaksOff⟩, ?_⟩
    intro settled call member
    obtain ⟨steady, upToDate, _⟩ := (isSettled_iff_of_found found).1 settled
    obtain rfl := Except.ok.inj
      (planned.symm.trans (plan_of_idle found steady (Or.inr upToDate)))
    exact List.mem_singleton.1 (carried.breaksOff.request_mem member)
  · rintro _ _ final ⟨calls, made, _, call, member, unsuccessful⟩
    exact ⟨call, made ▸ List.mem_append_right _ member, unsuccessful⟩

/-- A set is at rest exactly when the listed members have the names of the desired ones, and
each of them is up to date and available. -/
theorem rests_iff (found : set.differences kind desired registry = .ok changes) :
    set.Rests kind desired now registry ↔
      (∀ name, (∃ live ∈ set.listed kind registry, (kind.kind.metadata live).shownName = name) ↔
        ∃ wanted ∈ desired, (kind.kind.metadata wanted).shownName = name) ∧
      ∀ live ∈ set.listed kind registry,
        kind.isAvailable set.minReadySeconds now live = true ∧
          ∀ wanted ∈ desired,
            (kind.kind.metadata wanted).shownName = (kind.kind.metadata live).shownName →
              kind.revision live = kind.revision wanted := by
  have lead := lead_of_differences found
  constructor
  · intro rests
    have steady := lead.isScaling_eq_false_iff.2 ⟨rests.wanted, rests.present⟩
    have all := rests.available.trans (lead.length_eq steady).symm
    refine ⟨fun name => ⟨?_, ?_⟩, fun live listed =>
      ⟨List.countP_eq_length.1 all live listed, fun wanted inDesired same => ?_⟩⟩
    · rintro ⟨live, listed, rfl⟩
      exact rests.wanted live listed
    · rintro ⟨wanted, inDesired, rfl⟩
      exact rests.present wanted inDesired
    · exact MemberKind.needsUpdate_eq_false_iff.1
        (rests.current live listed wanted inDesired same.symm)
  · rintro ⟨names, each⟩
    have wanted : ∀ live ∈ set.listed kind registry, ∃ wanted ∈ desired,
        (kind.kind.metadata wanted).shownName = (kind.kind.metadata live).shownName :=
      fun live listed => (names _).1 ⟨live, listed, rfl⟩
    have present : ∀ wanted ∈ desired, ∃ live ∈ set.listed kind registry,
        (kind.kind.metadata live).shownName = (kind.kind.metadata wanted).shownName :=
      fun wanted inDesired => (names _).2 ⟨wanted, inDesired, rfl⟩
    refine ⟨wanted, present, fun live listed member inDesired same =>
      MemberKind.needsUpdate_eq_false_iff.2 ((each live listed).2 member inDesired same.symm), ?_⟩
    rw [← lead.length_eq (lead.isScaling_eq_false_iff.2 ⟨wanted, present⟩)]
    exact List.countP_eq_length.2 fun live listed => (each live listed).1

end OrdinalSet

/-! ## Converged full nodes -/

def listedClaims (node : FullNode) (space : String) (registry : Registry) : List VolumeClaim :=
  registry.selected .volumeClaim space (node.componentSelector FullNode.claimComponent)

def listedPods (node : FullNode) (space : String) (registry : Registry) : List Pod :=
  registry.selected .pod space (node.componentSelector FullNode.podComponent)

/-- The claims of a full node are those of its replicas, bound and with the storage that it
requests; its pods are those of the replicas that are not held down, available and with the
digest that it asks for. -/
structure Converged (node : FullNode) (space : String) (now : Instant) (registry : Registry) :
    Prop where
  claim_names : ∀ name,
    (∃ claim ∈ listedClaims node space registry, claim.metadata.shownName = name) ↔
      ∃ index : Nat, (index : Int) < node.spec.replicas ∧ name = node.claimName index
  claims_bound : ∀ claim ∈ listedClaims node space registry,
    claim.status.bind (·.phase) = some "Bound" ∧ claim.metadata.isTerminating = false ∧
      claim.requestedStorage? = some node.spec.claimTemplate.storage
  pod_names : ∀ name,
    (∃ pod ∈ listedPods node space registry, pod.metadata.shownName = name) ↔
      ∃ index : Nat, (index : Int) < node.spec.replicas ∧
        node.podName index ∉ node.heldPodNames ∧ name = node.podName index
  pods_available : ∀ pod ∈ listedPods node space registry,
    pod.isAvailable node.minReadySeconds now = true ∧
      ∀ index : Nat, pod.metadata.shownName = node.podName index →
        pod.digest? = some (node.plainPod index).digest

/-- A full node with a name and in a namespace, with numbers in their range, whose listed
claims and pods have names and state their positions. -/
structure Surveyable (node : FullNode) (space : String) (registry : Registry) : Prop where
  named : node.name ≠ ""
  in_space : node.metadata.namespaceName = some space
  replicas_fit : node.spec.replicas ≤ Bounds.int32.high
  limit_fits : ∀ limit, node.maxUnavailable = some (.number limit) → limit ≤ Bounds.int32.high
  claims_readable : ∀ claim ∈ listedClaims node space registry,
    HasPosition VolumeClaim.metadata claim
  claims_named : ∀ claim ∈ listedClaims node space registry, claim.metadata.shownName ≠ ""
  pods_readable : ∀ pod ∈ listedPods node space registry, HasPosition Pod.metadata pod
  pods_named : ∀ pod ∈ listedPods node space registry, pod.metadata.shownName ≠ ""

section Members

variable {node : FullNode} {space : String} {registry : Registry} {now : Instant}

theorem exists_desiredClaim_iff (node : FullNode) (name : String) :
    (∃ claim ∈ node.desiredClaims, claim.metadata.shownName = name) ↔
      ∃ index : Nat, (index : Int) < node.spec.replicas ∧ name = node.claimName index := by
  constructor
  · rintro ⟨claim, inDesired, rfl⟩
    obtain ⟨index, below, rfl⟩ := (node.mem_desiredClaims_iff claim).1 inDesired
    exact ⟨index, by omega, rfl⟩
  · rintro ⟨index, below, rfl⟩
    exact ⟨node.newClaim index, (node.mem_desiredClaims_iff _).2 ⟨index, by omega, rfl⟩, rfl⟩

theorem exists_desiredPod_iff (node : FullNode) (name : String) :
    (∃ pod ∈ node.desiredPods, pod.metadata.shownName = name) ↔
      ∃ index : Nat, (index : Int) < node.spec.replicas ∧
        node.podName index ∉ node.heldPodNames ∧ name = node.podName index := by
  constructor
  · rintro ⟨pod, inDesired, rfl⟩
    obtain ⟨index, below, rfl, free⟩ := (node.mem_desiredPods_iff pod).1 inDesired
    exact ⟨index, by omega, free, rfl⟩
  · rintro ⟨index, below, free, rfl⟩
    exact ⟨node.newPod index, (node.mem_desiredPods_iff _).2 ⟨index, by omega, rfl, free⟩, rfl⟩

theorem isAvailable_claim_iff (claim : VolumeClaim) :
    claim.isAvailable = true ↔
      claim.status.bind (·.phase) = some "Bound" ∧ claim.metadata.isTerminating = false := by
  rw [VolumeClaim.isAvailable, Bool.and_eq_true, Bool.not_eq_true', beq_iff_eq, and_comm]

/-- The claims of a full node are at rest exactly when they have the names, the phase and the
storage of converged ones. -/
theorem claims_rest_iff {changes : Changes VolumeClaim}
    (found : (claimSet node space).differences .volumeClaim node.desiredClaims registry =
      .ok changes) :
    (claimSet node space).Rests .volumeClaim node.desiredClaims now registry ↔
      (∀ name, (∃ claim ∈ listedClaims node space registry, claim.metadata.shownName = name) ↔
        ∃ index : Nat, (index : Int) < node.spec.replicas ∧ name = node.claimName index) ∧
      ∀ claim ∈ listedClaims node space registry,
        claim.status.bind (·.phase) = some "Bound" ∧ claim.metadata.isTerminating = false ∧
          claim.requestedStorage? = some node.spec.claimTemplate.storage := by
  rw [OrdinalSet.rests_iff found]
  simp only [← exists_desiredClaim_iff]
  refine and_congr_right fun names => forall₂_congr fun claim listed => ?_
  obtain ⟨wanted, inDesired, same⟩ := (names _).1 ⟨claim, listed, rfl⟩
  have storage : ∀ wanted ∈ node.desiredClaims,
      wanted.requestedStorage? = some node.spec.claimTemplate.storage := by
    intro wanted inDesired
    obtain ⟨index, _, rfl⟩ := (node.mem_desiredClaims_iff wanted).1 inDesired
    exact node.requestedStorage?_newClaim index
  have available : MemberKind.isAvailable .volumeClaim (claimSet node space).minReadySeconds now
      claim = true ↔ _ := isAvailable_claim_iff claim
  rw [available, and_assoc]
  refine and_congr_right fun _ => and_congr_right fun _ => ⟨fun current => ?_, fun asks => ?_⟩
  · exact (current wanted inDesired same).trans (storage wanted inDesired)
  · exact fun other member _ => asks.trans (storage other member).symm

/-- The pods of a full node are at rest exactly when they have the names and the digests of
converged ones, and are available. -/
theorem pods_rest_iff {changes : Changes Pod}
    (found : (podSet node space).differences .pod node.desiredPods registry = .ok changes) :
    (podSet node space).Rests .pod node.desiredPods now registry ↔
      (∀ name, (∃ pod ∈ listedPods node space registry, pod.metadata.shownName = name) ↔
        ∃ index : Nat, (index : Int) < node.spec.replicas ∧
          node.podName index ∉ node.heldPodNames ∧ name = node.podName index) ∧
      ∀ pod ∈ listedPods node space registry,
        pod.isAvailable node.minReadySeconds now = true ∧
          ∀ index : Nat, pod.metadata.shownName = node.podName index →
            pod.digest? = some (node.plainPod index).digest := by
  rw [OrdinalSet.rests_iff found]
  simp only [← exists_desiredPod_iff]
  refine and_congr_right fun names => forall₂_congr fun pod listed => ?_
  obtain ⟨wanted, inDesired, same⟩ := (names _).1 ⟨pod, listed, rfl⟩
  refine and_congr_right fun _ =>
    ⟨fun current index isNamed => ?_, fun asks other member sameName => ?_⟩
  · obtain ⟨own, _, rfl, _⟩ := (node.mem_desiredPods_iff wanted).1 inDesired
    obtain rfl := node.podName_injective (same.trans isNamed)
    exact (current _ inDesired same).trans (node.digest?_newPod own)
  · obtain ⟨own, _, rfl, _⟩ := (node.mem_desiredPods_iff other).1 member
    exact (asks own sameName.symm).trans (node.digest?_newPod own).symm

end Members

namespace Surveyable

variable {node : FullNode} {space : String} {registry after : Registry} {now : Instant}
  (surveyable : Surveyable node space registry)

include surveyable

theorem claims : (claimSet node space).Surveyable .volumeClaim node.desiredClaims registry where
  listed_readable := surveyable.claims_readable
  listed_named := surveyable.claims_named
  desired_readable := fun claim inDesired =>
    FullNode.hasPosition_of_desiredClaim inDesired surveyable.replicas_fit
  desired_named := by
    intro claim inDesired
    obtain ⟨index, _, rfl⟩ := (node.mem_desiredClaims_iff claim).1 inDesired
    exact node.claimName_ne_empty index
  desired_nodup := node.desiredClaims_nodup
  desired_fits := node.length_desiredClaims_fits surveyable.replicas_fit
  limit_fits := surveyable.limit_fits

theorem pods : (podSet node space).Surveyable .pod node.desiredPods registry where
  listed_readable := surveyable.pods_readable
  listed_named := surveyable.pods_named
  desired_readable := fun pod inDesired =>
    FullNode.hasPosition_of_desired inDesired surveyable.replicas_fit
  desired_named := by
    intro pod inDesired
    obtain ⟨index, _, rfl, _⟩ := (node.mem_desiredPods_iff pod).1 inDesired
    exact node.podName_ne_empty index
  desired_nodup := node.desiredPods_nodup
  desired_fits := node.length_desiredPods_fits surveyable.replicas_fit
  limit_fits := surveyable.limit_fits

/-- Both sets of members are settled exactly when the full node has converged. -/
theorem settled_iff (now : Instant) :
    ((claimSet node space).isSettled .volumeClaim node.desiredClaims now registry &&
      (podSet node space).isSettled .pod node.desiredPods now registry) = true ↔
    Converged node space now registry := by
  obtain ⟨claimChanges, claimsFound⟩ := surveyable.claims.exists_differences
  obtain ⟨podChanges, podsFound⟩ := surveyable.pods.exists_differences
  rw [Bool.and_eq_true, OrdinalSet.isSettled_iff_rests claimsFound,
    OrdinalSet.isSettled_iff_rests podsFound, claims_rest_iff claimsFound,
    pods_rest_iff podsFound]
  constructor
  · rintro ⟨⟨claimNames, claimsBound⟩, podNames, podsAvailable⟩
    exact ⟨claimNames, claimsBound, podNames, podsAvailable⟩
  · rintro ⟨claimNames, claimsBound, podNames, podsAvailable⟩
    exact ⟨⟨claimNames, claimsBound⟩, podNames, podsAvailable⟩

/-- The members of a converged full node are in order where there is nothing else at their
names. -/
theorem inOrder (converged : Converged node space now registry)
    (claimsAlone : (claimSet node space).Unoccupied .volumeClaim node.desiredClaims registry)
    (podsAlone : (podSet node space).Unoccupied .pod node.desiredPods registry) :
    InOrder node space registry where
  claims := by
    obtain ⟨changes, found⟩ := surveyable.claims.exists_differences
    have rests : (claimSet node space).Rests .volumeClaim node.desiredClaims now registry :=
      (claims_rest_iff found).2 ⟨converged.claim_names, converged.claims_bound⟩
    refine ⟨surveyable.claims_readable, surveyable.claims_named, ?_, claimsAlone⟩
    intro _ live listed wanted inDesired same outdated
    rw [rests.current live listed wanted inDesired same] at outdated
    cases outdated
  pods := ⟨surveyable.pods_readable, surveyable.pods_named,
    (fun inPlace => nomatch inPlace), podsAlone⟩

/-! ## Passes -/

/-- A pass settles exactly when the full node has converged, and then only lists the
members. -/
theorem ensures_converge (now : Instant) (state : σ) :
    (converge node now : Pass σ Convergence).Ensures mayFail
      (fun found _ final => (found.settled = true ↔ Converged node space now registry) ∧
        (Converged node space now registry →
          ∀ call ∈ final.calls, ∃ kind selector, call.request = .list kind space selector))
      (fun _ _ final => ∃ call ∈ final.calls, ¬ call.Succeeds) state (.opened registry) := by
  unfold converge reconcileClaims reconcilePods
  rw [namespaceOf_bind surveyable.in_space, namespaceOf_bind surveyable.in_space]
  refine Pass.ensures_bind (((surveyable.claims.ensures_surveyed now state).and
    (Pass.ensures_chain _ state registry)).mono ?_ fun _ _ _ halted => halted.1)
  rintro _ state middle ⟨⟨rfl, claimCalls, madeFirst, claims⟩, chain⟩
  obtain rfl : middle.calls = claimCalls := madeFirst
  have samePods : ∀ name, middle.registry.find? .pod space name =
      registry.find? .pod space name := fun name =>
    chain.find?_eq fun call member aimed => by
      rcases claims.course.request_cases member with listing | memberCall
      · rw [listing] at aimed
        cases aimed
      · cases memberCall.kind_eq_of_place? aimed
  have podsSurveyable := surveyable.pods.congr samePods
  refine Pass.ensures_bind ((podsSurveyable.ensures_surveyed now state).mono ?_
    fun _ _ _ halted => halted)
  rintro _ _ final ⟨rfl, podCalls, madeThen, pods⟩
  have podsSettled : (podSet node space).isSettled .pod node.desiredPods now middle.registry =
      (podSet node space).isSettled .pod node.desiredPods now registry :=
    OrdinalSet.isSettled_congr samePods
  have settled := surveyable.settled_iff now
  rw [← podsSettled] at settled
  refine Pass.ensures_pure _ ⟨settled, fun converged call member => ?_⟩
  obtain ⟨claimsIdle, podsIdle⟩ := Bool.and_eq_true_iff.1 (settled.2 converged)
  rw [madeThen] at member
  rcases List.mem_append.1 member with early | late
  · exact ⟨_, _, claims.idle claimsIdle call early⟩
  · exact ⟨_, _, pods.idle podsIdle call late⟩

end Surveyable

/-! ## The controller -/

/-- A call of a controller that leaves the members of a full node alone. -/
inductive OnlyRecords (node : FullNode) (space : String) : Request → Prop
  | lists (kind : Kind) (selector : String) : OnlyRecords node space (.list kind space selector)
  | looks : OnlyRecords node space (.get .fullNode space node.name)
  | records (written : FullNode) :
      OnlyRecords node space (.replaceStatus .fullNode space node.name written)

/-- What a pass found is what the status of a full node says, and what the controller gives
back. -/
structure Reports (node : FullNode) (space : String) (settings : Settings) (found : Convergence)
    (action : Action) (final : Ledger) : Prop where
  recorded : ∃ recorded : FullNode, ∃ status,
    final.registry.find? .fullNode space node.name = some recorded ∧
      recorded.status = some status ∧
      status.phase = if found.settled then .complete else .progressing
  action_eq : action = if found.settled then .awaitChange else .requeue settings.requeue

section Controller

variable {node : FullNode} {space : String} {registry : Registry} {now : Instant}

/-- A controller reports what its pass found, unless a call does not succeed. -/
theorem ensures_reports (named : node.name ≠ "") (settings : Settings) (found : Convergence)
    (ledger : Ledger) :
    (finish node settings space (.ok found)).Ensures mayFail
      (fun action final => Reports node space settings found action final ∧
        ledger.Adds (OnlyRecords node space) final)
      (fun _ final => ∃ call ∈ final.calls, ¬ call.Succeeds) ledger := by
  have fails : ∀ {request : Request} {error : Option StoreError} {earlier final : Ledger},
      request.target? = some node.name → earlier.Fruitless mayFail request error final →
      ∃ call ∈ final.calls, ¬ call.Succeeds := by
    intro request error earlier final target nothing
    cases nothing.balks with
    | unmade nameless => exact absurd (Option.some.inj (target.symm.trans nameless)) named
    | unsuccessful served fails =>
        exact ⟨_, List.mem_append_right _ List.mem_cons_self, fails.not_succeeds⟩
  refine Control.ensures_bind (Control.ensures_attempt (Exchange.ensures_updateStatus
    (fun _ => rfl) ?_ ?_ ?_ ?_))
  · intro stored version after there sets
    refine Control.ensures_pure _ ⟨⟨⟨_, _, sets.here, rfl, rfl⟩, rfl⟩, ?_⟩
    exact (Ledger.adds_add .looks _ _).trans (Ledger.adds_add (.records _) _ _)
  · intro absent halt
    exact ⟨_, List.mem_append_right _ List.mem_cons_self, by simp [Call.Succeeds]⟩
  · exact fun error final nothing halt => fails rfl nothing
  · exact fun stored error final there nothing halt => fails rfl nothing

/-- What has not succeeded in a pass has not succeeded in the end. -/
theorem ensures_unsuccessful (settings : Settings) (result : Except PassError Convergence)
    {ledger : Ledger} (unsuccessful : ∃ call ∈ ledger.calls, ¬ call.Succeeds) :
    (finish node settings space result).EnsuresAlways mayFail
      (fun final => ∃ call ∈ final.calls, ¬ call.Succeeds) ledger := by
  have remains : ∀ final : Ledger, ledger.Adds StatusCall final →
      ∃ call ∈ final.calls, ¬ call.Succeeds := by
    rintro final ⟨calls, made, _⟩
    obtain ⟨call, member, fails⟩ := unsuccessful
    exact ⟨call, made ▸ List.mem_append_left _ member, fails⟩
  exact (makes_finish node settings space result).ensures_adds.mono
    (fun _ final => remains final) fun _ final => remains final

/-- A controller reports whether its full node has converged, and only records that it has,
unless a call does not succeed. -/
theorem ensures_synced (surveyable : Surveyable node space registry) (settings : Settings)
    (now : Instant) :
    (syncFullNode node settings now).Ensures mayFail
      (fun action final => (∃ call ∈ final.calls, ¬ call.Succeeds) ∨
        ∃ found : Convergence, (found.settled = true ↔ Converged node space now registry) ∧
          Reports node space settings found action final ∧
          (Converged node space now registry →
            ∀ call ∈ final.calls, OnlyRecords node space call.request))
      (fun _ final => ∃ call ∈ final.calls, ¬ call.Succeeds) (.opened registry) := by
  rw [syncFullNode_eq settings now surveyable.in_space]
  refine Control.ensures_bind (Control.ensures_withDeadline
    ((surveyable.ensures_converge now ()).mono ?_ ?_))
  · rintro found _ middle ⟨settled, lists⟩
    refine (ensures_reports surveyable.named settings found middle).mono ?_ fun _ _ halted => halted
    rintro action final ⟨reports, calls, made, records⟩
    refine Or.inr ⟨found, settled, reports, fun converged call member => ?_⟩
    rw [made] at member
    rcases List.mem_append.1 member with early | late
    · obtain ⟨kind, selector, listing⟩ := lists converged call early
      exact listing ▸ .lists kind selector
    · exact records call late
  · rintro halt _ middle unsuccessful
    cases halt with
    | failed error =>
        exact (ensures_unsuccessful settings (.error error) unsuccessful).mono
          (fun _ _ => Or.inl) fun _ _ halted => halted
    | unanswered =>
        exact (ensures_unsuccessful settings _ unsuccessful).mono
          (fun _ _ => Or.inl) fun _ _ halted => halted
    | broken message => exact unsuccessful

/-- A controller all of whose calls succeed records its full node as complete, and waits for a
change, exactly when the full node has converged; then it writes nothing but the status.
Otherwise it records progress, and looks again. -/
theorem complete_iff_converged {settings : Settings}
    {result : Except (Halt ControlError) Action} {final : Ledger}
    (surveyable : Surveyable node space registry)
    (runs : (syncFullNode node settings now).Runs mayFail (.opened registry) result final)
    (succeed : ∀ call ∈ final.calls, call.Succeeds) :
    ∃ recorded : FullNode, ∃ status,
      final.registry.find? .fullNode space node.name = some recorded ∧
      recorded.status = some status ∧
      (status.phase = .complete ∧ result = .ok .awaitChange ↔
        Converged node space now registry) ∧
      (Converged node space now registry →
        ∀ call ∈ final.calls, OnlyRecords node space call.request) ∧
      (¬ Converged node space now registry →
        status.phase = .progressing ∧ result = .ok (.requeue settings.requeue)) := by
  have successful : ¬ ∃ call ∈ final.calls, ¬ call.Succeeds :=
    fun ⟨call, member, fails⟩ => fails (succeed call member)
  have synced := (ensures_synced surveyable settings now).settles runs
  cases result with
  | error halt => exact absurd synced successful
  | ok action =>
      obtain ⟨found, settled, reports, records⟩ := synced.resolve_left successful
      obtain ⟨recorded, status, there, stated, phase⟩ := reports.recorded
      have given := reports.action_eq
      refine ⟨recorded, status, there, stated, ?_, records, ?_⟩
      · rw [← settled]
        constructor
        · rintro ⟨complete, _⟩
          by_contra unsettled
          rw [phase, if_neg unsettled] at complete
          cases complete
        · intro isSettled
          rw [phase, given, if_pos isSettled, if_pos isSettled]
          exact ⟨rfl, rfl⟩
      · intro unconverged
        have unsettled : ¬ found.settled = true :=
          fun isSettled => unconverged (settled.1 isSettled)
        rw [phase, given, if_neg unsettled, if_neg unsettled]
        exact ⟨rfl, rfl⟩

/-- When no call fails, all calls of a controller over members in order succeed. -/
theorem ensures_successful (sizable : Sizable node space) (inOrder : InOrder node space registry)
    (named : node.name ≠ "") {stored : FullNode}
    (there : registry.find? .fullNode space node.name = some stored) (settings : Settings)
    (now : Instant) :
    (syncFullNode node settings now).Ensures (fun _ => False)
      (fun _ final => ∀ call ∈ final.calls, call.Succeeds) (fun _ _ => False)
      (.opened registry) := by
  rw [syncFullNode_eq settings now sizable.in_space]
  refine Control.ensures_bind (Control.ensures_withDeadline
    ((ensures_completes sizable now inOrder).mono ?_ fun _ _ _ impossible => impossible.elim))
  rintro found _ middle ⟨claimCalls, between, podCalls, made, completes⟩
  obtain ⟨_, claims⟩ := completes.claims
  obtain ⟨_, pods⟩ := completes.pods
  have succeed : ∀ call ∈ middle.calls, call.Succeeds := by
    rw [made]
    exact List.forall_mem_append.2 ⟨claims.succeed, pods.succeed⟩
  have stays : middle.registry.find? .fullNode space node.name = some stored :=
    (pods.find?_eq_of_ne (by decide) _ _).trans
      ((claims.find?_eq_of_ne (by decide) _ _).trans there)
  refine Control.ensures_bind (Control.ensures_attempt (Exchange.ensures_updateStatus
    (fun _ => rfl) ?_ ?_ ?_ ?_))
  · intro read version after _ _
    refine Control.ensures_pure _ fun call member => ?_
    simp only [Ledger.add, List.mem_append, List.mem_singleton] at member
    obtain (early | rfl) | rfl := member
    · exact succeed call early
    · exact ⟨_, rfl⟩
    · exact ⟨_, rfl⟩
  · intro absent
    exact absurd (stays.symm.trans absent) (by simp)
  · intro error final nothing
    exact absurd nothing (Ledger.not_fruitless_get id named)
  · intro read error final found nothing
    exact absurd nothing (Ledger.not_fruitless_replaceStatus id named found rfl)

end Controller

section Example

/-- A full node of two replicas, the second of which is held down. -/
def quietNode : FullNode := FullNode.sample 2 (.ofList [("default.hourly", ⟨"cosmoshub-1"⟩)])

def boundClaim (index : Nat) : VolumeClaim :=
  { quietNode.newClaim index with status := some boundStatus }

def readyPod : Pod := { quietNode.newPod 0 with status := some readyStatus }

/-- A cluster with the full node, the bound claims of both replicas, and the pod of the first. -/
def quietCluster : Registry :=
  ((Registry.empty.fill .volumeClaim "default" [boundClaim 0, boundClaim 1]).fill
    .pod "default" [readyPod]).put .fullNode "default" "cosmoshub" quietNode

/-- When the pod has been ready for long enough. -/
def quietTime : Instant := Instant.earliest.addSeconds quietNode.minReadySeconds

theorem listedClaims_quietCluster :
    listedClaims quietNode "default" quietCluster = [boundClaim 0, boundClaim 1] := by
  rfl

theorem listedPods_quietCluster : listedPods quietNode "default" quietCluster = [readyPod] := by
  rfl

theorem desiredClaims_quietNode :
    quietNode.desiredClaims = [quietNode.newClaim 0, quietNode.newClaim 1] := by
  rfl

theorem desiredPods_quietNode : quietNode.desiredPods = [quietNode.newPod 0] := by
  rfl

theorem surveyable_quietNode : Surveyable quietNode "default" quietCluster where
  named := by decide
  in_space := rfl
  replicas_fit := by decide
  limit_fits := fun _ stated => nomatch stated
  claims_readable := by
    have position : ∀ index < 2, HasPosition VolumeClaim.metadata (boundClaim index) :=
      fun index below => FullNode.hasPosition_of_ordinal
        (quietNode.ordinalText?_newClaim (Int.ofNat index))
        (show index < quietNode.spec.replicas.toNat from below) (by decide)
    rw [listedClaims_quietCluster]
    simp [position]
  claims_named := by
    rw [listedClaims_quietCluster]
    decide
  pods_readable := by
    rw [listedPods_quietCluster, List.forall_mem_singleton]
    have position : HasPosition Pod.metadata (quietNode.newPod 0) :=
      FullNode.hasPosition_of_desired (by rw [desiredPods_quietNode]; exact List.mem_cons_self)
        (by decide)
    exact position
  pods_named := by
    rw [listedPods_quietCluster, List.forall_mem_singleton]
    exact quietNode.podName_ne_empty 0

theorem converged_quietNode : Converged quietNode "default" quietTime quietCluster where
  claim_names := by
    intro name
    rw [listedClaims_quietCluster, ← exists_desiredClaim_iff, desiredClaims_quietNode]
    simp only [List.mem_cons, List.not_mem_nil, or_false, exists_eq_or_imp, exists_eq_left]
    exact Iff.rfl
  claims_bound := by
    rw [listedClaims_quietCluster]
    decide
  pod_names := by
    intro name
    rw [listedPods_quietCluster, ← exists_desiredPod_iff, desiredPods_quietNode]
    simp only [List.mem_singleton, exists_eq_left]
    exact Iff.rfl
  pods_available := by
    rw [listedPods_quietCluster, List.forall_mem_singleton]
    refine ⟨by decide, fun index same => ?_⟩
    obtain rfl : 0 = index := quietNode.podName_injective same
    exact quietNode.digest?_newPod 0

theorem inOrder_quietNode : InOrder quietNode "default" quietCluster := by
  refine surveyable_quietNode.inOrder converged_quietNode ?_ ?_
  · intro wanted inDesired claim there
    change claim ∈ listedClaims quietNode "default" quietCluster
    rw [listedClaims_quietCluster]
    rw [desiredClaims_quietNode] at inDesired
    rcases List.mem_cons.1 inDesired with rfl | second
    · obtain rfl : boundClaim 0 = claim := Option.some.inj there
      exact List.mem_cons_self
    · obtain rfl := List.mem_singleton.1 second
      obtain rfl : boundClaim 1 = claim := Option.some.inj there
      exact List.mem_cons_of_mem _ List.mem_cons_self
  · intro wanted inDesired pod there
    change pod ∈ listedPods quietNode "default" quietCluster
    rw [listedPods_quietCluster]
    rw [desiredPods_quietNode] at inDesired
    obtain rfl := List.mem_singleton.1 inDesired
    obtain rfl : readyPod = pod := Option.some.inj there
    exact List.mem_cons_self

/-- Of this full node one pod is available and one is held down, and the controller records that
it is complete. -/
theorem complete_quietNode :
    (∃ pod ∈ listedPods quietNode "default" quietCluster,
      pod.isAvailable quietNode.minReadySeconds quietTime = true) ∧
    ∃ result final, (syncFullNode quietNode .standard quietTime).Runs (fun _ => False)
        (.opened quietCluster) result final ∧
      (∀ call ∈ final.calls, call.Succeeds) ∧
      (∀ call ∈ final.calls, OnlyRecords quietNode "default" call.request) ∧
      ∃ recorded : FullNode, ∃ status,
        final.registry.find? .fullNode "default" "cosmoshub" = some recorded ∧
        recorded.status = some status ∧ status.phase = .complete ∧
        result = .ok .awaitChange := by
  have sizable : Sizable quietNode "default" :=
    ⟨rfl, by decide, by decide, fun _ stated => nomatch stated⟩
  have successful := ensures_successful sizable inOrder_quietNode (by decide)
    (show quietCluster.find? .fullNode "default" quietNode.name = some quietNode from rfl)
    .standard quietTime
  obtain ⟨result, final, runs⟩ := Program.exists_runs (fun _ => False)
    (syncFullNode quietNode .standard quietTime).run (.opened quietCluster)
  have settled := successful.settles runs
  cases result with
  | error halt => exact settled.elim
  | ok action =>
      obtain ⟨recorded, status, there, stated, complete, records, _⟩ :=
        complete_iff_converged surveyable_quietNode runs settled
      have available := converged_quietNode.pods_available readyPod
        (by rw [listedPods_quietCluster]; exact List.mem_cons_self)
      obtain ⟨isComplete, isOk⟩ := complete.2 converged_quietNode
      refine ⟨⟨readyPod, ?_, available.1⟩, _, final, runs, settled,
        records converged_quietNode, recorded, status, there, stated, isComplete, isOk⟩
      rw [listedPods_quietCluster]
      exact List.mem_cons_self

end Example

end NodeFleet.Fleet
