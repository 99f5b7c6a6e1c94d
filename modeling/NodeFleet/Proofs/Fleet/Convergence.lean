import NodeFleet.Proofs.Fleet.Converge
import NodeFleet.Proofs.Fleet.DesiredClaims
import NodeFleet.Proofs.Fleet.Maturing

/-!
# Full nodes converge

Passes over a full node and times in which its cluster ripens take turns.  After two turns,
and two more for each member that needed an update at the start, a pass settles; every pass
after one that settles does, and makes no change.
-/

namespace NodeFleet.Fleet

open Calendar Resource Store Text

variable {σ : Type} {node : FullNode} {space : String}

def claimSet (node : FullNode) (space : String) : OrdinalSet :=
  componentSet node space FullNode.claimComponent

/-! ## The members of a full node -/

/-- A full node in a namespace, with a name that selectors can hold, and with numbers in
their range. -/
structure Sizable (node : FullNode) (space : String) : Prop where
  in_space : node.metadata.namespaceName = some space
  plain : ',' ∉ node.name.toList
  replicas_fit : node.spec.replicas ≤ Bounds.int32.high
  limit_fits : ∀ limit, node.maxUnavailable = some (.number limit) → limit ≤ Bounds.int32.high

theorem Sizable.pods_attainable (sizable : Sizable node space) :
    (podSet node space).Attainable .pod node.desiredPods where
  readable := fun pod inDesired =>
    FullNode.hasPosition_of_desired inDesired sizable.replicas_fit
  nodup := node.desiredPods_nodup
  named := by
    intro pod inDesired
    obtain ⟨index, _, rfl, _⟩ := (node.mem_desiredPods_iff pod).1 inDesired
    exact ⟨_, rfl, node.podName_ne_empty index⟩
  selected := by
    intro pod inDesired
    obtain ⟨index, _, rfl, _⟩ := (node.mem_desiredPods_iff pod).1 inDesired
    exact FullNode.selects_labelsFor sizable.plain (by decide)
  patched := fun inPlace => nomatch inPlace
  desired_fits := node.length_desiredPods_fits sizable.replicas_fit
  limit_fits := sizable.limit_fits

theorem Sizable.claims_attainable (sizable : Sizable node space) :
    (claimSet node space).Attainable .volumeClaim node.desiredClaims where
  readable := fun claim inDesired =>
    FullNode.hasPosition_of_desiredClaim inDesired sizable.replicas_fit
  nodup := node.desiredClaims_nodup
  named := by
    intro claim inDesired
    obtain ⟨index, _, rfl⟩ := (node.mem_desiredClaims_iff claim).1 inDesired
    exact ⟨_, rfl, node.claimName_ne_empty index⟩
  selected := by
    intro claim inDesired
    obtain ⟨index, _, rfl⟩ := (node.mem_desiredClaims_iff claim).1 inDesired
    exact FullNode.selects_labelsFor sizable.plain (by decide)
  patched := by
    intro _ claim inDesired live legible
    obtain ⟨index, _, rfl⟩ := (node.mem_desiredClaims_iff claim).1 inDesired
    obtain ⟨changed, reads, sameMetadata, _, asks⟩ :=
      exists_patched legible (node.requestedStorage?_newClaim index)
    exact ⟨changed, reads, sameMetadata, asks⟩
  desired_fits := node.length_desiredClaims_fits sizable.replicas_fit
  limit_fits := sizable.limit_fits

/-! ## Complete passes -/

theorem namespaceOf_bind {α : Type} (inSpace : node.metadata.namespaceName = some space)
    (next : String → Pass σ α) : (Pass.namespaceOf node.metadata >>= next) = next space := by
  unfold Pass.namespaceOf
  rw [inSpace]
  rfl

/-- A pass over a full node that got to its end, and what it found. -/
structure Completes (node : FullNode) (space : String) (now : Instant) (before : Registry)
    (claimCalls : List Call) (middle : Registry) (podCalls : List Call) (after : Registry)
    (found : Convergence) : Prop where
  claims : ∃ plan, (claimSet node space).Completed .volumeClaim node.desiredClaims now before
    plan claimCalls middle
  pods : ∃ plan, (podSet node space).Completed .pod node.desiredPods now middle plan podCalls
    after
  settled_eq : found.settled =
    ((claimSet node space).isSettled .volumeClaim node.desiredClaims now before &&
      (podSet node space).isSettled .pod node.desiredPods now middle)
  available_eq : found.availableReplicas = (podSet node space).listedAvailable .pod now middle

/-- The claims and the pods of a full node are in order. -/
structure InOrder (node : FullNode) (space : String) (registry : Registry) : Prop where
  claims : (claimSet node space).Orderly .volumeClaim node.desiredClaims registry
  pods : (podSet node space).Orderly .pod node.desiredPods registry

/-- When no call fails, a pass over members in order gets to its end. -/
theorem ensures_completes (sizable : Sizable node space) (now : Instant) {before : Registry}
    (inOrder : InOrder node space before) :
    (converge node now : Pass Unit Convergence).Ensures (fun _ => False)
      (fun found _ final => ∃ claimCalls middle podCalls, final.calls = claimCalls ++ podCalls ∧
        Completes node space now before claimCalls middle podCalls final.registry found)
      (fun _ _ _ => False) () (.opened before) := by
  unfold converge reconcileClaims reconcilePods
  rw [namespaceOf_bind sizable.in_space, namespaceOf_bind sizable.in_space]
  refine Pass.ensures_bind ((OrdinalSet.ensures_completed now () (.opened before) inOrder.claims
    sizable.claims_attainable).mono ?_ fun _ _ _ impossible => impossible)
  rintro _ _ middle ⟨rfl, claimPlan, claimCalls, madeFirst, claims⟩
  have podsInOrder : (podSet node space).Orderly .pod node.desiredPods middle.registry :=
    inOrder.pods.congr fun name => claims.find?_eq_of_ne (by decide) _ name
  refine Pass.ensures_bind ((OrdinalSet.ensures_completed now () middle podsInOrder
    sizable.pods_attainable).mono ?_ fun _ _ _ impossible => impossible)
  rintro _ _ final ⟨rfl, podPlan, podCalls, madeThen, pods⟩
  refine Pass.ensures_pure _ ⟨claimCalls, middle.registry, podCalls, ?_, ?_⟩
  · rw [madeThen, madeFirst]
    rfl
  · exact ⟨⟨claimPlan, claims⟩, ⟨podPlan, pods⟩, rfl, rfl⟩

/-! ## Alternation -/

/-- What a cluster does with the claims and pods of a full node between two passes. -/
structure Matures (node : FullNode) (space : String) (now : Instant) (before after : Registry) :
    Prop where
  claims : (claimSet node space).Ripens .volumeClaim node.desiredClaims now before after
  pods : (podSet node space).Ripens .pod node.desiredPods now before after

/-- A number of passes in which no call fails, each with the time that follows it. -/
inductive Alternates (node : FullNode) (space : String) :
    Nat → Registry × Instant → Registry × Instant → Prop
  | none (start : Registry × Instant) : Alternates node space 0 start start
  | more {count : Nat} {start : Registry × Instant} {registry later : Registry}
      {now now' : Instant} {result : Except (Halt PassError) Convergence} {final : Ledger}
      (earlier : Alternates node space count start (registry, now))
      (runs : (converge node now : Pass Unit Convergence).Runs (fun _ => False) ()
        (.opened registry) result () final)
      (matures : Matures node space now' final.registry later) :
      Alternates node space (count + 1) start (later, now')

/-- The number of claims and pods that stay and need an update. -/
def staleMembers (node : FullNode) (space : String) (registry : Registry) : Nat :=
  (claimSet node space).staleCount .volumeClaim node.desiredClaims registry +
    (podSet node space).staleCount .pod node.desiredPods registry

/-- A full node whose claims and pods are the desired ones, up to date and available, so that
every pass settles and does no more than look. -/
structure AtRest (node : FullNode) (space : String) (registry : Registry) (now : Instant) :
    Prop where
  claims : (claimSet node space).Rests .volumeClaim node.desiredClaims now registry
  pods : (podSet node space).Rests .pod node.desiredPods now registry
  settles : ∀ result final, (converge node now : Pass Unit Convergence).Runs (fun _ => False) ()
      (.opened registry) result () final →
    result = .ok ⟨true, node.desiredPods.length⟩ ∧
      ∀ call ∈ final.calls, ∃ kind selector, call.request = .list kind space selector

theorem exists_completes_of_runs (sizable : Sizable node space) {now : Instant}
    {before : Registry} (inOrder : InOrder node space before)
    {result : Except (Halt PassError) Convergence} {final : Ledger}
    (runs : (converge node now : Pass Unit Convergence).Runs (fun _ => False) () (.opened before)
      result () final) :
    ∃ found claimCalls middle podCalls, result = .ok found ∧
      final.calls = claimCalls ++ podCalls ∧
      Completes node space now before claimCalls middle podCalls final.registry found := by
  have settled := (ensures_completes sizable now inOrder).settles runs
  cases result with
  | ok found =>
      obtain ⟨claimCalls, middle, podCalls, made, completes⟩ := settled
      exact ⟨found, claimCalls, middle, podCalls, rfl, made, completes⟩
  | error halt => exact settled.elim

theorem Completes.turns {now now' : Instant} {before middle after later : Registry}
    {claimCalls podCalls : List Call} {found : Convergence}
    (completes : Completes node space now before claimCalls middle podCalls after found)
    (matures : Matures node space now' after later) :
    (claimSet node space).Turn .volumeClaim node.desiredClaims (before, now) (later, now') ∧
      (podSet node space).Turn .pod node.desiredPods (before, now) (later, now') := by
  obtain ⟨claimPlan, claims⟩ := completes.claims
  obtain ⟨podPlan, pods⟩ := completes.pods
  constructor
  · exact ⟨before, claimPlan, claimCalls, middle, after, fun _ => rfl, claims,
      fun name => pods.find?_eq_of_ne (by decide) _ name, matures.claims⟩
  · exact ⟨middle, podPlan, podCalls, after, after,
      fun name => claims.find?_eq_of_ne (by decide) _ name, pods, fun _ => rfl, matures.pods⟩

section Alternation

variable {start finish : Registry × Instant} {count : Nat} (sizable : Sizable node space)

include sizable

/-- Alternation is a run of turns of the claims, and one of the pods. -/
theorem Alternates.turns (alternates : Alternates node space count start finish)
    (inOrder : InOrder node space start.1) :
    (claimSet node space).Turns .volumeClaim node.desiredClaims count start finish ∧
      (podSet node space).Turns .pod node.desiredPods count start finish := by
  induction alternates with
  | none start => exact ⟨.none start, .none start⟩
  | more earlier runs matures inductionHypothesis =>
      obtain ⟨claimTurns, podTurns⟩ := inductionHypothesis inOrder
      have inOrderBefore : InOrder node space _ :=
        ⟨claimTurns.orderly sizable.claims_attainable inOrder.claims,
          podTurns.orderly sizable.pods_attainable inOrder.pods⟩
      obtain ⟨found, claimCalls, middle, podCalls, _, _, completes⟩ :=
        exists_completes_of_runs sizable inOrderBefore runs
      obtain ⟨claimTurn, podTurn⟩ := completes.turns matures
      exact ⟨claimTurns.more claimTurn, podTurns.more podTurn⟩

theorem Alternates.inOrder (alternates : Alternates node space count start finish)
    (inOrder : InOrder node space start.1) : InOrder node space finish.1 := by
  obtain ⟨claimTurns, podTurns⟩ := alternates.turns sizable inOrder
  exact ⟨claimTurns.orderly sizable.claims_attainable inOrder.claims,
    podTurns.orderly sizable.pods_attainable inOrder.pods⟩

/-- Two settled sets are at rest. -/
theorem InOrder.atRest {registry : Registry} {now : Instant}
    (inOrder : InOrder node space registry)
    (claimsSettled : (claimSet node space).isSettled .volumeClaim node.desiredClaims now
      registry = true)
    (podsSettled : (podSet node space).isSettled .pod node.desiredPods now registry = true) :
    AtRest node space registry now := by
  obtain ⟨claimsRest, claimsPlanned⟩ :=
    inOrder.claims.rests sizable.claims_attainable claimsSettled
  obtain ⟨podsRest, _⟩ := inOrder.pods.rests sizable.pods_attainable podsSettled
  refine ⟨claimsRest, podsRest, fun result final runs => ?_⟩
  obtain ⟨found, claimCalls, middle, podCalls, rfl, made, completes⟩ :=
    exists_completes_of_runs sizable inOrder runs
  obtain ⟨claimPlan, claims⟩ := completes.claims
  obtain ⟨podPlan, pods⟩ := completes.pods
  have same : ∀ name, middle.find? .pod space name = registry.find? .pod space name :=
    fun name => claims.find?_eq_of_ne (by decide) _ name
  have podsInOrder : (podSet node space).Orderly .pod node.desiredPods middle :=
    inOrder.pods.congr same
  have settledMiddle : (podSet node space).isSettled .pod node.desiredPods now middle = true :=
    (OrdinalSet.isSettled_congr same).trans podsSettled
  obtain ⟨restMiddle, podsPlanned⟩ :=
    podsInOrder.rests sizable.pods_attainable settledMiddle
  obtain rfl := Except.ok.inj (claims.planned.symm.trans claimsPlanned)
  obtain rfl := Except.ok.inj (pods.planned.symm.trans podsPlanned)
  have settled : found.settled = true := by
    rw [completes.settled_eq, claimsSettled, settledMiddle]
    rfl
  have available : found.availableReplicas = node.desiredPods.length :=
    completes.available_eq.trans restMiddle.available
  constructor
  · rw [← settled, ← available]
  · intro call member
    rw [made] at member
    rcases List.mem_append.1 member with early | late
    · exact ⟨_, _, claims.request_eq_of_idle early⟩
    · exact ⟨_, _, pods.request_eq_of_idle late⟩

/-- A pass that settles finds both sets settled. -/
theorem Alternates.isSettled_of_found (alternates : Alternates node space count start finish)
    (inOrder : InOrder node space start.1) {found : Convergence} {final : Ledger}
    (runs : (converge node finish.2 : Pass Unit Convergence).Runs (fun _ => False) ()
      (.opened finish.1) (.ok found) () final) (settled : found.settled = true) :
    (claimSet node space).isSettled .volumeClaim node.desiredClaims finish.2 finish.1 = true ∧
      (podSet node space).isSettled .pod node.desiredPods finish.2 finish.1 = true := by
  obtain ⟨found', claimCalls, middle, podCalls, same, _, completes⟩ :=
    exists_completes_of_runs sizable (alternates.inOrder sizable inOrder) runs
  obtain rfl := Except.ok.inj same
  obtain ⟨claimPlan, claims⟩ := completes.claims
  rw [completes.settled_eq, Bool.and_eq_true] at settled
  refine ⟨settled.1, (OrdinalSet.isSettled_congr fun name => ?_).symm.trans settled.2⟩
  exact claims.find?_eq_of_ne (by decide) _ name

/-! ## How long it may go on -/

/-- A cluster whose members have matured, and which holds nothing else. -/
def maturedCluster (node : FullNode) (space : String) (registry : Registry) : Registry :=
  (Registry.empty.fill .pod space ((podSet node space).maturedMembers .pod registry)).fill
    .volumeClaim space ((claimSet node space).maturedMembers .volumeClaim registry)

omit sizable in
theorem holdsMatured_maturedCluster (node : FullNode) (space : String) (registry : Registry) :
    (podSet node space).HoldsMatured .pod registry (maturedCluster node space registry) ∧
      (claimSet node space).HoldsMatured .volumeClaim registry
        (maturedCluster node space registry) := by
  have placed : ∀ (set : OrdinalSet) (kind : MemberKind),
      ∀ object ∈ set.maturedMembers kind registry,
        kind.kind.IsPlaced set.space (kind.kind.metadata object).shownName object :=
    fun _ _ _ => OrdinalSet.isPlaced_of_mem_maturedMembers
  constructor
  · intro name object
    rw [← Registry.empty.find?_fill_iff .pod space (fun _ => rfl) _
      (placed (podSet node space) .pod) ((podSet node space).maturedMembers_nodup .pod registry)]
    exact iff_of_eq (congrArg (· = some object)
      (Registry.find?_fill_of_ne _ (by decide) space _ space name))
  · exact Registry.find?_fill_iff _ .volumeClaim space
      (fun name => Registry.find?_fill_of_ne _ (by decide) space _ space name) _
      (placed (claimSet node space) .volumeClaim)
      ((claimSet node space).maturedMembers_nodup .volumeClaim registry)

/-- Whatever a complete pass leaves, the cluster may mature until some time. -/
theorem Completes.exists_matures {now now' : Instant} {before middle after : Registry}
    {claimCalls podCalls : List Call} {found : Convergence}
    (completes : Completes node space now before claimCalls middle podCalls after found)
    (inOrder : InOrder node space before)
    (longAgo : Instant.earliest.addSeconds node.minReadySeconds ≤ now') :
    ∃ later, Matures node space now' after later := by
  obtain ⟨claimPlan, claims⟩ := completes.claims
  obtain ⟨podPlan, pods⟩ := completes.pods
  have sameClaims : ∀ name, after.find? .volumeClaim space name =
      middle.find? .volumeClaim space name := fun name => pods.find?_eq_of_ne (by decide) _ name
  have podsInOrder : (podSet node space).Orderly .pod node.desiredPods middle :=
    inOrder.pods.congr fun name => claims.find?_eq_of_ne (by decide) _ name
  obtain ⟨holdsPods, holdsClaims⟩ := holdsMatured_maturedCluster node space after
  have holdsClaimsOfMiddle : (claimSet node space).HoldsMatured .volumeClaim middle
      (maturedCluster node space after) :=
    holdsClaims.congr sameClaims
  have claimsRipen := holdsClaimsOfMiddle.ripens longAgo
    (holdsClaimsOfMiddle.legible sizable.claims_attainable claims inOrder.claims)
  have podsRipen := holdsPods.ripens longAgo
    (holdsPods.legible sizable.pods_attainable pods podsInOrder)
  exact ⟨_, claimsRipen.congr fun name => (sameClaims name).symm, podsRipen⟩

/-- Passes and times between them may take turns for ever. -/
theorem exists_alternates (start : Registry × Instant) (inOrder : InOrder node space start.1)
    (count : Nat) : ∃ finish, Alternates node space count start finish := by
  induction count with
  | zero => exact ⟨start, .none start⟩
  | succ count inductionHypothesis =>
      obtain ⟨⟨registry, now⟩, earlier⟩ := inductionHypothesis
      have inOrderNow := earlier.inOrder sizable inOrder
      obtain ⟨⟨result, _⟩, final, runs⟩ := Program.exists_runs (fun _ => False)
        ((converge node now : Pass Unit Convergence).run.run ()) (.opened registry)
      obtain ⟨found, claimCalls, middle, podCalls, _, _, completes⟩ :=
        exists_completes_of_runs sizable inOrderNow runs
      obtain ⟨later, matures⟩ := completes.exists_matures sizable inOrderNow (Int.le_refl _)
      exact ⟨_, earlier.more runs matures⟩

/-! ## Settling -/

omit sizable in
/-- Let passes over a full node in which no call fails take turns with times in which its
cluster matures; they can do so for ever.  When so many turns have been taken as twice the
members that needed an update at the start, and two more, every pass settles and only lists
the members, which are the desired ones and up to date.  The same holds from the first pass
on that settles. -/
theorem settles_and_stays (sizable : Sizable node space) (start : Registry × Instant)
    (inOrder : InOrder node space start.1) :
    (∀ count, ∃ finish, Alternates node space count start finish) ∧
    (∀ count finish, Alternates node space count start finish →
      2 + 2 * staleMembers node space start.1 ≤ count →
        AtRest node space finish.1 finish.2) ∧
    ∀ count middle found final, Alternates node space count start middle →
      (converge node middle.2 : Pass Unit Convergence).Runs (fun _ => False) ()
        (.opened middle.1) (.ok found) () final →
      found.settled = true → AtRest node space middle.1 middle.2 ∧
        ∀ more finish, Alternates node space more middle finish →
          AtRest node space finish.1 finish.2 := by
  refine ⟨exists_alternates sizable start inOrder, ?_, ?_⟩
  · intro count finish alternates enough
    obtain ⟨claimTurns, podTurns⟩ := alternates.turns sizable inOrder
    unfold staleMembers at enough
    exact (alternates.inOrder sizable inOrder).atRest sizable
      (claimTurns.isSettled sizable.claims_attainable inOrder.claims (by omega))
      (podTurns.isSettled sizable.pods_attainable inOrder.pods (by omega))
  · intro count middle found final alternates runs settled
    have inOrderMiddle := alternates.inOrder sizable inOrder
    obtain ⟨claimsSettled, podsSettled⟩ :=
      alternates.isSettled_of_found sizable inOrder runs settled
    refine ⟨inOrderMiddle.atRest sizable claimsSettled podsSettled, ?_⟩
    intro more finish further
    obtain ⟨claimTurns, podTurns⟩ := further.turns sizable inOrderMiddle
    exact (further.inOrder sizable inOrderMiddle).atRest sizable
      (claimTurns.isSettled_of_start sizable.claims_attainable inOrderMiddle.claims claimsSettled)
      (podTurns.isSettled_of_start sizable.pods_attainable inOrderMiddle.pods podsSettled)

end Alternation

section Example

/-- A full node of one replica, the pod of which is stale. -/
def staleNode : FullNode := FullNode.sample 1 .empty

/-- The cluster of the full node, which lacks the claim, when the pod has been ready for long
enough. -/
def staleStart : Registry × Instant :=
  (staleCluster staleNode "default", Instant.earliest.addSeconds staleNode.minReadySeconds)

/-- The first pass over the full node when no call fails. -/
def stalePass : (Except (Halt PassError) Convergence × Unit) × Ledger :=
  ((converge staleNode staleStart.2 : Pass Unit Convergence).run.run () : Program _).run
    (Program.serve fun _ => false) (.opened staleStart.1)

theorem sizable_staleNode : Sizable staleNode "default" :=
  ⟨rfl, by decide, by decide, fun _ stated => nomatch stated⟩

theorem inOrder_staleStart : InOrder staleNode "default" staleStart.1 where
  claims := OrdinalSet.orderly_of_absent fun name =>
    Registry.find?_fill_of_ne _ (by decide) _ _ _ name
  pods := by
    have holds : HoldsStale staleNode "default" staleStart.1 := holdsStale_staleCluster rfl
    constructor
    · exact (holds.comparable (by decide) fun _ stated => nomatch stated).listed_readable
    · intro live listed
      obtain ⟨pod, inDesired, rfl⟩ := holds.exists_of_mem_listed listed
      obtain ⟨index, _, rfl, _⟩ := (staleNode.mem_desiredPods_iff pod).1 inDesired
      exact staleNode.podName_ne_empty index
    · exact fun inPlace => nomatch inPlace
    · exact fun _ _ _ found => holds.mem_listed_of_found (by decide) found

/-- A full node with a stale pod, which the first pass deletes, is at rest after four turns. -/
theorem settles_from_stalePod :
    Sizable staleNode "default" ∧ InOrder staleNode "default" staleStart.1 ∧
      staleMembers staleNode "default" staleStart.1 = 1 ∧
      (∃ result final, (converge staleNode staleStart.2 : Pass Unit Convergence).Runs
        (fun _ => False) () (.opened staleStart.1) result () final ∧
          OrdinalSet.deletedNames final.calls = ["cosmoshub-0"]) ∧
      ∃ finish, Alternates staleNode "default" 4 staleStart finish ∧
        AtRest staleNode "default" finish.1 finish.2 := by
  have stale : staleMembers staleNode "default" staleStart.1 = 1 := by decide +kernel
  have deletes : OrdinalSet.deletedNames stalePass.2.calls = ["cosmoshub-0"] := by decide +kernel
  obtain ⟨endless, settles, _⟩ :=
    settles_and_stays sizable_staleNode staleStart inOrder_staleStart
  obtain ⟨finish, alternates⟩ := endless 4
  exact ⟨sizable_staleNode, inOrder_staleStart, stale,
    ⟨_, _, Program.runs_run (fun _ fails => nomatch fails) _ _, deletes⟩,
    finish, alternates, settles 4 finish alternates (by omega)⟩

end Example

end NodeFleet.Fleet
