import NodeFleet.Proofs.Fleet.Converge
import NodeFleet.Proofs.Fleet.DesiredPods
import NodeFleet.Proofs.Snapshot.Repertoire

/-!
# Volume claims are kept

The operator deletes a volume claim only when it is surplus: it carries the labels of
the full node, and no replica has a claim of its name.  As long as nobody lowers the
replicas, no pass of any controller deletes the claim of a replica.
-/

namespace NodeFleet.Fleet

open Calendar Resource Snapshot Store

variable {mayFail : Request → Prop} {σ : Type}

/-- The claims of the replicas are desired, whichever pods are held down. -/
theorem exists_desiredClaim (node : FullNode) {ordinal : Int} (nonnegative : 0 ≤ ordinal)
    (below : ordinal < max node.spec.replicas 0) :
    ∃ claim ∈ node.desiredClaims, claim.metadata.shownName = node.claimName ordinal := by
  obtain ⟨index, rfl⟩ := Int.eq_ofNat_of_zero_le nonnegative
  refine ⟨node.newClaim index, ?_, rfl⟩
  refine List.mem_map_of_mem (List.mem_map.2 ⟨index, List.mem_range.2 ?_, rfl⟩)
  omega

/-- A claim that may be deleted: it is there, it carries the labels of the claims of a
full node, and it is the claim of no replica. -/
structure Disposable (node : FullNode) (registry : Registry) (space name : String) : Prop where
  in_space : node.metadata.namespaceName = some space
  labelled : ∃ claim : VolumeClaim, registry.find? .volumeClaim space name = some claim ∧
    Cluster.selects (node.componentSelector FullNode.claimComponent)
      claim.metadata.labelMap.find? = true
  surplus : ∀ ordinal : Int, 0 ≤ ordinal → ordinal < max node.spec.replicas 0 →
    name ≠ node.claimName ordinal

/-- The labels of a claim that may be deleted, when the full node has a name that
selectors can hold. -/
theorem Disposable.labels {node : FullNode} {registry : Registry} {space name : String}
    (disposable : Disposable node registry space name) (plain : ',' ∉ node.name.toList) :
    ∃ claim : VolumeClaim, registry.find? .volumeClaim space name = some claim ∧
      claim.metadata.labelMap.find? componentKey = some "pvc" ∧
      claim.metadata.labelMap.find? instanceKey = some node.name ∧
      claim.metadata.labelMap.find? nameKey = some "fullnode" := by
  obtain ⟨claim, there, selected⟩ := disposable.labelled
  have componentPlain : ',' ∉ FullNode.claimComponent.toList := by decide
  exact ⟨claim, there, (FullNode.selects_componentSelector_iff plain componentPlain _).1 selected⟩

theorem PodsCourse.request_ne_delete_claim {node : FullNode} {now : Instant}
    {registry : Registry} {calls : List Call} {call : Call}
    (course : PodsCourse node now registry calls) (member : call ∈ calls) (space name : String) :
    call.request ≠ .delete .volumeClaim space name := by
  intro deletes
  rcases course with rfl | ⟨space', inSpace, course⟩
  · cases member
  have requested := course.request_cases member
  rw [deletes] at requested
  rcases requested with listing | renewal
  · cases listing
  · cases renewal

theorem ClaimsCourse.disposable_of_delete {node : FullNode} {now : Instant}
    {registry after : Registry} {calls : List Call} {call : Call} {space name : String}
    (course : ClaimsCourse node now registry calls) (chain : Chain mayFail registry calls after)
    (member : call ∈ calls) (deletes : call.request = .delete .volumeClaim space name) :
    Disposable node call.before space name := by
  rcases course with rfl | ⟨space', inSpace, course⟩
  · cases member
  obtain ⟨past, later, rfl⟩ := List.append_of_mem member
  obtain ⟨_, rfl, ⟨live, inListed, sameName, found⟩, surplus⟩ :=
    course.findsListed_of_delete chain deletes
  refine ⟨inSpace, ⟨live, found, (registry.mem_selected_iff.1 inListed).2⟩, ?_⟩
  intro ordinal nonnegative below same
  obtain ⟨claim, desired, named⟩ := exists_desiredClaim node nonnegative below
  exact surplus rfl claim desired (named.trans same.symm)

/-- A pass over a full node deletes only claims that may be deleted. -/
theorem ConvergeCourse.disposable_of_delete {node : FullNode} {now : Instant}
    {registry after : Registry} {calls : List Call} {call : Call} {space name : String}
    (course : ConvergeCourse node now registry calls)
    (chain : Chain mayFail registry calls after) (member : call ∈ calls)
    (deletes : call.request = .delete .volumeClaim space name) :
    Disposable node call.before space name := by
  obtain ⟨claims, pods, middle, rfl, claimsCourse, podsCourse⟩ := course
  rcases List.mem_append.1 member with early | late
  · obtain ⟨reached, claimsChain, _⟩ := chain.split
    exact claimsCourse.disposable_of_delete claimsChain early deletes
  · exact absurd deletes (podsCourse.request_ne_delete_claim late space name)

/-! ## Runs of all controllers -/

/-- One step of a cluster with a full node that is never asked for fewer than some
replicas: a pass over it as it is stored, a pass of a scheduler, or a change that the
operator has no part in. -/
inductive Tends (mayFail : Request → Prop) (space name : String) (replicas : Int) :
    Registry → List Call → Registry → Prop
  | nodePass {node : FullNode} {settings : Settings} {now : Instant} {registry : Registry}
      {result : Except (Halt ControlError) Action} {final : Ledger}
      (stored : registry.find? .fullNode space name = some node)
      (runs : (syncFullNode node settings now).Runs mayFail (.opened registry) result final) :
      Tends mayFail space name replicas registry final.calls final.registry
  | schedulerPass {scheduler : Scheduler} {settings : Settings} {now : Instant}
      {registry : Registry} {result : Except (Halt ControlError) Action} {final : Ledger}
      (runs : (syncScheduler scheduler settings now).Runs mayFail (.opened registry) result
        final) :
      Tends mayFail space name replicas registry final.calls final.registry
  | elsewhere {before after : Registry}
      (asked : ∀ node : FullNode, after.find? .fullNode space name = some node →
        replicas ≤ node.spec.replicas) :
      Tends mayFail space name replicas before [] after

/-- The calls of any number of steps. -/
inductive Tended (mayFail : Request → Prop) (space name : String) (replicas : Int)
    (start : Registry) : List Call → Registry → Prop
  | start : Tended mayFail space name replicas start [] start
  | more {past calls : List Call} {before after : Registry}
      (earlier : Tended mayFail space name replicas start past before)
      (step : Tends mayFail space name replicas before calls after) :
      Tended mayFail space name replicas start (past ++ calls) after

/-- A full node, if there is one, asks for at least some replicas. -/
def AsksFor (space name : String) (replicas : Int) (registry : Registry) : Prop :=
  ∀ node : FullNode, registry.find? .fullNode space name = some node →
    replicas ≤ node.spec.replicas

/-- Calls that write full nodes only to renew their statuses keep what is asked for. -/
theorem AsksFor.of_chain {space name : String} {replicas : Int} {before after : Registry}
    {calls : List Call} (chain : Chain mayFail before calls after)
    (renews : ∀ call ∈ calls, call.request.place? = some (.fullNode, space, name) →
      ∃ written, call.request = .replaceStatus .fullNode space name written)
    (asks : AsksFor space name replicas before) : AsksFor space name replicas after := by
  exact chain.holds_of_renewals .fullNode (fun node : FullNode => replicas ≤ node.spec.replicas)
    (fun _ _ _ asked => asked) renews asks

/-- A pass over a full node is for members only, and renews statuses of full nodes. -/
theorem SyncCourse.renews {node : FullNode} {now : Instant} {registry : Registry}
    {calls : List Call} {call : Call} {space name : String}
    (course : SyncCourse node now registry calls) (member : call ∈ calls)
    (aimed : call.request.place? = some (.fullNode, space, name)) :
    ∃ written, call.request = .replaceStatus .fullNode space name written := by
  rcases course.place_cases member aimed with pod | claim | statusCall
  · cases pod
  · cases claim
  generalize call.request = request at aimed statusCall
  cases request with
  | replaceStatus kind space' name' written =>
      obtain ⟨rfl, rfl, rfl⟩ : kind = .fullNode ∧ space' = space ∧ name' = name := by
        simpa [Request.place?] using aimed
      exact ⟨written, rfl⟩
  | get kind space' name' => cases aimed
  | publish event => cases aimed
  | _ => cases statusCall

/-- A pass of a scheduler renews statuses of full nodes at most. -/
theorem renews_of_schedulerCall {request : Request} {space name : String}
    (permitted : SchedulerCall request)
    (aimed : request.place? = some (.fullNode, space, name)) :
    ∃ written, request = .replaceStatus .fullNode space name written := by
  rcases permitted with passCall | settling
  · rcases passCall.place_cases aimed with snapshot | pod | ⟨_, renewal⟩
    · cases snapshot
    · cases pod
    · exact renewal
  · cases request with
    | replaceStatus kind space' name' written =>
        obtain ⟨rfl, rfl, rfl⟩ : kind = .fullNode ∧ space' = space ∧ name' = name := by
          simpa [Request.place?] using aimed
        exact ⟨written, rfl⟩
    | get kind space' name' => cases aimed
    | publish event => cases aimed
    | _ => cases settling

theorem not_schedulerCall_delete_claim (space name : String) :
    ¬ SchedulerCall (.delete .volumeClaim space name) := by
  rintro ((quiet | creating) | settling)
  · exact quiet
  · exact creating
  · exact settling

section Steps

variable {space name : String} {replicas : Int} {before after : Registry} {calls : List Call}

theorem Tends.asksFor (step : Tends mayFail space name replicas before calls after)
    (asks : AsksFor space name replicas before) : AsksFor space name replicas after := by
  cases step with
  | nodePass stored runs =>
      refine asks.of_chain (Program.Runs.chain runs) fun call member aimed => ?_
      exact (syncCourse_of_runs runs).renews member aimed
  | schedulerPass runs =>
      refine asks.of_chain (Program.Runs.chain runs) fun call member aimed => ?_
      exact renews_of_schedulerCall ((makes_syncScheduler _ _ _).of_runs runs call member) aimed
  | elsewhere asked => exact asked

theorem Tends.request_ne_delete (step : Tends mayFail space name replicas before calls after)
    (asks : AsksFor space name replicas before) {node : FullNode} (named : node.name = name)
    {call : Call} (member : call ∈ calls) {ordinal : Int} (nonnegative : 0 ≤ ordinal)
    (below : ordinal < replicas) :
    call.request ≠ .delete .volumeClaim space (node.claimName ordinal) := by
  intro deletes
  cases step with
  | @nodePass stored settings now _ result final there runs =>
      have chain := Program.Runs.chain runs
      obtain ⟨pass, rest, made, course, statusCalls⟩ := syncCourse_of_runs runs
      rw [made] at member chain
      obtain ⟨middle, passChain, _⟩ := chain.split
      rcases List.mem_append.1 member with inPass | inRest
      · have disposable := course.disposable_of_delete passChain inPass deletes
        have enough := asks stored there
        refine disposable.surplus ordinal nonnegative (by omega) ?_
        have sameName : stored.name = node.name :=
          (Registry.isPlaced_of_find? there).shownName_eq.trans named.symm
        simp only [FullNode.claimName, sameName]
      · have statusCall := statusCalls call inRest
        rw [deletes] at statusCall
        exact statusCall
  | schedulerPass runs =>
      have permitted := (makes_syncScheduler _ _ _).of_runs runs call member
      rw [deletes] at permitted
      exact not_schedulerCall_delete_claim _ _ permitted
  | elsewhere asked => cases member

/-- Any number of steps keep what is asked for and every claim of a replica. -/
theorem Tended.spares {start : Registry}
    (tended : Tended mayFail space name replicas start calls after)
    (asks : AsksFor space name replicas start) {node : FullNode} (named : node.name = name) :
    AsksFor space name replicas after ∧ ∀ call ∈ calls, ∀ ordinal : Int, 0 ≤ ordinal →
      ordinal < replicas → call.request ≠ .delete .volumeClaim space (node.claimName ordinal) := by
  induction tended with
  | start => exact ⟨asks, by simp⟩
  | more earlier step inductionHypothesis =>
      obtain ⟨asksBefore, spared⟩ := inductionHypothesis
      refine ⟨step.asksFor asksBefore, fun call member ordinal nonnegative below => ?_⟩
      rcases List.mem_append.1 member with past | new
      · exact spared call past ordinal nonnegative below
      · exact step.request_ne_delete asksBefore named new nonnegative below

end Steps

/-- A pass over a full node deletes a volume claim only when it is surplus and carries
the labels of the full node's claims.  While its replicas are never lowered, no sequence
of passes over the full node and of schedulers deletes the claim of a replica. -/
theorem claims_of_replicas_are_kept (mayFail : Request → Prop) (node : FullNode) :
    (∀ (σ : Type) (state state' : σ) (now : Instant) (registry : Registry)
        (result : Except (Halt PassError) Convergence) (final : Ledger),
      (converge node now).Runs mayFail state (.opened registry) result state' final →
        ∀ call ∈ final.calls, ∀ space name, call.request = .delete .volumeClaim space name →
          Disposable node call.before space name ∧
            (',' ∉ node.name.toList → ∃ claim : VolumeClaim,
              call.before.find? .volumeClaim space name = some claim ∧
                claim.metadata.labelMap.find? componentKey = some "pvc" ∧
                claim.metadata.labelMap.find? instanceKey = some node.name ∧
                claim.metadata.labelMap.find? nameKey = some "fullnode")) ∧
    ∀ (space name : String) (start after : Registry) (calls : List Call),
      start.find? .fullNode space name = some node →
      Tended mayFail space name node.spec.replicas start calls after →
        ∀ call ∈ calls, ∀ ordinal : Int, 0 ≤ ordinal → ordinal < node.spec.replicas →
          call.request ≠ .delete .volumeClaim space (node.claimName ordinal) := by
  constructor
  · intro σ state state' now registry result final runs call member space name deletes
    obtain ⟨calls, made, course⟩ :=
      Pass.EnsuresAlways.of_runs (ensures_converge node now state (.opened registry)) runs
    rw [Ledger.calls_opened, List.nil_append] at made
    subst made
    have disposable := course.disposable_of_delete (Program.Runs.chain runs) member deletes
    exact ⟨disposable, disposable.labels⟩
  · intro space name start after calls there tended
    have asks : AsksFor space name node.spec.replicas start := by
      intro stored there'
      obtain rfl := Option.some.inj (there.symm.trans there')
      exact Int.le_refl _
    exact (tended.spares asks (Registry.isPlaced_of_find? there).shownName_eq).2

section Example

/-- A full node of two replicas, one of which is held down. -/
def loweredNode : FullNode := FullNode.sample 2 (.ofList [("default.hourly", ⟨"cosmoshub-0"⟩)])

/-- A cluster that still has the claim of a third replica. -/
def loweredCluster : Registry :=
  (Registry.empty.put .fullNode "default" "cosmoshub" loweredNode).fill .volumeClaim "default"
    [loweredNode.newClaim 0, loweredNode.newClaim 1, loweredNode.newClaim 2]

/-- A pass over the full node when no call fails. -/
def loweredPass : (Except (Halt PassError) Convergence × Unit) × Ledger :=
  ((converge loweredNode .earliest : Pass Unit Convergence).run.run () : Program _).run
    (Program.serve fun _ => false) (.opened loweredCluster)

/-- The controller of the full node when no call fails. -/
def loweredSync : Except (Halt ControlError) Action × Ledger :=
  (syncFullNode loweredNode .standard .earliest).run.run (Program.serve fun _ => false)
    (.opened loweredCluster)

theorem find?_loweredCluster :
    loweredCluster.find? .fullNode "default" "cosmoshub" = some loweredNode :=
  (Registry.find?_fill_of_ne _ (by decide) _ _ _ _).trans (Registry.sets_put _ ⟨rfl, rfl⟩).here

/-- The claim of the third replica is deleted by a pass, and by the controller that makes it; the
claims of the two replicas are kept. -/
theorem claims_of_two_replicas_are_kept :
    ∃ (result : Except (Halt PassError) Convergence) (final : Ledger) (calls : List Call)
      (after : Registry),
      (converge loweredNode .earliest).Runs (fun _ => False) () (.opened loweredCluster) result ()
        final ∧
      OrdinalSet.deletedNames final.calls = ["pvc-cosmoshub-2"] ∧
      (∀ call ∈ final.calls, ∀ space name, call.request = .delete .volumeClaim space name →
        Disposable loweredNode call.before space name) ∧
      Tended (fun _ => False) "default" "cosmoshub" 2 loweredCluster calls after ∧
      OrdinalSet.deletedNames calls = ["pvc-cosmoshub-2"] ∧
      (∀ call ∈ calls, call.request ≠ .delete .volumeClaim "default" "pvc-cosmoshub-0" ∧
        call.request ≠ .delete .volumeClaim "default" "pvc-cosmoshub-1") ∧
      (after.find? .volumeClaim "default" "pvc-cosmoshub-0").isSome = true ∧
      (after.find? .volumeClaim "default" "pvc-cosmoshub-1").isSome = true := by
  have never : ∀ request : Request, (fun _ => false) request = true → False :=
    fun _ fails => nomatch fails
  have runs : (converge loweredNode .earliest : Pass Unit Convergence).Runs (fun _ => False) ()
      (.opened loweredCluster) loweredPass.1.1 () loweredPass.2 := Program.runs_run never _ _
  have syncRuns : (syncFullNode loweredNode .standard .earliest).Runs (fun _ => False)
      (.opened loweredCluster) loweredSync.1 loweredSync.2 := Program.runs_run never _ _
  have deleted : OrdinalSet.deletedNames loweredPass.2.calls = ["pvc-cosmoshub-2"] := by
    decide +kernel
  have left : OrdinalSet.deletedNames loweredSync.2.calls = ["pvc-cosmoshub-2"] ∧
      (loweredSync.2.registry.find? .volumeClaim "default" "pvc-cosmoshub-0").isSome = true ∧
      (loweredSync.2.registry.find? .volumeClaim "default" "pvc-cosmoshub-1").isSome = true := by
    decide +kernel
  have tended : Tended (fun _ => False) "default" "cosmoshub" 2 loweredCluster
      loweredSync.2.calls loweredSync.2.registry :=
    .more .start (.nodePass find?_loweredCluster syncRuns)
  obtain ⟨ofPass, ofRun⟩ := claims_of_replicas_are_kept (fun _ => False) loweredNode
  refine ⟨_, _, _, _, runs, deleted, ?_, tended, left.1, ?_, left.2⟩
  · exact fun call member space name deletes =>
      (ofPass Unit () () .earliest _ _ _ runs call member space name deletes).1
  · intro call member
    have spared := ofRun "default" "cosmoshub" loweredCluster _ _ find?_loweredCluster tended
      call member
    exact ⟨spared 0 (by decide) (by decide), spared 1 (by decide) (by decide)⟩

end Example

end NodeFleet.Fleet
