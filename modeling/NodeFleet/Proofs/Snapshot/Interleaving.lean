import NodeFleet.Proofs.Fleet.HeldDown
import NodeFleet.Proofs.Fleet.StalePods
import NodeFleet.Proofs.Snapshot.Settling

/-!
# Passes that take turns

Passes of a scheduler and of its full node take turns, while somebody suspends the
scheduler and lets it go on, and the cluster changes in between.  When a snapshot is
created, the candidate is down and registered as held down, unless an earlier pass was
interrupted just after it had taken the entry away.
-/

namespace NodeFleet.Snapshot

open Calendar Fleet Resource Store

/-- What a cluster does by itself: pods and snapshots may change and go, but no pod comes,
and full nodes and schedulers stay as they are. -/
structure Progresses (before after : Registry) : Prop where
  sameNodes : ∀ space name, after.find? .fullNode space name = before.find? .fullNode space name
  sameSchedulers : ∀ space name,
    after.find? .scheduler space name = before.find? .scheduler space name
  noNewPod : ∀ space name, before.find? .pod space name = none →
    after.find? .pod space name = none

theorem Progresses.leaves {before after : Registry} (progresses : Progresses before after)
    (slot : Slot) : slot.Leaves before after where
  entry := by
    unfold Slot.held?
    rw [progresses.sameNodes]
  down := fun podName _ => progresses.noNewPod slot.space podName

/-- How the passes of a scheduler and of its full node take turns, with the calls of the
scheduler's passes, the latest first. -/
inductive TakeTurns (space name : String) (slot : Slot) (start : Registry) :
    List (List Call) → Registry → Prop
  | start : TakeTurns space name slot start [] start
  | schedulerPass {passes : List (List Call)} {before : Registry} {scheduler : Scheduler}
      {settings : Settings} {now : Instant} {result : Except (Halt ControlError) Action}
      {final : Ledger} (earlier : TakeTurns space name slot start passes before)
      (stored : before.find? .scheduler space name = some scheduler)
      (runs : (syncScheduler scheduler settings now).Runs MayFail (.opened before) result
        final) :
      TakeTurns space name slot start (final.calls :: passes) final.registry
  | nodePass {passes : List (List Call)} {before : Registry} {node : FullNode}
      {settings : Settings} {now : Instant} {result : Except (Halt ControlError) Action}
      {final : Ledger} (earlier : TakeTurns space name slot start passes before)
      (stored : before.find? .fullNode slot.space slot.nodeName = some node)
      (runs : (syncFullNode node settings now).Runs MayFail (.opened before) result final) :
      TakeTurns space name slot start passes final.registry
  | toggle {passes : List (List Call)} {before after : Registry} {scheduler : Scheduler}
      {metadata : ObjectMeta} {suspended : Option Bool}
      (earlier : TakeTurns space name slot start passes before)
      (stored : before.find? .scheduler space name = some scheduler)
      (sets : before.Sets .scheduler space name (some { scheduler with
        metadata := metadata
        spec := { scheduler.spec with suspend := suspended } }) after) :
      TakeTurns space name slot start passes after
  | progress {passes : List (List Call)} {before after : Registry}
      (earlier : TakeTurns space name slot start passes before)
      (progresses : Progresses before after) : TakeTurns space name slot start passes after

/-- What holds between the passes: the scheduler is stored with its slot and a safe status,
and its slot is empty when it is stranded. -/
structure Between (space name : String) (slot : Slot) (stranded : Prop) (registry : Registry)
    (scheduler : Scheduler) : Prop where
  stored : registry.find? .scheduler space name = some scheduler
  slot_eq : slotOf scheduler = slot
  safe : Safe slot stranded (scheduler.status.getD .initial) registry
  vacant : stranded → slot.held? registry = none

section Turns

variable {space name : String} {slot : Slot} {stranded : Prop} {start before after : Registry}
  {passes : List (List Call)} {first scheduler : Scheduler} {settings : Settings}
  {now : Instant} {result : Except (Halt ControlError) Action} {final : Ledger}

/-- What leaves the scheduler and its hold alone keeps what holds between the passes. -/
theorem Between.of_leaves (between : Between space name slot stranded before scheduler)
    (leaves : slot.Leaves before after)
    (stored : after.find? .scheduler space name = some scheduler) :
    Between space name slot stranded after scheduler where
  stored := stored
  slot_eq := between.slot_eq
  safe := between.safe.of_registry leaves
  vacant := fun isStranded => leaves.entry.trans (between.vacant isStranded)

/-- A pass of the scheduler ends in what is to hold when it is over. -/
theorem Between.exists_ended (between : Between space name slot stranded before scheduler)
    (named : name ≠ "")
    (runs : (syncScheduler scheduler settings now).Runs MayFail (.opened before) result final) :
    ∃ latest, Ended space name slot stranded final latest := by
  obtain rfl := between.slot_eq
  exact Control.EnsuresAlways.of_runs
    (ensures_syncScheduler settings now named between.stored between.safe) runs

theorem Between.of_nodePass {node : FullNode}
    (between : Between space name slot stranded before scheduler)
    (stored : before.find? .fullNode slot.space slot.nodeName = some node)
    (runs : (syncFullNode node settings now).Runs MayFail (.opened before) result final) :
    Between space name slot stranded final.registry scheduler := by
  have leaves : slot.Leaves before final.registry :=
    Control.EnsuresAlways.of_runs (ensures_syncFullNode_leaves settings stored) runs
  refine between.of_leaves leaves ?_
  rw [(syncCourse_of_runs runs).find?_scheduler_eq (Program.Runs.chain runs)]
  exact between.stored

/-- Every turn keeps what holds between the passes. -/
theorem TakeTurns.exists_between
    (turns : TakeTurns space name (slotOf first) start passes after) (named : name ≠ "")
    (begun : start.find? .scheduler space name = some first)
    (fresh : first.status.getD .initial = .initial) :
    ∃ scheduler, Between space name (slotOf first) ((slotOf first).Stranded passes) after
      scheduler := by
  induction turns with
  | start =>
      refine ⟨first, begun, rfl, safe_of_calm ?_, False.elim⟩
      rw [fresh]
      rfl
  | schedulerPass earlier stored runs inductionHypothesis =>
      obtain ⟨scheduler, between⟩ := inductionHypothesis
      obtain rfl := Option.some.inj (between.stored.symm.trans stored)
      obtain ⟨latest, ended⟩ := between.exists_ended named runs
      exact ⟨latest, ended.stored, ended.slot_eq, ended.finished.safe, fun stranded =>
        stranded.held?_eq_none (Program.Runs.chain runs) between.vacant⟩
  | nodePass earlier stored runs inductionHypothesis =>
      obtain ⟨scheduler, between⟩ := inductionHypothesis
      exact ⟨scheduler, between.of_nodePass stored runs⟩
  | toggle earlier stored sets inductionHypothesis =>
      obtain ⟨scheduler, between⟩ := inductionHypothesis
      obtain rfl := Option.some.inj (between.stored.symm.trans stored)
      have leaves : (slotOf first).Leaves _ _ :=
        Slot.leaves_of_sets sets (by decide) (by decide)
      refine ⟨_, sets.here, Eq.trans ?_ between.slot_eq, ?_, ?_⟩
      · exact slotOf_congr (Registry.isPlaced_of_find? stored)
          (Registry.isPlaced_of_find? sets.here) rfl
      · exact between.safe.of_registry leaves
      · exact fun isStranded => leaves.entry.trans (between.vacant isStranded)
  | progress earlier progresses inductionHypothesis =>
      obtain ⟨scheduler, between⟩ := inductionHypothesis
      refine ⟨scheduler, between.of_leaves (progresses.leaves _) ?_⟩
      rw [progresses.sameSchedulers]
      exact between.stored

theorem Accounted.not_interrupted {candidate? : Option Candidate} {calls : List Call}
    {call : Call} (accounted : Accounted slot stranded candidate? calls) (member : call ∈ calls)
    (creates : CreatingCall call.request) : ¬ slot.Interrupted calls := by
  rintro ⟨past, handed, lookup, later, rfl, _, _, looksUp, _, settling⟩
  obtain ⟨_, ordered, across⟩ := List.pairwise_append.1 accounted.ordered
  rcases List.mem_append.1 member with early | late
  · exact across call early lookup (by simp) creates looksUp
  rcases List.mem_cons.1 late with rfl | later
  · exact List.rel_of_pairwise_cons ordered List.mem_cons_self creates looksUp
  rcases List.mem_cons.1 later with rfl | inLater
  · generalize call.request = request at creates looksUp
    cases request with
    | create kind space object => cases looksUp
    | _ => cases creates
  · have settles := settling call inLater
    generalize call.request = request at creates settles
    cases request with
    | create kind space object => cases settles
    | _ => cases creates

/-- When a call is made, the pod is quiesced that a pass goes on to store as the
candidate. -/
def CandidateQuiesced (space name : String) (slot : Slot) (call : Call) (final : Registry) :
    Prop :=
  ∃ (latest : Scheduler) (candidate : Candidate),
    final.find? .scheduler space name = some latest ∧
      (latest.status.getD .initial).candidate = some candidate ∧
      slot.Quiesced call.before candidate.podName

/-- Whenever a pass creates a snapshot, its candidate is quiesced exactly when the scheduler
is not stranded. -/
theorem candidateQuiesced_iff (named : name ≠ "")
    (begun : start.find? .scheduler space name = some first)
    (fresh : first.status.getD .initial = .initial)
    (turns : TakeTurns space name (slotOf first) start passes before)
    (stored : before.find? .scheduler space name = some scheduler)
    (runs : (syncScheduler scheduler settings now).Runs MayFail (.opened before) result final) :
    ∀ call ∈ final.calls, CreatingCall call.request →
      (CandidateQuiesced space name (slotOf first) call final.registry ↔
        ¬ (slotOf first).Stranded (final.calls :: passes)) := by
  intro call member creates
  obtain ⟨_, between⟩ := turns.exists_between named begun fresh
  obtain rfl := Option.some.inj (between.stored.symm.trans stored)
  obtain ⟨latest, ended⟩ := between.exists_ended named runs
  constructor
  · rintro ⟨_, candidate, _, _, quiesced⟩ ⟨idle, interrupted | stranded⟩
    · exact ended.finished.accounted.not_interrupted member creates interrupted
    · have vacant := Slot.held?_before_eq_none (Program.Runs.chain runs)
        (between.vacant stranded) idle member
      exact absurd (quiesced.held.symm.trans vacant) (by simp)
  · intro free
    obtain ⟨candidate, chosen, quiesced | lost⟩ :=
      ended.finished.accounted.quiesced call member creates
    · exact ⟨latest, candidate, ended.stored, chosen, quiesced⟩
    · exact absurd ⟨lost.1, Or.inr lost.2⟩ free

/-- However the passes take turns, the candidate is quiesced whenever a snapshot is
created. -/
def QuiescesCandidates (space name : String) (start : Registry) (first : Scheduler) : Prop :=
  ∀ (passes : List (List Call)) (before : Registry) (scheduler : Scheduler)
    (settings : Settings) (now : Instant) (result : Except (Halt ControlError) Action)
    (final : Ledger),
    TakeTurns space name (slotOf first) start passes before →
      before.find? .scheduler space name = some scheduler →
        (syncScheduler scheduler settings now).Runs MayFail (.opened before) result final →
          ∀ call ∈ final.calls, CreatingCall call.request →
            CandidateQuiesced space name (slotOf first) call final.registry

end Turns

/-! ## Turns that strand a scheduler -/

/-- A scheduler of an example, which takes a snapshot every hour. -/
def hourly : Scheduler :=
  { metadata := { ObjectMeta.empty with
      creationTimestamp := some ⟨0⟩
      name := some "hourly"
      namespaceName := some "default" }
    spec := {
      fullNodeRef := { name := "cosmoshub", namespaceName := none }
      schedule := "0 * * * *"
      snapshotClassName := none
      limit := none
      minAvailable := some 1
      candidateOrdinal := none
      suspend := none }
    status := none }

/-- A cluster of an example: a full node with one ready pod, and a scheduler. -/
def sampleCluster : Registry :=
  let node := FullNode.sample 1 .empty
  let pod : Pod := { node.plainPod 0 with status := some readyStatus }
  ({ Registry.empty with definitions := [Kind.volumeSnapshot.definitionName] }
    |>.put .fullNode "default" "cosmoshub" node
    |>.put .pod "default" "cosmoshub-0" pod
    |>.put .scheduler "default" "hourly" hourly)

def heldScheduler (registry : Registry) : Scheduler :=
  (registry.find? .scheduler "default" "hourly").getD hourly

def suspended (suspend : Bool) (registry : Registry) : Registry :=
  let scheduler := heldScheduler registry
  registry.put .scheduler "default" "hourly"
    { scheduler with spec := { scheduler.spec with suspend := some suspend } }

/-- The controller of a cluster's scheduler, at one o'clock. -/
def hourlyPass (registry : Registry) : Control Action :=
  syncScheduler (heldScheduler registry) .standard (.ofSeconds 3600)

/-- How that controller leaves the cluster where some calls fail. -/
def afterPass (fails : Request → Bool) (registry : Registry) : Ledger :=
  ((hourlyPass registry).run.run (Program.serve fails) (Ledger.opened registry)).2

/-- The first pass takes the pod down, but fails to create the snapshot. -/
def firstPass : Ledger := afterPass (fun request => decide (CreatingCall request)) sampleCluster

/-- In the second pass the scheduler is suspended: it takes the entry away, but fails to look
up the pod. -/
def secondPass : Ledger :=
  afterPass (fun request => decide (Slot.LooksUpPod request)) (suspended true firstPass.registry)

/-- In the third pass the scheduler goes on, and no call fails. -/
def thirdPass : Ledger := afterPass (fun _ => false) (suspended false secondPass.registry)

section Example

variable {registry : Registry} {passes : List (List Call)} {fails : Request → Bool}

abbrev HourlyTurns : List (List Call) → Registry → Prop :=
  TakeTurns "default" "hourly" (slotOf hourly) sampleCluster

theorem find?_sampleCluster :
    sampleCluster.find? .scheduler "default" "hourly" = some hourly :=
  (Registry.sets_put _ ⟨rfl, rfl⟩).here

theorem HourlyTurns.stored (turns : HourlyTurns passes registry) :
    registry.find? .scheduler "default" "hourly" = some (heldScheduler registry) := by
  obtain ⟨scheduler, between⟩ := turns.exists_between (by decide) find?_sampleCluster rfl
  simp [heldScheduler, between.stored]

theorem runs_hourlyPass (may : ∀ request, fails request = true → MayFail request)
    (registry : Registry) :
    ∃ result, (hourlyPass registry).Runs MayFail (.opened registry) result
      (afterPass fails registry) :=
  ⟨_, Program.runs_run may _ _⟩

theorem HourlyTurns.pass (turns : HourlyTurns passes registry)
    (may : ∀ request, fails request = true → MayFail request) :
    HourlyTurns ((afterPass fails registry).calls :: passes)
      (afterPass fails registry).registry := by
  obtain ⟨_, runs⟩ := runs_hourlyPass may registry
  exact turns.schedulerPass (HourlyTurns.stored turns) runs

theorem HourlyTurns.suspended (turns : HourlyTurns passes registry) (suspend : Bool) :
    HourlyTurns passes (suspended suspend registry) := by
  have stored := HourlyTurns.stored turns
  have placed := Registry.isPlaced_of_find? stored
  exact turns.toggle stored (registry.sets_put ⟨placed.named, placed.inSpace⟩)

theorem mayFail_of_creatingCall (request : Request)
    (creates : decide (CreatingCall request) = true) : MayFail request := by
  have creating := of_decide_eq_true creates
  cases request with
  | create kind space object => trivial
  | _ => cases creating

theorem mayFail_of_looksUpPod (request : Request)
    (looksUp : decide (Slot.LooksUpPod request) = true) : MayFail request := by
  have looking := of_decide_eq_true looksUp
  cases request with
  | get kind space name =>
      cases kind with
      | pod => trivial
      | _ => cases looking
  | _ => cases looking

theorem mayFail_of_false (request : Request) (fails : false = true) : MayFail request :=
  nomatch fails

/-- Where no call fails, the first pass creates a snapshot, and the condition for its
candidate to be quiesced is as stated. -/
theorem candidateQuiesced_iff_of_hourly :
    ∃ call ∈ (afterPass (fun _ => false) sampleCluster).calls, CreatingCall call.request ∧
      (CandidateQuiesced "default" "hourly" (slotOf hourly) call
          (afterPass (fun _ => false) sampleCluster).registry ↔
        ¬ (slotOf hourly).Stranded [(afterPass (fun _ => false) sampleCluster).calls]) := by
  have created : ∃ call ∈ (afterPass (fun _ => false) sampleCluster).calls,
      CreatingCall call.request := by
    decide +kernel
  obtain ⟨call, member, creates⟩ := created
  obtain ⟨_, runs⟩ := runs_hourlyPass mayFail_of_false sampleCluster
  exact ⟨call, member, creates, candidateQuiesced_iff (by decide) find?_sampleCluster rfl .start
    (HourlyTurns.stored .start) runs call member creates⟩

/-- Once the look-up of the pod has failed, the scheduler goes on to create a snapshot though
no pod is registered as held down. -/
theorem not_quiescesCandidates_of_interrupted :
    ¬ QuiescesCandidates "default" "hourly" sampleCluster hourly := by
  intro quiesces
  have first := HourlyTurns.pass .start mayFail_of_creatingCall
  have second := HourlyTurns.pass (HourlyTurns.suspended first true) mayFail_of_looksUpPod
  have third := HourlyTurns.suspended second false
  have created : ∃ call ∈ thirdPass.calls, CreatingCall call.request ∧
      (slotOf hourly).held? call.before = none := by
    decide +kernel
  obtain ⟨call, member, creates, vacant⟩ := created
  obtain ⟨_, runs⟩ := runs_hourlyPass mayFail_of_false (suspended false secondPass.registry)
  obtain ⟨_, candidate, _, _, quiesced⟩ :=
    quiesces _ _ _ _ _ _ _ third (HourlyTurns.stored third) runs call member creates
  exact Option.some_ne_none _ (quiesced.held.symm.trans vacant)

end Example

end NodeFleet.Snapshot
