import Mathlib.Logic.Relation
import NodeFleet.Proofs.Fleet.Partition
import NodeFleet.Proofs.Fleet.StalePods
import NodeFleet.Proofs.Store.Unfailing

/-!
# Rollouts stay above the floor

However a cluster stands and whichever calls fail, a pass over pods leaves the
desired pods that may not be unavailable available, if they were; and so does any
sequence of passes.
-/

namespace NodeFleet.Fleet

open Calendar Resource Store

namespace OrdinalSet

variable {mayFail : Request → Prop} {σ : Type}

/-- One step of a cluster whose desired pods stay the same: a pass over them, whatever
its calls come to, or anything else that leaves the available ones available while
time goes by. -/
inductive Moves (mayFail : Request → Prop) (set : OrdinalSet) (desired : List Pod) :
    Registry × Instant → Registry × Instant → Prop
  | pass {registry : Registry} {now : Instant} {result : Except (Halt PassError) SetOutcome}
      {final : Ledger}
      (runs : (set.reconcile .pod desired now : Pass Unit SetOutcome).Runs mayFail ()
        (.opened registry) result () final) :
      Moves mayFail set desired (registry, now) (final.registry, now)
  | elsewhere {before after : Registry × Instant}
      (keeps : ∀ pod ∈ desired,
        set.isAvailableAt before.2 before.1 pod.metadata.shownName = true →
          set.isAvailableAt after.2 after.1 pod.metadata.shownName = true) :
      Moves mayFail set desired before after

/-- What the server holds asks for scaling: these desired pods are not listed, and these listed
ones are not desired, in the order of their positions. -/
structure Scaling (set : OrdinalSet) (desired : List Pod) (registry : Registry)
    (missing surplus : List Pod) : Prop where
  ranked_missing : Ranked (positionOf Pod.metadata)
    (desired.filter (!namedIn Pod.metadata (set.listed .pod registry) ·)) missing
  ranked_surplus : Ranked (positionOf Pod.metadata)
    ((set.listed .pod registry).filter (!namedIn Pod.metadata desired ·)) surplus

/-- What calls do, as the server holds pods: they create all that are missing and delete all that
are surplus; or, if there are none of either, they delete the first outdated ones, or only list
them if there are none of these either.  They do less only if something hinders them. -/
structure Decides (set : OrdinalSet) (desired : List Pod) (now : Instant) (registry : Registry)
    (calls : List Call) (finished : Prop) : Prop where
  scales : ¬ set.Matches desired registry → ∃ missing surplus,
    set.Scaling desired registry missing surplus ∧
      Adheres (set.listing .pod ::
        (missing.map (set.creation .pod) ++ surplus.map (set.deletion .pod))) calls finished
  updates : set.Matches desired registry → set.HasOutdated desired registry →
    set.Updates desired now registry calls finished
  rests : set.Matches desired registry → ¬ set.HasOutdated desired registry →
    Adheres [set.listing .pod] calls finished

section Run

variable {set : OrdinalSet} {desired : List Pod} {now : Instant} {registry : Registry}
  {result : Except (Halt PassError) SetOutcome} {state state' : σ} {final : Ledger}

theorem scales_or_updates_of_runs
    (runs : (set.reconcile .pod desired now).Runs mayFail state (.opened registry) result
      state' final) :
    set.Scales desired registry final.calls ∨
      set.Updates desired now registry final.calls (result.isOk = true) := by
  cases planned : set.plan .pod desired now registry with
  | ok plan => exact scales_or_updates_of_plan planned (adheres_of_runs runs planned)
  | error message => exact Or.inl (scales_of_breaksOff (breaksOff_of_unplanned runs planned))

/-- What the server holds of comparable pods decides what a run does. -/
theorem decides_of_runs (comparable : set.Comparable desired registry)
    (runs : (set.reconcile .pod desired now).Runs mayFail state (.opened registry) result
      state' final) :
    set.Decides desired now registry final.calls (result.isOk = true) := by
  obtain ⟨changes, found⟩ := comparable.exists_differences
  have part := part_of_diff found
  refine ⟨fun unmatched => ?scales, fun matching outdated => ?updates,
    fun matching upToDate => ?rests⟩
  case scales =>
    have scaling : changes.isScaling = true :=
      Bool.not_eq_false _ ▸ mt (steady_iff_matches found).1 unmatched
    exact ⟨changes.creates, changes.deletes, ⟨part.creates, part.deletes⟩,
      adheres_of_runs runs (plan_of_scaling found scaling)⟩
  case updates =>
    obtain ⟨updates, budget, rollout, planned⟩ := comparable.exists_rollout matching outdated now
    exact updates_of_adheres rollout (adheres_of_runs runs planned)
  case rests =>
    have idle : changes.updates = [] :=
      not_not.1 (mt (updates_ne_nil_iff found).1 upToDate)
    exact adheres_of_runs runs
      (plan_of_idle found ((steady_iff_matches found).2 matching) (Or.inr idle))

theorem floor_le_available_of_runs
    (runs : (set.reconcile .pod desired now).Runs mayFail state (.opened registry) result
      state' final) :
    min (set.available desired now registry : Int) (set.floor desired) ≤
      set.available desired now final.registry := by
  have chain : Chain mayFail registry final.calls final.registry := Program.Runs.chain runs
  rcases scales_or_updates_of_runs runs with scales | updates
  · have kept : set.available desired now registry ≤ set.available desired now final.registry :=
      scales.available_le chain
    omega
  · exact updates.floor_le_available chain

theorem Moves.floor_le {before after : Registry × Instant}
    (moves : set.Moves mayFail desired before after)
    (above : set.floor desired ≤ set.available desired before.2 before.1) :
    set.floor desired ≤ set.available desired after.2 after.1 := by
  cases moves with
  | pass runs =>
      have kept := floor_le_available_of_runs runs
      simp only at above ⊢
      omega
  | elsewhere keeps =>
      have kept : set.available desired before.2 before.1 ≤
          set.available desired after.2 after.1 :=
        List.countP_mono_left keeps
      omega

end Run

/-! ## When no call fails -/

/-- A call that lists pods or deletes one. -/
def Removes (set : OrdinalSet) (request : Request) : Prop :=
  request = set.listing .pod ∨ ∃ name, request = .delete .pod set.space name

section Unfailing

variable {set : OrdinalSet} {desired deleted : List Pod} {now : Instant} {registry : Registry}
  {result : Except (Halt PassError) SetOutcome} {state state' : σ} {final : Ledger}

theorem removes_of_breaksOff {calls : List Call}
    (broken : BreaksOff (set.listing .pod :: deleted.map (set.deletion .pod)) calls) :
    ∀ call ∈ calls, set.Removes call.request := by
  intro call member
  refine (List.mem_cons.1 (broken.request_mem member)).imp_right fun deletion => ?_
  obtain ⟨pod, _, same⟩ := List.mem_map.1 deletion
  exact ⟨_, same.symm⟩

/-- When no call may fail, every call of a rollout succeeds. -/
theorem succeeds_of_breaksOff {after : Registry} {calls : List Call}
    (planned : set.plan .pod desired now registry = .ok (deleted.map (set.deletion .pod)))
    (broken : BreaksOff (set.listing .pod :: deleted.map (set.deletion .pod)) calls)
    (chain : Chain (fun _ => False) registry calls after) :
    ∀ call ∈ calls, call.Succeeds := by
  intro call member
  have removal := removes_of_breaksOff broken call member
  have course : set.Course .pod desired now registry calls := Or.inr ⟨_, planned, broken⟩
  obtain ⟨past, later, rfl⟩ := List.append_of_mem member
  obtain ⟨_, served, _⟩ := chain.before_eq
  rcases call with ⟨request, answer, before, callAfter⟩
  rcases removal with rfl | ⟨name, rfl⟩
  · exact ok_of_list served
  · obtain ⟨live, _, _, there⟩ := (course.findsListed_of_delete chain rfl).found
    exact ok_of_delete served there

/-- A rollout gets to its end when no call may fail. -/
theorem isOk_of_runs
    (runs : (set.reconcile .pod desired now).Runs (fun _ => False) state (.opened registry)
      result state' final)
    (planned : set.plan .pod desired now registry = .ok (deleted.map (set.deletion .pod)))
    (named : ∀ pod ∈ deleted, pod.metadata.shownName ≠ "") :
    result.isOk = true ∧ ∀ call ∈ final.calls, call.Succeeds := by
  have adheres := adheres_of_runs runs planned
  have succeed := succeeds_of_breaksOff planned adheres.breaksOff (Program.Runs.chain runs)
  refine ⟨?_, succeed⟩
  by_contra unfinished
  rcases adheres.hindered unfinished with ⟨call, member, hinders⟩ | ⟨request, inPlan, nameless⟩
  · exact hinders.not_succeeds (succeed call member)
  · rcases List.mem_cons.1 inPlan with rfl | deletion
    · cases nameless
    · obtain ⟨pod, inDeleted, rfl⟩ := List.mem_map.1 deletion
      exact named pod inDeleted (Option.some.inj nameless)

end Unfailing

/-! ## The floor -/

/-- A pass over pods only scales or only updates.  Where pods can be compared, it does not break
down; it scales if the listed pods and the desired ones do not match, updates if they match and
some are outdated, and only lists them otherwise.  When it updates, the budget is asked for at
least one desired pod and no more available ones than that, the pods deleted are the first
outdated ones that the budget covers, and no more desired pods become unavailable than may be.
So a run that has come up to the floor stays there. -/
theorem rollout_stays_above_floor (mayFail : Request → Prop) (set : OrdinalSet)
    (desired : List Pod) :
    (∀ (σ : Type) (state state' : σ) (now : Instant) (registry : Registry)
        (result : Except (Halt PassError) SetOutcome) (final : Ledger),
      (set.reconcile .pod desired now).Runs mayFail state (.opened registry) result state'
          final →
        (set.Scales desired registry final.calls ∨
          set.Updates desired now registry final.calls (result.isOk = true)) ∧
        (set.Comparable desired registry →
          set.Decides desired now registry final.calls (result.isOk = true) ∧
          ∀ message, result ≠ .error (.broken message)) ∧
        min (set.available desired now registry : Int) (set.floor desired) ≤
          set.available desired now final.registry) ∧
    ∀ before after : Registry × Instant,
      Relation.ReflTransGen (set.Moves mayFail desired) before after →
      set.floor desired ≤ set.available desired before.2 before.1 →
        set.floor desired ≤ set.available desired after.2 after.1 := by
  constructor
  · intro σ state state' now registry result final runs
    refine ⟨scales_or_updates_of_runs runs, fun comparable => ⟨decides_of_runs comparable runs, ?_⟩,
      floor_le_available_of_runs runs⟩
    intro message broken
    obtain ⟨plan, planned⟩ := comparable.exists_plan now
    exact absurd (isBroken_eq_false_of_plan runs planned broken) (by simp [Halt.isBroken])
  · intro before after moves above
    induction moves with
    | refl => exact above
    | tail _ last inductionHypothesis => exact last.floor_le inductionHypothesis

section Example

/-- When the stale pods of a full node have been ready for long enough. -/
def staleNow : Instant := Instant.earliest.addSeconds (FullNode.sample 3 .empty).minReadySeconds

theorem newPod_mem_desiredPods {index : Nat} (below : index < 3) :
    (FullNode.sample 3 .empty).newPod index ∈ (FullNode.sample 3 .empty).desiredPods :=
  (FullNode.mem_desiredPods_iff _ _).2 ⟨index, below, rfl, by simp [FullNode.sample,
    FullNode.heldPodNames, FullNodeStatus.initial, KeyMap.values, KeyMap.empty]⟩

theorem available_staleCluster : (podSet (FullNode.sample 3 .empty) "default").available
    (FullNode.sample 3 .empty).desiredPods staleNow
      (staleCluster (FullNode.sample 3 .empty) "default") = 3 := by
  have three : (FullNode.sample 3 .empty).desiredPods.length = 3 := by decide +kernel
  rw [← three]
  exact (holdsStale_staleCluster rfl).available_eq (Int.le_refl staleNow.nanos)

/-- A rollout of three stale pods may delete one, and begins with the first. -/
theorem begins_of_rollout {outdated : List Pod} {budget : Int}
    (rollout : (podSet (FullNode.sample 3 .empty) "default").Rollout
      (FullNode.sample 3 .empty).desiredPods staleNow
      (staleCluster (FullNode.sample 3 .empty) "default") outdated budget) :
    budget = 1 ∧ ∃ first rest, outdated = first :: rest ∧
      first.metadata.shownName = "cosmoshub-0" := by
  have holds : HoldsStale (FullNode.sample 3 .empty) "default"
      (staleCluster (FullNode.sample 3 .empty) "default") := holdsStale_staleCluster rfl
  constructor
  · have three : (FullNode.sample 3 .empty).desiredPods.length = 3 := by decide +kernel
    have allowed := rollout.allowed
    rw [rollout.counted, available_staleCluster, three] at allowed
    exact Except.ok.inj (allowed.symm.trans (by decide))
  have firstDesired := newPod_mem_desiredPods (by decide : 0 < 3)
  have first := (rollout.mem_outdated _).2
    ⟨firstDesired, holds.outdated (by decide) firstDesired⟩
  obtain ⟨head, rest, rfl⟩ := List.exists_cons_of_ne_nil (List.ne_nil_of_mem first)
  refine ⟨head, rest, rfl, ?_⟩
  have name : ((FullNode.sample 3 .empty).newPod (0 : Nat)).metadata.shownName =
      "cosmoshub-0" := by decide +kernel
  rcases List.mem_cons.1 first with same | later
  · rwa [← same]
  -- No pod comes before the first one.
  have before := List.rel_of_pairwise_cons rollout.ascend later
  obtain ⟨index, below, same, _⟩ :=
    (FullNode.mem_desiredPods_iff _ _).1 ((rollout.mem_outdated head).1 List.mem_cons_self).1
  have positions : ∀ index < 3, positionOf Pod.metadata
      ((FullNode.sample 3 .empty).newPod (index : Nat)) = index := by decide +kernel
  rw [same, positions index below, positions 0 (by decide)] at before
  obtain rfl : index = 0 := by omega
  rw [same, name]

/-- Of three stale pods a pass deletes the first one, gets to its end, and leaves two available. -/
theorem rollout_stays_above_floor_of_stale :
    let node := FullNode.sample 3 .empty
    let set := podSet node "default"
    ∃ outcome final,
      (set.reconcile .pod node.desiredPods staleNow : Pass Unit SetOutcome).Runs (fun _ => False)
        () (.opened (staleCluster node "default")) (.ok outcome) () final ∧
      final.calls.map (·.request) =
        [set.listing .pod, .delete .pod "default" "cosmoshub-0"] ∧
      2 ≤ set.available node.desiredPods staleNow final.registry := by
  intro node set
  have holds : HoldsStale node "default" (staleCluster node "default") :=
    holdsStale_staleCluster rfl
  have comparable := holds.comparable (by decide) (fun _ stated => nomatch stated)
  have matching := holds.matching (by decide)
  have firstDesired : node.newPod 0 ∈ node.desiredPods :=
    newPod_mem_desiredPods (by decide : 0 < 3)
  have outdated : set.HasOutdated node.desiredPods (staleCluster node "default") :=
    ⟨_, firstDesired, holds.outdated (by decide) firstDesired⟩
  obtain ⟨⟨result, state⟩, final, runs⟩ := Program.exists_runs (fun _ => False)
    ((set.reconcile .pod node.desiredPods staleNow : Pass Unit SetOutcome).run.run () :
      Program _) (.opened (staleCluster node "default"))
  obtain ⟨eachPass, allPasses⟩ :=
    rollout_stays_above_floor (fun _ => False) set node.desiredPods
  obtain ⟨_, comparably, _⟩ := eachPass Unit () () staleNow _ result final runs
  obtain ⟨updates, budget, rollout, adheres⟩ := (comparably comparable).1.updates matching outdated
  obtain ⟨rfl, first, rest, rfl, name⟩ := begins_of_rollout rollout
  obtain ⟨_, _, rollout', planned⟩ := comparable.exists_rollout matching outdated staleNow
  obtain ⟨rfl, first', rest', rfl, name'⟩ := begins_of_rollout rollout'
  have isOk := (isOk_of_runs runs planned fun pod deleted => by
    obtain rfl := List.mem_singleton.1 deleted
    rw [name']
    decide).1
  have requests : final.calls.map (·.request) = [set.listing .pod, set.deletion .pod first] :=
    (adheres.carriesOut isOk).requests_eq
  have deletion : set.deletion .pod first = .delete .pod "default" "cosmoshub-0" :=
    congrArg (Request.delete .pod "default") name
  rw [deletion] at requests
  have floor : set.floor node.desiredPods = 2 := by decide +kernel
  have above := allPasses (_, staleNow) (final.registry, staleNow) (.single (.pass runs))
    (by rw [floor]; exact Int.ofNat_le.2 (available_staleCluster ▸ by decide))
  rw [floor] at above
  cases result with
  | error halt => cases isOk
  | ok outcome => exact ⟨outcome, final, runs, requests, by exact_mod_cast above⟩

end Example

end OrdinalSet

end NodeFleet.Fleet
