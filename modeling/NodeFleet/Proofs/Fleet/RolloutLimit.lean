import NodeFleet.Proofs.Fleet.RolloutFloor

/-!
# The limit of a rollout

The limit of unavailable pods counts against the desired pods, and those that are held
down for snapshots are not desired.  So a rollout may leave fewer pods available than
the replicas allow.  It never does exactly when the desired pods allow no fewer.
-/

namespace NodeFleet.Fleet

open Calendar Resource Store Text

variable {mayFail : Request → Prop} {σ : Type}

namespace OrdinalSet

/-! ## Deleting pods -/

/-- Pods that went on existing are as they were, or are being deleted. -/
def Fades (set : OrdinalSet) (before after : Registry) : Prop :=
  ∀ (name : String) (pod : Pod), after.find? .pod set.space name = some pod →
    ∃ earlier : Pod, before.find? .pod set.space name = some earlier ∧
      pod.metadata.labels = earlier.metadata.labels ∧
      (pod = earlier ∨ pod.metadata.isTerminating = true)

/-- A pod is gone or being deleted. -/
def Leaving (set : OrdinalSet) (name : String) (registry : Registry) : Prop :=
  ∀ pod : Pod, registry.find? .pod set.space name = some pod →
    pod.metadata.isTerminating = true

section Deleting

variable {set : OrdinalSet} {before middle after : Registry} {calls : List Call} {name : String}

theorem Fades.refl (set : OrdinalSet) (registry : Registry) : set.Fades registry registry :=
  fun _ pod found => ⟨pod, found, rfl, Or.inl rfl⟩

theorem Fades.trans (first : set.Fades before middle) (second : set.Fades middle after) :
    set.Fades before after := by
  intro name pod found
  obtain ⟨between, foundBetween, sameLabels, kept⟩ := second name pod found
  obtain ⟨earlier, foundEarlier, earlierLabels, keptEarlier⟩ := first name between foundBetween
  refine ⟨earlier, foundEarlier, sameLabels.trans earlierLabels, ?_⟩
  rcases kept with rfl | terminating
  · exact keptEarlier
  · exact Or.inr terminating

theorem fades_of_serves {request : Request} {answer : Answer request}
    (removes : set.Removes request) (served : Serves mayFail request before answer after) :
    set.Fades before after := by
  rcases removes with rfl | ⟨name, rfl⟩
  · cases served <;> exact .refl set before
  · intro other pod found
    by_cases same : other = name
    · subst same
      cases served with
      | removed there sets =>
          rw [sets.here] at found
          cases found
      | @doomed _ _ _ object time _ _ there sets =>
          rw [sets.here] at found
          obtain rfl := Option.some.inj found
          exact ⟨object, there, rfl, Or.inr rfl⟩
      | _ => exact Fades.refl set before other pod found
    · rw [served.find?_eq fun place => same (by simpa [Request.place?] using place.symm)] at found
      exact Fades.refl set before other pod found

theorem fades_of_chain (chain : Chain mayFail before calls after)
    (removes : ∀ call ∈ calls, set.Removes call.request) : set.Fades before after := by
  induction chain with
  | nil registry => exact .refl set registry
  | cons served chain inductionHypothesis =>
      obtain ⟨first, rest⟩ := List.forall_mem_cons.1 removes
      exact (fades_of_serves first served).trans (inductionHypothesis rest)

theorem Leaving.of_fades (leaving : set.Leaving name before) (fades : set.Fades before after) :
    set.Leaving name after := by
  intro pod found
  obtain ⟨earlier, foundEarlier, _, rfl | terminating⟩ := fades name pod found
  · exact leaving pod foundEarlier
  · exact terminating

theorem leaving_of_delete {answer : Answer (.delete .pod set.space name)}
    (served : Serves mayFail (.delete .pod set.space name) before answer after)
    (succeeds : ∃ reply, answer = some (.ok reply)) : set.Leaving name after :=
  leaving_of_delete_ok served succeeds

theorem leaving_of_chain (chain : Chain mayFail before calls after)
    (removes : ∀ call ∈ calls, set.Removes call.request) {call : Call} (member : call ∈ calls)
    (deletes : call.request = .delete .pod set.space name) (succeeds : call.Succeeds) :
    set.Leaving name after := by
  obtain ⟨past, later, rfl⟩ := List.append_of_mem member
  obtain ⟨_, served, rest⟩ := chain.before_eq
  refine Leaving.of_fades ?_ (fades_of_chain rest fun other inLater => removes other ?_)
  · obtain ⟨request, answer, callBefore, callAfter⟩ := call
    subst deletes
    exact leaving_of_delete served succeeds
  · exact List.mem_append_right past (List.mem_cons_of_mem call inLater)

theorem isAvailableAt_of_leaving {now : Instant} {registry : Registry}
    (leaving : set.Leaving name registry) : set.isAvailableAt now registry name = false := by
  unfold isAvailableAt
  cases found : registry.find? .pod set.space name with
  | none => rfl
  | some pod =>
      have terminating := leaving pod found
      simp [Pod.isAvailable, terminating]

/-- Deleting listed pods leaves the available ones among the desired ones listed. -/
theorem listedAvailable_eq_of_fades {desired : List Pod} {now : Instant}
    (fades : set.Fades before after) (matching : set.Matches desired before)
    (nodup : (desired.map fun pod => pod.metadata.shownName).Nodup) :
    set.listedAvailable .pod now after = set.available desired now after := by
  refine listedAvailable_eq_available (fun live member => ?_) (fun pod inDesired ready => ?_) nodup
  · obtain ⟨found, selected⟩ := after.mem_selected_iff.1 member
    obtain ⟨earlier, foundEarlier, sameLabels, _⟩ := fades _ live found
    have named := (Registry.isPlaced_of_find? foundEarlier).shownName_eq
    have listed : earlier ∈ set.listed .pod before := by
      refine before.mem_selected_iff.2 ⟨named.symm ▸ foundEarlier, ?_⟩
      simpa only [Kind.metadata, ObjectMeta.labelMap, sameLabels] using selected
    obtain ⟨pod, inDesired, same⟩ := matching.desired_of_listed earlier listed
    exact ⟨pod, inDesired, same.trans named⟩
  · obtain ⟨live, listed, same⟩ := matching.listed_of_desired pod inDesired
    obtain ⟨foundBefore, selected⟩ := before.mem_selected_iff.1 listed
    unfold isAvailableAt at ready
    cases found : after.find? .pod set.space pod.metadata.shownName with
    | none => simp [found] at ready
    | some remaining =>
        rw [found, Option.any_some] at ready
        have remains : remaining = live := by
          obtain ⟨earlier, foundEarlier, _, rfl | terminating⟩ := fades _ remaining found
          · have there : before.find? .pod set.space pod.metadata.shownName = some live := by
              rw [← same]
              exact foundBefore
            exact Option.some.inj (foundEarlier.symm.trans there)
          · simp [Pod.isAvailable, terminating] at ready
        subst remains
        exact ⟨remaining, after.mem_selected_iff.2 ⟨same ▸ found, selected⟩, same⟩

end Deleting

/-- What a rollout leaves available, it leaves listed. -/
theorem Updates.listedAvailable_eq {set : OrdinalSet} {desired : List Pod} {now : Instant}
    {registry after : Registry} {calls : List Call} {finished : Prop}
    (updates : set.Updates desired now registry calls finished)
    (chain : Chain mayFail registry calls after) :
    set.listedAvailable .pod now registry = set.available desired now registry ∧
      set.listedAvailable .pod now after = set.available desired now after := by
  obtain ⟨outdated, budget, rollout, adheres⟩ := updates
  have fades := fades_of_chain chain (removes_of_breaksOff adheres.breaksOff)
  exact ⟨rollout.counted,
    listedAvailable_eq_of_fades fades rollout.steady rollout.desired_nodup⟩

/-! ## A rollout that is not hindered -/

section Unhindered

variable {set : OrdinalSet} {desired : List Pod} {now : Instant} {registry : Registry}
  {result : Except (Halt PassError) SetOutcome} {state state' : σ} {final : Ledger}

/-- A rollout that is carried out takes all pods it deletes off the available ones. -/
theorem available_add_le_of_carriesOut {outdated : List Pod} {budget : Int} {after : Registry}
    {calls : List Call} (rollout : set.Rollout desired now registry outdated budget)
    (carried : CarriesOut
      (set.listing .pod :: (outdated.take budget.toNat).map (set.deletion .pod)) calls)
    (succeed : ∀ call ∈ calls, call.Succeeds) (chain : Chain mayFail registry calls after) :
    set.available desired now after + min budget.toNat outdated.length ≤ desired.length := by
  let names := (outdated.take budget.toNat).map fun pod => pod.metadata.shownName
  have removes := removes_of_breaksOff carried.breaksOff
  have left : ∀ name ∈ names, set.isAvailableAt now after name = false := by
    intro name inNames
    obtain ⟨pod, inTaken, rfl⟩ := List.mem_map.1 inNames
    have requested : set.deletion .pod pod ∈ calls.map (·.request) := by
      rw [carried.requests_eq]
      exact List.mem_cons_of_mem _ (List.mem_map_of_mem inTaken)
    obtain ⟨call, member, deletes⟩ := List.mem_map.1 requested
    exact isAvailableAt_of_leaving
      (leaving_of_chain chain removes member deletes (succeed call member))
  have namesNodup : names.Nodup :=
    rollout.nodup.sublist ((List.take_sublist budget.toNat outdated).map _)
  have namesDesired : ∀ name ∈ names, ∃ pod ∈ desired, pod.metadata.shownName = name := by
    intro name inNames
    obtain ⟨pod, inTaken, rfl⟩ := List.mem_map.1 inNames
    exact ⟨pod, ((rollout.mem_outdated pod).1 (List.mem_of_mem_take inTaken)).1, rfl⟩
  have many := length_le_countP_mem namesNodup namesDesired
  have apart : desired.countP (fun pod => decide (pod.metadata.shownName ∈ names)) ≤
      desired.countP fun pod => !set.isAvailableAt now after pod.metadata.shownName := by
    refine List.countP_mono_left fun pod _ inNames => ?_
    simp [left _ (of_decide_eq_true inNames)]
  have whole : desired.length =
      set.available desired now after +
        desired.countP fun pod => !set.isAvailableAt now after pod.metadata.shownName := by
    simpa only [available, Bool.not_eq_true, Bool.decide_eq_false] using
      List.length_eq_countP_add_countP
        fun pod : Pod => set.isAvailableAt now after pod.metadata.shownName
  have counted : names.length = min budget.toNat outdated.length := by simp [names]
  omega

/-- A rollout that is carried out with some budget deletes a desired pod. -/
theorem exists_deletion_of_carriesOut {outdated : List Pod} {budget : Int} {calls : List Call}
    (rollout : set.Rollout desired now registry outdated budget)
    (carried : CarriesOut
      (set.listing .pod :: (outdated.take budget.toNat).map (set.deletion .pod)) calls)
    (spendable : outdated.take budget.toNat ≠ []) :
    ∃ call ∈ calls, ∃ pod ∈ desired, call.request = set.deletion .pod pod := by
  obtain ⟨pod, inTaken⟩ := List.exists_mem_of_ne_nil _ spendable
  have requested : set.deletion .pod pod ∈ calls.map (·.request) := by
    rw [carried.requests_eq]
    exact List.mem_cons_of_mem _ (List.mem_map_of_mem inTaken)
  obtain ⟨call, member, deletes⟩ := List.mem_map.1 requested
  have inDesired := ((rollout.mem_outdated pod).1 (List.mem_of_mem_take inTaken)).1
  exact ⟨call, member, pod, inDesired, deletes⟩

theorem Rollout.length_eq {outdated : List Pod} {budget : Int}
    (rollout : set.Rollout desired now registry outdated budget)
    (all : ∀ pod ∈ desired, ∃ live ∈ set.listed .pod registry,
      (Pod.metadata live).shownName = pod.metadata.shownName ∧ Pod.digest? live ≠ pod.digest?) :
    outdated.length = desired.length := by
  have same : ∀ pod, pod ∈ outdated ↔ pod ∈ desired := by
    intro pod
    rw [rollout.mem_outdated]
    exact ⟨And.left, fun inDesired => ⟨inDesired, all pod inDesired⟩⟩
  have outdatedNodup := List.Nodup.of_map _ rollout.nodup
  have desiredNodup := List.Nodup.of_map _ rollout.desired_nodup
  exact ((List.perm_ext_iff_of_nodup outdatedNodup desiredNodup).2 same).length_eq

end Unhindered

end OrdinalSet

section Limit

variable {node : FullNode} {space : String}

/-- Whenever a pass over the pods of a full node deletes desired ones, it leaves as many
available as there were, or as the replicas and the limit ask for. -/
def HeedsReplicas (node : FullNode) (space : String) : Prop :=
  ∀ (mayFail : Request → Prop) (now : Instant) (registry : Registry)
    (result : Except (Halt PassError) SetOutcome) (final : Ledger),
    (reconcilePods node now : Pass Unit SetOutcome).Runs mayFail () (.opened registry) result ()
        final →
      (∃ call ∈ final.calls, ∃ pod ∈ node.desiredPods,
        call.request = (podSet node space).deletion .pod pod) →
      min ((podSet node space).listedAvailable .pod now registry : Int)
          (node.spec.replicas - resolveMaxUnavailable node.maxUnavailable node.spec.replicas) ≤
        (podSet node space).listedAvailable .pod now final.registry

theorem runs_of_reconcilePods (inSpace : node.metadata.namespaceName = some space)
    {now : Instant} {registry : Registry} {result : Except (Halt PassError) SetOutcome}
    {state state' : σ} {final : Ledger} :
    (reconcilePods node now : Pass σ SetOutcome).Runs mayFail state (.opened registry) result
        state' final ↔
      ((podSet node space).reconcile .pod node.desiredPods now).Runs mayFail state
        (.opened registry) result state' final := by
  have same : (reconcilePods node now : Pass σ SetOutcome) =
      (podSet node space).reconcile .pod node.desiredPods now := by
    unfold reconcilePods Pass.namespaceOf
    rw [inSpace]
    rfl
  rw [same]

theorem shownName_ne_empty {pod : Pod} (inDesired : pod ∈ node.desiredPods) :
    pod.metadata.shownName ≠ "" := by
  obtain ⟨index, _, rfl, _⟩ := (node.mem_desiredPods_iff pod).1 inDesired
  exact node.podName_ne_empty index

theorem OrdinalSet.Scales.not_deletes {set : OrdinalSet} {desired : List Pod}
    {registry : Registry} {calls : List Call} (scales : set.Scales desired registry calls)
    {call : Call} (member : call ∈ calls) {pod : Pod} (inDesired : pod ∈ desired) :
    call.request ≠ set.deletion .pod pod := by
  intro deletes
  rcases scales call member with listing | ⟨created, _, _, creation⟩ |
    ⟨live, _, surplus, deletion⟩
  · cases deletes.symm.trans listing
  · cases deletes.symm.trans creation
  · have same := congrArg OrdinalSet.deletedName? (deletes.symm.trans deletion)
    exact surplus pod inDesired (Option.some.inj same)

/-- The replicas are heeded when the desired pods allow no fewer available ones. -/
theorem heedsReplicas_of_le (inSpace : node.metadata.namespaceName = some space)
    (allowed : node.desiredPods = [] ∨
      node.spec.replicas - resolveMaxUnavailable node.maxUnavailable node.spec.replicas ≤
        max 0 ((podSet node space).floor node.desiredPods)) :
    HeedsReplicas node space := by
  rintro mayFail now registry result final runs ⟨call, member, pod, inDesired, deletes⟩
  have chain : Chain mayFail registry final.calls final.registry := Program.Runs.chain runs
  rcases OrdinalSet.scales_or_updates_of_runs ((runs_of_reconcilePods inSpace).1 runs) with
    scales | updates
  · exact absurd deletes (scales.not_deletes member inDesired)
  · rcases allowed with none | below
    · rw [none] at inDesired
      cases inDesired
    have kept := updates.floor_le_available chain
    obtain ⟨before, after⟩ := updates.listedAvailable_eq chain
    unfold OrdinalSet.floor at below
    omega

/-- Where the replicas are heeded, the desired pods allow no fewer available ones. -/
theorem le_of_heedsReplicas (inSpace : node.metadata.namespaceName = some space)
    (plain : ',' ∉ node.name.toList) (replicasFit : node.spec.replicas ≤ Bounds.int32.high)
    (limitFits : ∀ limit, node.maxUnavailable = some (.number limit) →
      limit ≤ Bounds.int32.high)
    (heeds : HeedsReplicas node space) :
    node.desiredPods = [] ∨
      node.spec.replicas - resolveMaxUnavailable node.maxUnavailable node.spec.replicas ≤
        max 0 ((podSet node space).floor node.desiredPods) := by
  refine or_iff_not_imp_left.2 fun members => ?_
  let now := Instant.earliest.addSeconds node.minReadySeconds
  have holds := holdsStale_staleCluster inSpace
  have ready := holds.available_eq (Int.le_refl now.nanos : now ≤ now)
  obtain ⟨first, inDesired⟩ := List.exists_mem_of_ne_nil _ members
  obtain ⟨updates, budget, rollout, planned⟩ :=
    (holds.comparable replicasFit limitFits).exists_rollout (holds.matching plain)
      ⟨first, inDesired, holds.outdated plain inDesired⟩ now
  obtain ⟨⟨result, state⟩, final, runs⟩ := Program.exists_runs (fun _ => False)
    ((reconcilePods node now : Pass Unit SetOutcome).run.run () : Program _)
    (.opened (staleCluster node space))
  have chain : Chain (fun _ => False) (staleCluster node space) final.calls final.registry :=
    Program.Runs.chain runs
  have passes := (runs_of_reconcilePods inSpace).1 runs
  obtain ⟨isOk, succeed⟩ := OrdinalSet.isOk_of_runs passes planned fun pod inTaken =>
    shownName_ne_empty ((rollout.mem_outdated pod).1 (List.mem_of_mem_take inTaken)).1
  have carried := (OrdinalSet.adheres_of_runs passes planned).carriesOut isOk
  -- All desired pods were available and outdated, so the whole budget is used up.
  have all := rollout.length_eq fun pod inDesired => holds.outdated plain inDesired
  have left := OrdinalSet.available_add_le_of_carriesOut rollout carried succeed chain
  have listedAfter : (podSet node space).listedAvailable .pod now final.registry =
      (podSet node space).available node.desiredPods now final.registry :=
    OrdinalSet.listedAvailable_eq_of_fades
      (OrdinalSet.fades_of_chain chain (OrdinalSet.removes_of_breaksOff carried.breaksOff))
      rollout.steady rollout.desired_nodup
  have listedBefore := rollout.counted
  obtain ⟨_, _, spent⟩ := rolloutBudget_eq_ok rollout.allowed
  have positive := one_le_resolveMaxUnavailable (podSet node space).maxUnavailable
    node.desiredPods.length
  have some := List.length_pos_iff.2 members
  rw [rollout.counted, ready] at spent
  have spendable : updates.take budget.toNat ≠ [] := by
    rw [ne_eq, List.take_eq_nil_iff, ← List.length_eq_zero_iff]
    omega
  have heeded := heeds _ now _ result final runs
    (OrdinalSet.exists_deletion_of_carriesOut rollout carried spendable)
  unfold OrdinalSet.floor
  omega

/-- A rollout heeds the replicas exactly when the pods that are desired, without those
held down, allow no fewer available pods than the replicas do. -/
theorem heedsReplicas_iff (inSpace : node.metadata.namespaceName = some space)
    (plain : ',' ∉ node.name.toList) (replicasFit : node.spec.replicas ≤ Bounds.int32.high)
    (limitFits : ∀ limit, node.maxUnavailable = some (.number limit) →
      limit ≤ Bounds.int32.high) :
    HeedsReplicas node space ↔ node.desiredPods = [] ∨
      node.spec.replicas - resolveMaxUnavailable node.maxUnavailable node.spec.replicas ≤
        max 0 (node.desiredPods.length -
          resolveMaxUnavailable node.maxUnavailable node.desiredPods.length) :=
  ⟨le_of_heedsReplicas inSpace plain replicasFit limitFits, heedsReplicas_of_le inSpace⟩

/-- The condition for a full node of three replicas without pods held down. -/
theorem heedsReplicas_iff_of_three :
    HeedsReplicas (FullNode.sample 3 .empty) "default" ↔
      (FullNode.sample 3 .empty).desiredPods = [] ∨
        (3 : Int) - resolveMaxUnavailable none 3 ≤
          max 0 ((FullNode.sample 3 .empty).desiredPods.length -
            resolveMaxUnavailable none (FullNode.sample 3 .empty).desiredPods.length) :=
  heedsReplicas_iff rfl (by decide) (by decide) fun _ none => nomatch none

/-- With one of three pods held down, a rollout that may take one pod leaves only one
available, where the replicas ask for two. -/
theorem not_heedsReplicas_of_held_pod :
    ¬ HeedsReplicas (FullNode.sample 3 (.ofList [("default.hourly", ⟨"cosmoshub-0"⟩)]))
      "default" := by
  intro heeds
  have noLimit : ∀ limit, FullNode.maxUnavailable (FullNode.sample 3
      (.ofList [("default.hourly", ⟨"cosmoshub-0"⟩)])) = some (.number limit) →
        limit ≤ Bounds.int32.high := fun _ stated => nomatch stated
  have allowed := le_of_heedsReplicas rfl (by decide) (by decide) noLimit heeds
  revert allowed
  decide +kernel

end Limit

end NodeFleet.Fleet
