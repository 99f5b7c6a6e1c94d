import NodeFleet.Proofs.Snapshot.Interleaving

/-!
# Schedulers that are being deleted

The pass of a scheduler that is being deleted takes its entry away from the full node, and asks
for no other pass, however that went.  So the entry stays when a call fails: nothing comes back
to take it away.
-/

namespace NodeFleet.Snapshot

open Calendar Resource Store

variable {mayFail : Request → Prop}

/-! ## Taking the entry away -/

/-- The entry in a slot has been taken away, by calls none of which failed. -/
structure Slot.Freed (slot : Slot) (final : Ledger) : Prop where
  named : slot.nodeName ≠ ""
  vacant : slot.held? final.registry = none
  none_fails : ∀ call ∈ final.calls, ¬ call.Fails

/-- The entry in a slot is as it was, for want of a name or because a call failed. -/
structure Slot.Stuck (slot : Slot) (before : Registry) (final : Ledger) : Prop where
  same : slot.held? final.registry = slot.held? before
  cause : slot.nodeName = "" ∨ ∃ call ∈ final.calls, call.Fails

/-- What comes to nothing for a full node with a name leaves the slot stuck. -/
theorem Slot.stuck_of_fruitless {slot : Slot} {before : Registry} {request : Request}
    {middle final : Ledger} {error : Option StoreError} (named : slot.nodeName ≠ "")
    (target : request.target? = some slot.nodeName) (same : middle.registry = before)
    (nothing : middle.Fruitless mayFail request error final) : slot.Stuck before final where
  same := by rw [nothing.registry_eq, same]
  cause := by
    refine Or.inr (nothing.nameless_or_fails.resolve_left fun nameless => named ?_)
    exact Option.some.inj (target.symm.trans nameless)

section Hold

variable {σ : Type} {state : σ} {round : Round} {ledger : Ledger}

/-- Registering that no pod is held down takes the entry away, or gets stuck. -/
theorem Round.ensures_hold_none (unfailing : ∀ call ∈ ledger.calls, ¬ call.Fails) :
    (round.hold none).Ensures mayFail (fun _ _ => round.slot.Freed)
      (fun _ _ => round.slot.Stuck ledger.registry) state ledger := by
  by_cases nameless : round.nodeName = ""
  -- For want of a name the first call is not even made.
  · refine Pass.ensures_bind (Pass.ensures_attempt ?_)
    rw [nameless]
    exact Exchange.ensures_return (.error (.call .unnamed)) ⟨rfl, Or.inl nameless⟩
  have named : round.slot.nodeName ≠ "" := nameless
  refine Pass.ensures_bind (Pass.ensures_attempt (Exchange.ensures_get?
    (fun node there => ?_) (fun missing => ?_)
    fun error final => Slot.stuck_of_fruitless named rfl rfl))
  -- The update reads the full node again, and finds it as the look-up did.
  · refine Pass.ensures_bind (Pass.ensures_attempt (Exchange.ensures_updateStatus
      (fun _ => rfl) (fun stored version after found sets => Pass.ensures_pure _ ?_)
      (fun missing => absurd (there.symm.trans missing) (by simp))
      (fun error final => Slot.stuck_of_fruitless named rfl rfl)
      fun stored error final found => Slot.stuck_of_fruitless named rfl rfl))
    refine ⟨named, ?_, ?_⟩
    · have here : after.find? .fullNode round.slot.space round.slot.nodeName = _ := sets.here
      rw [Slot.held?, Ledger.add, here]
      exact heldUnder?_hold stored round.scheduler.statusKey none
    · simpa [or_imp, forall_and, Call.Fails] using unfailing
  · refine Pass.ensures_pure _ ⟨named, ?_, ?_⟩
    · have here : ledger.registry.find? .fullNode round.slot.space round.slot.nodeName = none :=
        missing
      simp [Slot.held?, Ledger.add, here]
    -- An answer that the full node is missing is no failure.
    · simpa [or_imp, forall_and, Call.Fails, claimsMissing_notFound] using unfailing

end Hold

/-- A scheduler in a namespace releases its pod, or gets stuck. -/
theorem ensures_release {scheduler : Scheduler} {space : String} {ledger : Ledger}
    (inSpace : scheduler.metadata.namespaceName = some space) (settings : Settings)
    (now : Instant) (unfailing : ∀ call ∈ ledger.calls, ¬ call.Fails) :
    (release scheduler settings now : Pass Unit Unit).Ensures mayFail
      (fun _ _ => (slotOf scheduler).Freed)
      (fun _ _ => (slotOf scheduler).Stuck ledger.registry) () ledger := by
  obtain ⟨nodeSpace, found⟩ : ∃ nodeSpace, scheduler.fullNodeNamespace? = some nodeSpace := by
    unfold Scheduler.fullNodeNamespace?
    split
    · split
      · exact ⟨space, inSpace⟩
      · exact ⟨_, rfl⟩
    · exact ⟨space, inSpace⟩
  have same : (Round.mk scheduler nodeSpace now settings).slot = slotOf scheduler := by
    simp [Round.slot, slotOf, found, Round.nodeName]
  refine Pass.ensures_bind ?_
  unfold requireSpace Pass.orUnrecoverable
  rw [found, ← same]
  exact Pass.ensures_pure _ (Round.ensures_hold_none unfailing)

/-! ## Letting go of a scheduler -/

/-- The pass of a scheduler that is being deleted gives, if it gives an action, the one that asks
for no other pass, and then its entry has been taken away or is stuck. -/
theorem ensures_reconcileScheduler_of_terminating {scheduler latest : Scheduler} {space : String}
    {before : Registry} (inSpace : scheduler.metadata.namespaceName = some space)
    (stored : before.find? .scheduler space scheduler.name = some latest)
    (terminating : latest.metadata.isTerminating = true) (settings : Settings) (now : Instant) :
    (reconcileScheduler scheduler settings now).Ensures mayFail
      (fun action final => action = .awaitChange ∧
        ((slotOf latest).Freed final ∨ (slotOf latest).Stuck before final))
      (fun _ _ => True) (.opened before) := by
  unfold reconcileScheduler
  rw [inSpace]
  refine Control.ensures_bind (Control.ensures_attempt (Exchange.ensures_get
    (fun object there => ?_) (fun _ _ => trivial) fun _ _ _ _ => trivial))
  obtain rfl := Option.some.inj (stored.symm.trans there)
  simp only [terminating, if_true]
  have looked : ∀ call ∈ ((Ledger.opened before).add (.get .scheduler space scheduler.name)
      (some (.ok latest)) before).calls, ¬ call.Fails := by
    simp [Call.Fails]
  have placed := (Registry.isPlaced_of_find? stored).inSpace
  refine Control.ensures_bind (Control.ensures_carryOut
    ((ensures_release placed settings now looked).mono ?_ ?_))
  · intro _ _ final freed
    exact Control.ensures_pure _ ⟨rfl, Or.inl freed⟩
  · intro halt _ final stuck
    cases halt with
    | failed error => exact Control.ensures_pure _ ⟨rfl, Or.inr stuck⟩
    | unanswered => trivial
    | broken message => trivial

/-- If the pass of a scheduler that is being deleted gives an action, it asks for no other pass,
and the full node still has the scheduler's entry exactly if it had it before and has no name, or
some call failed. -/
theorem awaits_and_still_held_iff {scheduler latest : Scheduler} {space : String}
    {before : Registry} {settings : Settings} {now : Instant} {action : Action} {final : Ledger}
    (inSpace : scheduler.metadata.namespaceName = some space)
    (stored : before.find? .scheduler space scheduler.name = some latest)
    (terminating : latest.metadata.isTerminating = true)
    (runs : (reconcileScheduler scheduler settings now).Runs mayFail (.opened before) (.ok action)
      final) :
    action = .awaitChange ∧
      ((slotOf latest).held? final.registry ≠ none ↔
        (slotOf latest).held? before ≠ none ∧
          ((slotOf latest).nodeName = "" ∨ ∃ call ∈ final.calls, call.Fails)) := by
  have outcome := (ensures_reconcileScheduler_of_terminating inSpace stored terminating settings
    now).settles runs
  obtain ⟨rests, freed | stuck⟩ := outcome
  · refine ⟨rests, by simp [freed.vacant], ?_⟩
    rintro ⟨_, nameless | ⟨call, member, fails⟩⟩
    · exact absurd nameless freed.named
    · exact absurd fails (freed.none_fails call member)
  · refine ⟨rests, ?_⟩
    rw [stuck.same]
    exact (and_iff_left stuck.cause).symm

/-- A scheduler that is being deleted is let go of only when its pod has been handed back. -/
def ReleasesFirst : Prop :=
  ∀ (mayFail : Request → Prop) (scheduler latest : Scheduler) (space : String)
    (settings : Settings) (now : Instant) (before : Registry) (final : Ledger),
    scheduler.metadata.namespaceName = some space →
      before.find? .scheduler space scheduler.name = some latest →
        latest.metadata.isTerminating = true →
          (reconcileScheduler scheduler settings now).Runs mayFail (.opened before)
              (.ok .awaitChange) final →
            (slotOf latest).held? final.registry = none

section Example

/-- The hourly scheduler, which was deleted at one o'clock. -/
def doomedHourly : Scheduler :=
  { hourly with metadata := { hourly.metadata with deletionTimestamp := some ⟨3600⟩ } }

/-- A cluster in which the scheduler still holds a pod down. -/
def doomedCluster : Registry :=
  ({ Registry.empty with definitions := [Kind.volumeSnapshot.definitionName] }
    |>.put .fullNode "default" "cosmoshub"
      (FullNode.sample 1 (KeyMap.empty.insert "default.hourly" ⟨"cosmoshub-0"⟩))
    |>.put .scheduler "default" "hourly" doomedHourly)

/-- A call that writes the status of a full node. -/
def writesNode : Request → Bool
  | .replaceStatus .fullNode _ _ _ => true
  | _ => false

/-- The last pass of the scheduler, where the status of the full node cannot be written. -/
def lastPass : Except (Halt ControlError) Action × Ledger :=
  (reconcileScheduler doomedHourly .standard (.ofSeconds 3660)).run.run
    (Program.serve writesNode) (.opened doomedCluster)

theorem find?_doomedCluster :
    doomedCluster.find? .scheduler "default" "hourly" = some doomedHourly :=
  (Registry.sets_put _ ⟨rfl, rfl⟩).here

theorem result_lastPass : lastPass.1 = .ok .awaitChange := by
  apply eq_ok_of_toOption
  decide +kernel

theorem runs_lastPass :
    (reconcileScheduler doomedHourly .standard (.ofSeconds 3660)).Runs (writesNode · = true)
      (.opened doomedCluster) (.ok .awaitChange) lastPass.2 := by
  rw [← result_lastPass]
  exact Program.runs_run (fun _ fails => fails) _ _

/-- The pass asks for no other one, and the condition for the entry to stay is as stated. -/
theorem awaits_and_still_held_iff_of_lastPass :
    doomedHourly.metadata.isTerminating = true ∧
      ((slotOf doomedHourly).held? lastPass.2.registry ≠ none ↔
        (slotOf doomedHourly).held? doomedCluster ≠ none ∧
          ((slotOf doomedHourly).nodeName = "" ∨ ∃ call ∈ lastPass.2.calls, call.Fails)) :=
  ⟨rfl, (awaits_and_still_held_iff rfl find?_doomedCluster rfl runs_lastPass).2⟩

/-- When the status of the full node cannot be written, the scheduler is let go of while its
entry is still there. -/
theorem not_releasesFirst_of_lastPass : ¬ ReleasesFirst := by
  intro releases
  have vacant := releases _ _ _ _ _ _ _ _ rfl find?_doomedCluster rfl runs_lastPass
  have filled : (slotOf doomedHourly).held? lastPass.2.registry ≠ none := by decide +kernel
  exact filled vacant

end Example

end NodeFleet.Snapshot
