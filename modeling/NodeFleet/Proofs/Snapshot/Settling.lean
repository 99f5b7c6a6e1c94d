import NodeFleet.Proofs.Snapshot.Phases

/-!
# How a pass of a scheduler ends

The controller writes the status that the phases have left.  If that write does not
fail, the scheduler is stored with a status for which everything holds that its phases
have ensured.
-/

namespace NodeFleet.Snapshot

open Calendar Resource Store

/-- What may fail: every call but those that write the status of a scheduler. -/
def MayFail : Request → Prop
  | .get .scheduler _ _ | .replaceStatus .scheduler _ _ _ => False
  | _ => True

variable {space name : String} {slot : Slot} {stranded lost : Prop} {registry : Registry}
  {ledger final : Ledger} {scheduler latest stored : Scheduler}

/-- The slot of a scheduler depends on where it stands and on the full node it names. -/
theorem slotOf_congr (first : Kind.scheduler.IsPlaced space name scheduler)
    (second : Kind.scheduler.IsPlaced space name latest)
    (sameNode : latest.spec.fullNodeRef = scheduler.spec.fullNodeRef) :
    slotOf latest = slotOf scheduler := by
  have sameSpace : latest.metadata.namespaceName = scheduler.metadata.namespaceName :=
    second.inSpace.trans first.inSpace.symm
  have sameName : latest.name = scheduler.name :=
    second.shownName_eq.trans first.shownName_eq.symm
  simp only [slotOf, Scheduler.fullNodeNamespace?, Scheduler.statusKey, sameNode, sameSpace,
    sameName]

/-- A scheduler is stored, with a status for which all holds that holds when a pass is
over. -/
structure Ended (space name : String) (slot : Slot) (stranded : Prop) (final : Ledger)
    (latest : Scheduler) : Prop where
  stored : final.registry.find? .scheduler space name = some latest
  slot_eq : slotOf latest = slot
  finished : Finished slot stranded (latest.status.getD .initial) final

theorem Ended.add {event : Event} (ended : Ended space name slot stranded ledger latest)
    (answer : Answer (.publish event)) :
    Ended space name slot stranded (ledger.add (.publish event) answer ledger.registry)
      latest where
  stored := ended.stored
  slot_eq := ended.slot_eq
  finished := ended.finished.add (.publish event) trivial answer (.refl slot ledger.registry)

theorem ensures_conclude {result : Except PassError Action}
    (ended : ∃ latest, Ended space name slot stranded ledger latest) :
    (conclude result).EnsuresAlways MayFail
      (fun final => ∃ latest, Ended space name slot stranded final latest) ledger := by
  cases result with
  | ok action => exact Control.ensures_pure _ ended
  | error error =>
      refine Control.ensures_failPass (fun halt => ended) fun event answer halt => ?_
      obtain ⟨latest, holds⟩ := ended
      exact ⟨latest, holds.add answer⟩

/-- The controller stores the status of its pass. -/
theorem ensures_settle {outcome : Except PassError Action × SchedulerStatus}
    (named : scheduler.name ≠ "")
    (there : ledger.registry.find? .scheduler space scheduler.name = some stored)
    (finished : Finished (slotOf stored) stranded outcome.2 ledger) :
    (settle scheduler space outcome).EnsuresAlways MayFail
      (fun final => ∃ latest, Ended space scheduler.name (slotOf stored) stranded final latest)
      ledger := by
  refine Control.ensures_bind (Control.ensures_attempt (Exchange.ensures_updateStatus
    (fun _ => rfl) (fun latest version after found sets => ?_) (fun missing => ?_)
    (fun error final nothing => ?_) fun latest error final found nothing => ?_))
  · obtain rfl := Option.some.inj (there.symm.trans found)
    refine ensures_conclude ⟨_, sets.here, ?_, ?_⟩
    · exact slotOf_congr (Registry.isPlaced_of_find? there)
        (Registry.isPlaced_of_find? sets.here) rfl
    · have read := finished.add (.get .scheduler space scheduler.name) trivial (some (.ok stored))
        (.refl _ _)
      exact (read.add (.replaceStatus .scheduler space scheduler.name _) trivial _
        (Slot.leaves_of_sets sets (by decide) (by decide))).of_status rfl rfl
  · exact absurd (there.symm.trans missing) (by simp)
  · exact absurd nothing (Ledger.not_fruitless_get id named)
  · exact absurd nothing (Ledger.not_fruitless_replaceStatus id named found rfl)

theorem place?_ne_scheduler {request : Request} (permitted : PassCall request) :
    request.place? ≠ some (.scheduler, space, name) := by
  intro aimed
  rcases permitted.place_cases aimed with snapshot | pod | ⟨node, _⟩
  · cases snapshot
  · cases pod
  · cases node

/-- A pass of a stored scheduler keeps it safe, stores its status and accounts for the
snapshots that it has created. -/
theorem ensures_syncScheduler (settings : Settings) (now : Instant) (named : name ≠ "")
    (stored : registry.find? .scheduler space name = some scheduler)
    (safe : Safe (slotOf scheduler) stranded (scheduler.status.getD .initial) registry) :
    (syncScheduler scheduler settings now).EnsuresAlways MayFail
      (fun final => ∃ latest, Ended space name (slotOf scheduler) stranded final latest)
      (.opened registry) := by
  have placed := Registry.isPlaced_of_find? stored
  obtain rfl : scheduler.name = name := placed.shownName_eq
  have idle : ¬ (slotOf scheduler).TakesUp (Ledger.opened registry).calls := by
    simp [Slot.TakesUp]
  have midway : Midway (slotOf scheduler) stranded (scheduler.status.getD .initial)
      (.opened registry) :=
    ⟨safe.mono fun before => ⟨idle, before⟩, by simp [Uncreating]⟩
  -- The phases leave the scheduler as it is.
  have unwritten : ∀ final : Ledger, Chain MayFail registry final.calls final.registry →
      (Ledger.opened registry).Adds PassCall final →
        final.registry.find? .scheduler space scheduler.name = some scheduler := by
    rintro final chain ⟨calls, made, permitted⟩
    rw [Ledger.calls_opened, List.nil_append] at made
    subst made
    exact (chain.find?_eq fun call member => place?_ne_scheduler (permitted call member)).trans
      stored
  rw [syncScheduler_eq settings now placed.inSpace]
  refine Control.ensures_bind (Control.ensures_withDeadline
    ((((ensures_step settings now midway idle).and
      ((makes_step scheduler settings now).ensures_adds trivial)).and
        (Pass.ensures_chain _ _ registry)).mono ?_ ?_))
  · rintro action status final ⟨⟨finished, _, adds⟩, chain⟩
    exact ensures_settle named (unwritten final chain adds) finished
  · rintro halt status final ⟨⟨⟨whole, finished⟩, _, _, adds⟩, chain⟩
    cases halt with
    | failed error => exact ensures_settle named (unwritten final chain adds) finished
    | unanswered => exact ensures_settle named (unwritten final chain adds) finished
    | broken message => cases whole

end NodeFleet.Snapshot
