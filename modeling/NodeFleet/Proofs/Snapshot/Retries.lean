import NodeFleet.Proofs.Snapshot.Turns

/-!
# Retries

When the status of a turn that created a snapshot is lost, the next turn starts where that one
did.  It takes over the snapshot if it finds it in flight.
-/

namespace NodeFleet.Snapshot

open Calendar Resource Store

variable {mayFail : Request → Prop} {space name : String} {turn later : Turn}

/-- A status names the candidate whose pod is being taken down. -/
def RecordsCandidate (status : SchedulerStatus) : Prop :=
  isTakingDown status.phase = true ∧ status.candidate ≠ none

/-- A snapshot of a volume that is not ready carries the labels of a scheduler. -/
def InFlight (scheduler : Scheduler) (claimName? : Option String) (registry : Registry) : Prop :=
  ∃ snapshot ∈ registry.selected .volumeSnapshot (slotOf scheduler).space
      scheduler.snapshotSelector,
    VolumeSnapshot.isReady snapshot = false ∧
      (VolumeSnapshot.spec snapshot).source.claimName = claimName?

/-- What a pass accounts for: a snapshot is asked for only of a volume of which none is in
flight, and, if the pass started with a candidate recorded, of the volume of that one. -/
structure Accounts (round : Round) (before : SchedulerStatus) (ending : Ending)
    (status : SchedulerStatus) (ledger : Ledger) : Prop where
  wanted : ∀ call ∈ ledger.calls, CreatingCall call.request → ∃ candidate,
    wantedSnapshot? call.request = some (round.newSnapshot candidate) ∧
      round.NoneInFlight candidate.claimName call.before ∧
        (RecordsCandidate before → before.candidate = some candidate)
  ahead : ending = .goesOn → round.scheduler.isSuspended = false → RecordsCandidate before →
    isTakingDown status.phase = true ∧ status.candidate = before.candidate

section Moves

variable {round : Round} {before status status' : SchedulerStatus} {ledger final : Ledger}
  {ending : Ending}

theorem Accounts.wanted_of_moves (accounts : Accounts round before .goesOn status ledger)
    (moves : round.Moves mayFail status ledger ending status' final) :
    ∀ call ∈ final.calls, CreatingCall call.request → ∃ candidate,
      wantedSnapshot? call.request = some (round.newSnapshot candidate) ∧
        round.NoneInFlight candidate.claimName call.before ∧
          (RecordsCandidate before → before.candidate = some candidate) := by
  intro call member creates
  rcases moves.creation_cases with ⟨added, made, quiet⟩ | ⟨_, awake, _, candidate, asked, chosen,
    created⟩
  · rw [made] at member
    rcases List.mem_append.1 member with early | late
    · exact accounts.wanted call early creates
    · exact absurd creates (not_creatingCall (quiet call late))
  · obtain ⟨earlier, rest, made, aside⟩ := created.calls
    rw [made] at member
    rcases List.mem_append.1 member with old | new
    · exact accounts.wanted call old creates
    have asks : call = asked ∨ call ∈ earlier ++ rest := by
      simp only [List.mem_append, List.mem_cons] at new ⊢
      tauto
    rcases asks with rfl | other
    · refine ⟨candidate, by rw [created.request_eq]; rfl, created.noneInFlight, fun records => ?_⟩
      exact (accounts.ahead rfl awake records).2.symm.trans chosen
    · exact absurd creates (not_creatingCall (aside call other).1)

theorem Accounts.ahead_of_moves (accounts : Accounts round before .goesOn status ledger)
    (moves : round.Moves mayFail status ledger .goesOn status' final)
    (awake : round.scheduler.isSuspended = false) (records : RecordsCandidate before) :
    isTakingDown status'.phase = true ∧ status'.candidate = before.candidate := by
  obtain ⟨early, same⟩ := accounts.ahead rfl awake records
  have set : status.candidate ≠ none := by
    rw [same]
    exact records.2
  cases moves with
  | looks spares akin shifts =>
      exact ⟨shifts.isTakingDown_eq rfl set early, akin.candidate.trans same⟩
  | chooses _ phase => simp [phase, isTakingDown] at early
  | takesDown _ _ _ _ _ _ akin phase' =>
      exact ⟨by rw [phase']; rfl, akin.candidate.trans same⟩
  | seesGone _ _ _ _ akin phase' => exact ⟨by rw [phase']; rfl, akin.candidate.trans same⟩
  | seesPod _ _ _ _ ended => exact absurd rfl ended
  | restores due =>
      rcases due with phase | suspended
      · simp [phase, isTakingDown] at early
      · simp [awake] at suspended

/-- Every move keeps the account of a pass. -/
theorem upholds_accounts : round.Upholds mayFail (Accounts round before) := by
  intro status status' ledger final ending accounts moves
  refine ⟨accounts.wanted_of_moves moves, fun goesOn awake records => ?_⟩
  subst goesOn
  exact accounts.ahead_of_moves moves awake records

end Moves

/-! ## Whole turns -/

theorem accounts_opened (round : Round) (status : SchedulerStatus) (registry : Registry) :
    Accounts round status .goesOn status (.opened registry) where
  wanted := by simp
  ahead := fun _ _ records => ⟨records.1, rfl⟩

/-- Whatever fails, a pass accounts for the snapshots that it asks for. -/
theorem ensures_step_accounts (scheduler : Scheduler) (settings : Settings) (now : Instant)
    (status : SchedulerStatus) (registry : Registry) :
    (step scheduler settings now).Ensures mayFail
      (fun action => Round.Upheld (Accounts (roundOf scheduler settings now) status)
        (some action))
      (fun _ => Round.Upheld (Accounts (roundOf scheduler settings now) status) none)
      status (.opened registry) := by
  refine ensures_step_of_upholds upholds_accounts (fun final spares _ => ?_)
    (accounts_opened _ _ _)
  obtain ⟨added, made, aside⟩ := spares.adds
  refine ⟨fun call member creates => absurd creates ?_, fun goesOn => nomatch goesOn⟩
  rw [made, Ledger.calls_opened, List.nil_append] at member
  exact not_creatingCall (aside call member).1

/-- Whatever fails, a turn accounts for the snapshots that it asks for. -/
theorem Turn.wanted (runs : turn.Runs mayFail)
    (stored : turn.before.find? .scheduler space name = some turn.scheduler) :
    ∀ call ∈ turn.final.calls, CreatingCall call.request → ∃ candidate,
      wantedSnapshot? call.request =
          some ((roundOf turn.scheduler turn.settings turn.now).newSnapshot candidate) ∧
        (roundOf turn.scheduler turn.settings turn.now).NoneInFlight candidate.claimName
            call.before ∧
          (RecordsCandidate (turn.scheduler.status.getD .initial) →
            (turn.scheduler.status.getD .initial).candidate = some candidate) := by
  obtain rfl : turn.scheduler.name = name := (Registry.isPlaced_of_find? stored).shownName_eq
  obtain ⟨action?, status, middle, ⟨⟨⟨ending, accounts⟩, _⟩, settled⟩, _⟩ :=
    turn.exists_comesOut _ runs stored (ensures_step_accounts _ _ _ _ _)
  obtain ⟨added, made, settling⟩ := settled.spares.adds
  intro call member creates
  rw [made] at member
  rcases List.mem_append.1 member with early | late
  · exact accounts.wanted call early creates
  · exact absurd creates (not_creatingCall_of_settling (settling call late))

/-- A turn that starts from the status of an earlier one asks for a snapshot of a volume of
which that one has asked for a snapshot only if none is in flight; and for one of another
volume only if the status does not record the candidate. -/
theorem retry_creates_only_if {call retried : Call} {first second : VolumeSnapshot}
    (stored : turn.before.find? .scheduler space name = some turn.scheduler)
    (runs : turn.Runs mayFail)
    (storedLater : later.before.find? .scheduler space name = some later.scheduler)
    (runsLater : later.Runs mayFail)
    (continues : Continues turn.scheduler later.scheduler)
    (lost : later.scheduler.status = turn.scheduler.status)
    (member : call ∈ turn.final.calls) (wanted : wantedSnapshot? call.request = some first)
    (memberLater : retried ∈ later.final.calls)
    (wantedLater : wantedSnapshot? retried.request = some second) :
    second.spec.source.claimName = first.spec.source.claimName ∧
        ¬ InFlight turn.scheduler first.spec.source.claimName retried.before ∨
      second.spec.source.claimName ≠ first.spec.source.claimName ∧
        ¬ RecordsCandidate (turn.scheduler.status.getD .initial) := by
  obtain ⟨candidate, asked, _, recorded⟩ :=
    Turn.wanted runs stored call member ((creatingCall_iff _).2 ⟨first, wanted⟩)
  obtain ⟨candidateLater, askedLater, none, recordedLater⟩ :=
    Turn.wanted runsLater storedLater retried memberLater
      ((creatingCall_iff _).2 ⟨second, wantedLater⟩)
  obtain rfl := Option.some.inj (wanted.symm.trans asked)
  obtain rfl := Option.some.inj (wantedLater.symm.trans askedLater)
  have sameName : later.scheduler.name = turn.scheduler.name :=
    (Registry.isPlaced_of_find? storedLater).shownName_eq.trans
      (Registry.isPlaced_of_find? stored).shownName_eq.symm
  have sameSelector : later.scheduler.snapshotSelector = turn.scheduler.snapshotSelector := by
    simp only [Scheduler.snapshotSelector, Scheduler.snapshotLabels, sameName]
  by_cases sameVolume : candidateLater.claimName = candidate.claimName
  · refine Or.inl ⟨congrArg some sameVolume, ?_⟩
    rintro ⟨snapshot, found, unready, volume⟩
    rw [← continues.slot_eq, ← sameSelector] at found
    refine none snapshot found unready ?_
    rw [sameVolume]
    exact volume
  · refine Or.inr ⟨fun same => sameVolume (Option.some.inj same), fun records => sameVolume ?_⟩
    rw [lost] at recordedLater
    have same := (recorded records).symm.trans (recordedLater records)
    rw [Option.some.inj same]

/-! ## A snapshot that is ready before it is recorded -/

/-- A turn that starts where one did that created a snapshot and whose status was lost creates
no other snapshot. -/
def RetriesCreateNothing (mayFail : Request → Prop) : Prop :=
  ∀ (space name : String) (turn later : Turn),
    turn.before.find? .scheduler space name = some turn.scheduler → turn.Runs mayFail →
      turn.now ≤ later.now → Progresses turn.final.registry later.before →
        later.before.find? .scheduler space name = some later.scheduler → later.Runs mayFail →
          later.scheduler.status = turn.scheduler.status →
            (∃ call ∈ turn.final.calls, CreatingCall call.request ∧ call.Succeeds) →
              ∀ retried ∈ later.final.calls, ¬ CreatingCall retried.request

section Example

/-- A scheduler whose pod is down and whose snapshot is still to be created. -/
def creatingScheduler : Scheduler :=
  let candidate : Candidate :=
    { podName := "cosmoshub-0", claimName := "pvc-cosmoshub-0", podLabels := .empty }
  { hourly with
    status := some { SchedulerStatus.initial with
      phase := .creatingSnapshot, candidate := some candidate } }

def creatingCluster : Registry :=
  (sampleCluster.drop .pod "default" "cosmoshub-0").put .scheduler "default" "hourly"
    creatingScheduler

/-- The turn that creates a snapshot, and whose status is lost. -/
def creatingTurn : Turn :=
  turnAt "hourly" (.ofSeconds 3610) (fun request => decide (MayLoseStatus request))
    creatingCluster

/-- The turn that starts from the same status, once that snapshot is ready. -/
def retryingTurn : Turn :=
  turnAt "hourly" (.ofSeconds 3640) (fun _ => false)
    (readied "hourly-19700101010010" creatingTurn.final.registry)

theorem find?_creatingCluster :
    creatingCluster.find? .scheduler "default" "hourly" = some creatingScheduler :=
  (Registry.sets_put _ ⟨rfl, rfl⟩).here

theorem scheduler_creatingTurn : creatingTurn.scheduler = creatingScheduler := by
  simp [creatingTurn, turnAt, find?_creatingCluster]

theorem find?_creatingTurn :
    creatingTurn.before.find? .scheduler "default" "hourly" = some creatingTurn.scheduler := by
  rw [scheduler_creatingTurn]
  exact find?_creatingCluster

theorem runs_creatingTurn : creatingTurn.Runs MayLoseStatus :=
  runs_turnAt (fun _ => of_decide_eq_true) _ _ _

theorem runs_retryingTurn : retryingTurn.Runs MayLoseStatus :=
  runs_turnAt (fun _ fails => nomatch fails) _ _ _

theorem progresses_retryingTurn :
    Progresses creatingTurn.final.registry retryingTurn.before :=
  progresses_readied "hourly-19700101010010" _

theorem interleaves_retryingTurn :
    Interleaves MayLoseStatus "default" "hourly" (slotOf creatingTurn.scheduler)
      creatingTurn.before [creatingTurn] retryingTurn.before :=
  .progress (.schedulerPass .start find?_creatingTurn runs_creatingTurn) progresses_retryingTurn

theorem find?_retryingTurn :
    retryingTurn.before.find? .scheduler "default" "hourly" = some retryingTurn.scheduler :=
  interleaves_retryingTurn.find?_turnAt find?_creatingTurn _ _

theorem continues_retryingTurn : Continues creatingTurn.scheduler retryingTurn.scheduler := by
  obtain ⟨scheduler, found, continues⟩ :=
    interleaves_retryingTurn.exists_stored find?_creatingTurn
  obtain rfl := Option.some.inj (found.symm.trans find?_retryingTurn)
  exact continues

theorem status_retryingTurn : retryingTurn.scheduler.status = creatingTurn.scheduler.status := by
  decide +kernel

theorem creates_creatingTurn :
    ∃ call ∈ creatingTurn.final.calls, CreatingCall call.request ∧ call.Succeeds := by
  decide +kernel

theorem creates_retryingTurn :
    ∃ retried ∈ retryingTurn.final.calls, CreatingCall retried.request := by
  decide +kernel

/-- Both turns create a snapshot, and that of the second one is as stated. -/
theorem retry_creates_only_if_of_ready :
    ∃ call ∈ creatingTurn.final.calls, ∃ first, wantedSnapshot? call.request = some first ∧
      ∃ retried ∈ retryingTurn.final.calls, ∃ second,
        wantedSnapshot? retried.request = some second ∧
          (second.spec.source.claimName = first.spec.source.claimName ∧
              ¬ InFlight creatingTurn.scheduler first.spec.source.claimName retried.before ∨
            second.spec.source.claimName ≠ first.spec.source.claimName ∧
              ¬ RecordsCandidate (creatingTurn.scheduler.status.getD .initial)) := by
  obtain ⟨call, member, creates, _⟩ := creates_creatingTurn
  obtain ⟨retried, memberLater, createsLater⟩ := creates_retryingTurn
  obtain ⟨first, wanted⟩ := (creatingCall_iff _).1 creates
  obtain ⟨second, wantedLater⟩ := (creatingCall_iff _).1 createsLater
  exact ⟨call, member, first, wanted, retried, memberLater, second, wantedLater,
    retry_creates_only_if find?_creatingTurn runs_creatingTurn find?_retryingTurn runs_retryingTurn
      continues_retryingTurn status_retryingTurn member wanted memberLater wantedLater⟩

/-- A snapshot that is ready before it is recorded is created once more. -/
theorem not_retriesCreateNothing_of_ready : ¬ RetriesCreateNothing MayLoseStatus := by
  intro retries
  obtain ⟨retried, memberLater, createsLater⟩ := creates_retryingTurn
  refine retries _ _ creatingTurn retryingTurn find?_creatingTurn runs_creatingTurn
    (by decide) progresses_retryingTurn find?_retryingTurn runs_retryingTurn status_retryingTurn
    creates_creatingTurn retried memberLater createsLater

end Example

end NodeFleet.Snapshot
