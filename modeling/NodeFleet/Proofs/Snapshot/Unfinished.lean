import NodeFleet.CommandLine.Command
import NodeFleet.Proofs.Snapshot.Turns

/-!
# Unfinished snapshots

A scheduler that waits for its next time first looks at its last snapshot.  While that is not
ready, the time to wait is the poll interval, and a time of zero means that the next snapshot is
due.  So an unfinished snapshot holds back the next one, unless the poll interval is zero.
-/

namespace NodeFleet.Snapshot

open Calendar Resource Store

variable {mayFail : Request → Prop} {scheduler : Scheduler} {round : Round}
  {status status' : SchedulerStatus} {ledger final : Ledger}

/-- The last snapshot is not recorded as ready, and it stands in the namespace of the full node
and is not ready there. -/
structure Unfinished (scheduler : Scheduler) (last : SnapshotRecord) (status : SchedulerStatus)
    (registry : Registry) : Prop where
  recorded : status.lastSnapshot = some last
  unready : last.isReady = false
  there : ∃ space snapshot, scheduler.fullNodeNamespace? = some space ∧
    registry.find? .volumeSnapshot space last.name = some snapshot ∧
    VolumeSnapshot.isReady snapshot = false

/-- An unfinished snapshot is found to be pending, or it cannot be looked at. -/
theorem ensures_isPending_of_unfinished {last : SnapshotRecord}
    (unfinished : Unfinished scheduler last status ledger.registry) :
    (isPending scheduler).Ensures mayFail
      (fun pending status' _ => pending = true ∧ status'.phase = status.phase)
      (fun _ status' _ => status'.phase = status.phase) status ledger := by
  obtain ⟨recorded, unready, space, snapshot, inSpace, there, pending⟩ := unfinished
  refine Pass.ensures_bind (Pass.ensures_get ?_)
  rw [recorded]
  simp only [unready, Bool.false_eq_true, if_false]
  refine Pass.ensures_bind ?_
  rw [requireSpace, inSpace]
  refine Pass.ensures_pure _ (Pass.ensures_bind (Pass.ensures_attempt (Exchange.ensures_get?
    (fun found isThere => ?_) (fun missing => ?_) fun error final nothing => rfl)))
  · obtain rfl := Option.some.inj (there.symm.trans isThere)
    refine Pass.ensures_bind (Pass.ensures_modify (Pass.ensures_pure _ ⟨?_, rfl⟩))
    simp [pending]
  · exact absurd (there.symm.trans missing) (by simp)

/-- While the last snapshot is unfinished, the time to wait is that of a poll. -/
theorem ensures_timeToNext_of_unfinished {last : SnapshotRecord} {now : Instant} {poll : Duration}
    (unfinished : Unfinished scheduler last status ledger.registry) :
    (timeToNext scheduler now poll).Ensures mayFail
      (fun wait status' _ => wait = poll ∧ status'.phase = status.phase)
      (fun _ status' _ => status'.phase = status.phase) status ledger := by
  refine Pass.ensures_bind ?_
  unfold orScheduleFault
  split
  · refine Pass.ensures_pure _ (Pass.ensures_bind
      ((ensures_isPending_of_unfinished unfinished).mono ?_ fun _ _ _ same => same))
    rintro pending status' final ⟨rfl, same⟩
    exact Pass.ensures_pure _ ⟨rfl, same⟩
  · exact Pass.ensures_throw _ rfl

/-- What comes of a wait while the last snapshot is unfinished: it ends, in one of two phases, or
it halts where it is. -/
theorem Round.ensures_awaitNext_of_unfinished {last : SnapshotRecord}
    (unfinished : Unfinished round.scheduler last status ledger.registry) :
    round.awaitNext.Ensures mayFail
      (fun next status' _ =>
        (round.settings.snapshotPoll = .zero → next = .proceed ∧
          status'.phase = .findingCandidate) ∧
        (round.settings.snapshotPoll ≠ .zero → next = .wait round.settings.snapshotPoll ∧
          status'.phase = status.phase))
      (fun _ status' _ => status'.phase = status.phase) status ledger := by
  refine Pass.ensures_bind ((ensures_timeToNext_of_unfinished unfinished).mono ?_
    fun _ _ _ same => same)
  rintro wait status' final ⟨rfl, same⟩
  by_cases zero : round.settings.snapshotPoll = .zero
  · simp only [zero, if_true]
    refine Pass.ensures_bind (Pass.ensures_modify (Pass.ensures_pure _ ?_))
    exact ⟨fun _ => ⟨rfl, rfl⟩, fun longer => absurd rfl longer⟩
  · simp only [zero, if_false]
    refine Pass.ensures_bind (Pass.ensures_modify (Pass.ensures_pure _ ?_))
    exact ⟨False.elim, fun _ => ⟨rfl, same⟩⟩

/-- Wherever a pass waits for the next time while the last snapshot is unfinished, it moves on to
find a candidate exactly if the poll interval is zero and no call stops it; if the interval is
longer and no call stops it, the pass waits for that interval. -/
theorem moves_on_unfinished_iff {last : SnapshotRecord}
    {result : Except (Halt PassError) Next} (phase : status.phase = .waitingForNext)
    (unfinished : Unfinished round.scheduler last status ledger.registry)
    (runs : (round.turn status.phase).Runs mayFail status ledger result status' final) :
    (status'.phase = .findingCandidate ↔
        round.settings.snapshotPoll = .zero ∧ ∃ next, result = .ok next) ∧
      ∀ next, result = .ok next → round.settings.snapshotPoll ≠ .zero →
        next = .wait round.settings.snapshotPoll ∧ status'.phase = .waitingForNext := by
  rw [phase] at runs
  have outcome := (Round.ensures_awaitNext_of_unfinished unfinished).settles runs
  cases result with
  | ok next =>
      obtain ⟨fires, waits⟩ := outcome
      rw [phase] at waits
      have moved : status'.phase = .findingCandidate ↔ round.settings.snapshotPoll = .zero := by
        refine ⟨fun moved => ?_, fun zero => (fires zero).2⟩
        by_contra longer
        exact nomatch moved.symm.trans (waits longer).2
      refine ⟨by simp [moved], fun other same longer => ?_⟩
      obtain rfl := Except.ok.inj same
      exact waits longer
  | error halt =>
      have stays : status'.phase = .waitingForNext := outcome.trans phase
      simp [stays]

/-! ## A poll interval of zero -/

/-- Whatever the options of the server, an unfinished snapshot holds back the next one. -/
def HoldsBack (mayFail : Request → Prop) : Prop :=
  ∀ (environment : String → Option String) (arguments : List String) (settings : Settings)
    (scheduler : Scheduler) (now : Instant) (last : SnapshotRecord)
    (status status' : SchedulerStatus) (ledger final : Ledger)
    (result : Except (Halt PassError) Next),
    CommandLine.read environment arguments = .ok (.runControllers settings) →
      status.phase = .waitingForNext → Unfinished scheduler last status ledger.registry →
        ((roundOf scheduler settings now).turn status.phase).Runs mayFail status ledger result
            status' final →
          status'.phase ≠ .findingCandidate

section Example

/-- The settings of a server that looks again at once. -/
def impatient : Settings := { Settings.standard with snapshotPoll := .zero }

/-- The record of the snapshot that was started at one o'clock. -/
def startedRecord : SnapshotRecord := ⟨"hourly-19700101010000", ⟨3600⟩, none⟩

def startedStatus : SchedulerStatus := { SchedulerStatus.initial with
  lastSnapshot := some startedRecord }

def startedSnapshot : VolumeSnapshot :=
  { metadata := { ObjectMeta.empty with
      name := some "hourly-19700101010000"
      namespaceName := some "default" }
    spec := ⟨⟨some "pvc-cosmoshub-0", none⟩, none⟩
    status := none }

/-- The cluster of the hourly scheduler with a snapshot that is not ready. -/
def startedCluster : Registry :=
  sampleCluster.put .volumeSnapshot "default" "hourly-19700101010000" startedSnapshot

theorem unfinished_startedRecord :
    Unfinished hourly startedRecord startedStatus startedCluster where
  recorded := rfl
  unready := rfl
  there := ⟨"default", startedSnapshot, rfl, (Registry.sets_put _ ⟨rfl, rfl⟩).here, rfl⟩

theorem read_impatient :
    CommandLine.read (fun _ => none) ["server", "--snapshot-poll-secs", "0"] =
      .ok (.runControllers impatient) := by
  rfl

/-- How the wait of the hourly scheduler ends ten seconds later. -/
def impatientWait : (Except (Halt PassError) Next × SchedulerStatus) × Ledger :=
  let round := roundOf hourly impatient (.ofSeconds 3610)
  ((round.turn startedStatus.phase).run.run startedStatus : Program _).run
    (Program.serve fun _ => false) (.opened startedCluster)

theorem runs_impatientWait :
    ((roundOf hourly impatient (.ofSeconds 3610)).turn startedStatus.phase).Runs (fun _ => False)
      startedStatus (.opened startedCluster) impatientWait.1.1 impatientWait.1.2
      impatientWait.2 :=
  Program.runs_run (fun _ fails => nomatch fails) _ _

theorem phase_impatientWait : impatientWait.1.2.phase = .findingCandidate := by
  decide +kernel

/-- The wait ends, and the condition for the pass to move on is as stated. -/
theorem moves_on_unfinished_iff_of_impatient :
    startedStatus.phase = .waitingForNext ∧
      Unfinished hourly startedRecord startedStatus startedCluster ∧
      (impatientWait.1.2.phase = .findingCandidate ↔
        impatient.snapshotPoll = .zero ∧ ∃ next, impatientWait.1.1 = .ok next) :=
  ⟨rfl, unfinished_startedRecord, (moves_on_unfinished_iff rfl unfinished_startedRecord
    runs_impatientWait).1⟩

/-- A server that is told to look again at once goes on to take the next snapshot, though the
last one is unfinished and no time of the schedule has come. -/
theorem not_holdsBack_of_impatient : ¬ HoldsBack fun _ => False := by
  intro holdsBack
  exact holdsBack _ _ _ _ _ _ _ _ _ _ _ read_impatient rfl unfinished_startedRecord
    runs_impatientWait phase_impatientWait

end Example

end NodeFleet.Snapshot
