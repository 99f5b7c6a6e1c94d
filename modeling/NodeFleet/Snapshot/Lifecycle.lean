import NodeFleet.Snapshot.Candidate
import NodeFleet.Snapshot.Retention
import NodeFleet.Snapshot.Timing

/-!
# The life of a snapshot

A snapshot passes through phases, from the time it is due until the pod that was
taken down for it is back.  Each pass goes through as many phases as it can
without waiting for the cluster, and says how long to wait before the next pass.
The phase stands in the status of the scheduler, which is the state of a pass.
-/

namespace NodeFleet.Snapshot

open Calendar Resource Store

/-- Whether a pass goes on with the next phase or waits. -/
inductive Next
  | proceed
  | wait (after : Duration)
  deriving DecidableEq, Repr

/-- One pass of a scheduler, over the namespace of its full node. -/
structure Round where
  scheduler : Scheduler
  space : String
  now : Instant
  settings : Settings

/-- The greatest number of phases that a pass goes through. -/
def phaseLimit : Nat := 16

def enter (phase : SnapshotPhase) (message : Option String) : Pass SchedulerStatus Unit :=
  modify fun status => { status with phase := phase, statusMessage := message }

def turnTo (phase : SnapshotPhase) : Pass SchedulerStatus Unit :=
  modify fun status => { status with phase := phase }

def report (message : String) : Pass SchedulerStatus Unit :=
  modify fun status => { status with statusMessage := some message }

/-- The candidate that the current phase cannot do without. -/
def requireCandidate : Pass SchedulerStatus Candidate := do
  let status ← get
  match status.candidate with
  | some candidate => return candidate
  | none => Pass.failTransient (.candidateMissing status.phase)

namespace Round

variable {σ α : Type}

def nodeName (round : Round) : String := round.scheduler.spec.fullNodeRef.name

def failNodeMissing (round : Round) : Pass σ α :=
  Pass.failTransient (.fullNodeMissing round.space round.nodeName)

/-- Registers with the full node the pod that the scheduler holds down, or that
it holds none.  A full node that is gone holds none. -/
def hold (round : Round) (pod : Option String) : Pass σ Unit := do
  match ← Pass.attempt (Exchange.get? .fullNode round.space round.nodeName) with
  | some _ => do
      let key := round.scheduler.statusKey
      let _ ← Pass.attempt <| Exchange.updateStatus .fullNode round.space round.nodeName
        (·.updateStatus (·.hold key pod))
  | none => if pod.isSome then round.failNodeMissing

def hasPod (round : Round) (name : String) : Pass σ Bool := do
  return (← Pass.attempt (Exchange.get? .pod round.space name)).isSome

/-! ## Phases -/

def awaitNext (round : Round) : Pass SchedulerStatus Next := do
  let wait ← timeToNext round.scheduler round.now round.settings.snapshotPoll
  if wait = .zero then
    enter .findingCandidate none
    return .proceed
  report s!"next snapshot in {wait.seconds}s"
  return .wait wait

/-- Looks for the pod to take down. -/
def chooseCandidate (round : Round) : Pass SchedulerStatus Next := do
  match ← Pass.attempt (Exchange.get? .fullNode round.space round.nodeName) with
  | none => round.failNodeMissing
  | some node => do
      let candidate ← findCandidate node round.scheduler.minAvailable
        round.scheduler.spec.candidateOrdinal
      modify fun status =>
        { status with candidate := some candidate, phase := .deletingPod }
      return .proceed

/-- Holds the candidate down and deletes it. -/
def deletePod (round : Round) : Pass SchedulerStatus Next := do
  match (← get).candidate with
  | none =>
      turnTo .findingCandidate
      return .proceed
  | some candidate => do
      round.hold (some candidate.podName)
      Pass.attempt (Exchange.delete .pod round.space candidate.podName)
      Pass.notify "PodDeleted"
        s!"Deleted pod {candidate.podName} to snapshot volume {candidate.claimName}"
      turnTo .waitingForPodDeletion
      return .proceed

def awaitPodDeletion (round : Round) : Pass SchedulerStatus Next := do
  let candidate ← requireCandidate
  if ← round.hasPod candidate.podName then
    report s!"waiting for pod {candidate.podName} to terminate"
    return .wait round.settings.requeue
  enter .creatingSnapshot none
  return .proceed

def snapshotName (round : Round) : String :=
  let time := round.now.civil
  let date := s!"{Rfc3339.printYear time.date.year}{Text.padded 2 time.date.month}"
    ++ Text.padded 2 time.date.day
  s!"{round.scheduler.name}-{date}{Text.padded 2 time.hour}{Text.padded 2 time.minute}"
    ++ Text.padded 2 time.second

def newSnapshot (round : Round) (candidate : Candidate) : VolumeSnapshot :=
  { metadata := { ObjectMeta.empty with
      name := some round.snapshotName
      namespaceName := some round.space
      labels := some (candidate.podLabels.union round.scheduler.snapshotLabels) }
    spec := {
      source := { claimName := some candidate.claimName, contentName := none }
      className := round.scheduler.spec.snapshotClassName }
    status := none }

/-- A snapshot of a volume that an earlier pass took and that is not ready yet:
the earlier pass may have failed to record it. -/
def inFlight? (round : Round) (claimName : String) : Pass σ (Option VolumeSnapshot) := do
  let snapshots ← Pass.attempt
    (Exchange.list .volumeSnapshot round.space round.scheduler.snapshotSelector)
  let snapshots : List VolumeSnapshot := snapshots
  return snapshots.find? fun snapshot =>
    !snapshot.isReady && snapshot.spec.source.claimName == some claimName

/-- Takes a snapshot of the volume of a candidate, or takes over the one that is
in flight, and gives its name and creation time. -/
def takeSnapshot (round : Round) (candidate : Candidate) :
    Pass σ (String × Option Timestamp) := do
  match ← round.inFlight? candidate.claimName with
  | some snapshot =>
      return (snapshot.metadata.shownName, snapshot.metadata.creationTimestamp)
  | none => do
      let snapshot := round.newSnapshot candidate
      let _ ← Pass.attempt (Exchange.create .volumeSnapshot round.space snapshot)
      Pass.notify "SnapshotCreated"
        s!"Created VolumeSnapshot {round.snapshotName} from {candidate.claimName}"
      return (round.snapshotName, none)

/-- Takes a snapshot of the volume of the candidate and records it. -/
def createSnapshot (round : Round) : Pass SchedulerStatus Next := do
  let candidate ← requireCandidate
  let (name, createdAt) ← round.takeSnapshot candidate
  let startedAt ← Pass.orUnrecoverable (.unrepresentable round.now)
    (createdAt.or (Timestamp.ofInstant? round.now))
  modify fun status =>
    { status with
      lastSnapshot := some ⟨name, startedAt, none⟩
      phase := .waitingForSnapshotCreation }
  return .wait round.settings.snapshotPoll

def pendingMessage (name : String) (snapshot : VolumeSnapshot) : String :=
  match snapshot.status.bind (·.error) |>.bind (·.message) with
  | some detail => s!"waiting for snapshot {name}: {detail}"
  | none => s!"waiting for snapshot {name} to become ready"

/-- Waits until the snapshot is ready; one that is gone is waited for no
longer. -/
def awaitSnapshot (round : Round) : Pass SchedulerStatus Next := do
  match (← get).lastSnapshot with
  | none =>
      turnTo .restoringPod
      return .proceed
  | some last => do
      match ← Pass.attempt (Exchange.get? .volumeSnapshot round.space last.name) with
      | none =>
          turnTo .restoringPod
          return .proceed
      | some snapshot => do
          let snapshot : VolumeSnapshot := snapshot
          let refreshed := { last with status := snapshot.status }
          modify fun status => { status with lastSnapshot := some refreshed }
          if snapshot.isReady then
            modify (·.pushHistory refreshed)
            enter .restoringPod none
            return .proceed
          report (pendingMessage last.name snapshot)
          return .wait round.settings.snapshotPoll

/-- Deletes the snapshots past the retention limit. -/
def pruneSnapshots (round : Round) : Pass σ Unit := do
  let pruned ← prune round.space round.scheduler.snapshotSelector round.scheduler.limit
  pruned.forM fun name =>
    Pass.notify "SnapshotPruned" s!"Deleted VolumeSnapshot {name} past the retention limit"

/-- Hands the candidate back to the full node, waits until it is there again, and
then deletes old snapshots. -/
def restorePod (round : Round) : Pass SchedulerStatus Next := do
  match (← get).candidate with
  | none =>
      turnTo .waitingForNext
      return .proceed
  | some candidate => do
      round.hold none
      if ← round.hasPod candidate.podName then
        modify fun status => { status with candidate := none }
        enter .waitingForNext none
        round.pruneSnapshots
        return .proceed
      enter .restoringPod (some s!"waiting for pod {candidate.podName} to be recreated")
      return .wait round.settings.requeue

/-! ## Passes -/

def turn (round : Round) : SnapshotPhase → Pass SchedulerStatus Next
  | .waitingForNext => round.awaitNext
  | .findingCandidate => round.chooseCandidate
  | .deletingPod => round.deletePod
  | .waitingForPodDeletion => round.awaitPodDeletion
  | .creatingSnapshot => round.createSnapshot
  | .waitingForSnapshotCreation => round.awaitSnapshot
  | .restoringPod => round.restorePod
  | .suspended | .missingDefinition => do
      turnTo .waitingForNext
      return .proceed

/-- Goes through at most `limit` phases. -/
def advance (round : Round) : (limit : Nat) → Pass SchedulerStatus Action
  | 0 => return .requeue round.settings.requeue
  | limit + 1 => do
      match ← round.turn (← get).phase with
      | .proceed => round.advance limit
      | .wait after => return .requeue after

/-- A pass of a suspended scheduler, which hands its pod back first. -/
def suspend (round : Round) : Pass SchedulerStatus Action := do
  let next ← if (← get).candidate.isSome then round.restorePod else pure .proceed
  match next with
  | .wait after => return .requeue after
  | .proceed =>
      enter .suspended none
      return .awaitChange

/-- A pass of a scheduler that is not suspended. -/
def resume (round : Round) : Pass SchedulerStatus Action := do
  if (← get).phase = .suspended then turnTo .waitingForNext
  round.advance phaseLimit

end Round

/-- Fails while the definition of snapshots is missing, which the phase shows. -/
def requireDefinition : Pass SchedulerStatus Unit := do
  if ← Pass.attempt (Exchange.isDefined .volumeSnapshot) then
    if (← get).phase = .missingDefinition then turnTo .waitingForNext
  else
    turnTo .missingDefinition
    Pass.failUnrecoverable .definitionMissing

def step (scheduler : Scheduler) (settings : Settings) (now : Instant) :
    Pass SchedulerStatus Action := do
  requireDefinition
  let round : Round := ⟨scheduler, ← requireSpace scheduler, now, settings⟩
  if scheduler.isSuspended then round.suspend else round.resume

/-- Hands back the pod that a scheduler holds down. -/
def release {σ : Type} (scheduler : Scheduler) (settings : Settings) (now : Instant) :
    Pass σ Unit := do
  let round : Round := ⟨scheduler, ← requireSpace scheduler, now, settings⟩
  round.hold none

end NodeFleet.Snapshot
