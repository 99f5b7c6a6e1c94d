import NodeFleet.Store.Pass

/-!
# The time of the next snapshot

The next snapshot is due at the first time of the schedule after the start of
the last one, or after the creation of the scheduler if there is none.  While
the last snapshot is not ready, none is due.
-/

namespace NodeFleet.Snapshot

open Calendar Cron Resource Store

/-- The namespace of the full node of a scheduler, without which there can be no
pass. -/
def requireSpace {σ : Type} (scheduler : Scheduler) : Pass σ String :=
  Pass.orUnrecoverable (.object .noNamespace) scheduler.fullNodeNamespace?

/-- The instant after which the schedule is followed. -/
def reference (scheduler : Scheduler) (status : SchedulerStatus) (now : Instant) : Instant :=
  let start :=
    match status.lastSnapshot with
    | some last => some last.startedAt
    | none => scheduler.metadata.creationTimestamp
  (start.bind Timestamp.instant?).getD now

/-- Looks again at a last snapshot that was not ready, and says whether it still
is not.  A snapshot that is gone counts as complete. -/
def isPending (scheduler : Scheduler) : Pass SchedulerStatus Bool := do
  match (← get).lastSnapshot with
  | none => return false
  | some last => do
      if last.isReady then return false
      let space ← requireSpace scheduler
      match ← Pass.attempt (Exchange.get? .volumeSnapshot space last.name) with
      | none => return false
      | some snapshot => do
          let snapshot : VolumeSnapshot := snapshot
          let refreshed := { last with status := snapshot.status }
          modify fun status => { status with lastSnapshot := some refreshed }
          return !snapshot.isReady

/-- A result of a schedule; a schedule at fault needs someone to mend it. -/
def orScheduleFault {σ α : Type} (result : Except ScheduleError α) : Pass σ α :=
  match result with
  | .ok value => return value
  | .error error => Pass.failUnrecoverable (.schedule error)

/-- The time to wait before the next snapshot, which is zero when it is due. -/
def timeToNext (scheduler : Scheduler) (now : Instant) (poll : Duration) :
    Pass SchedulerStatus Duration := do
  let expression := scheduler.spec.schedule
  let schedule ← orScheduleFault (Schedule.parse expression)
  if ← isPending scheduler then return poll
  orScheduleFault (schedule.untilNext expression (reference scheduler (← get) now) now)

end NodeFleet.Snapshot
