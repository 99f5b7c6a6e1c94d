import NodeFleet.Snapshot.Lifecycle

/-!
# The controller of schedulers

The controller makes one pass and then writes the status it left, whether the
pass succeeded or not.  A scheduler that is being deleted hands its pod back.
-/

namespace NodeFleet.Snapshot

open Calendar Resource Store

def recordOutcome (generation : Option Int) (result : Except PassError Action)
    (status : SchedulerStatus) : SchedulerStatus :=
  let message :=
    match result with
    | .ok _ => status.statusMessage
    | .error error => some error.message
  { status with observedGeneration := generation, statusMessage := message }

/-- Makes one pass of a scheduler and writes its status, in the place of the
whole old one. -/
def syncScheduler (scheduler : Scheduler) (settings : Settings) (now : Instant) :
    Control Action := do
  match scheduler.metadata.namespaceName with
  | none => Control.fail (.object .noNamespace)
  | some space => do
      let (result, status) ← Control.withDeadline settings.passTimeout
        (step scheduler settings now) (scheduler.status.getD .initial)
      let status := recordOutcome scheduler.metadata.generation result status
      let _ ← Control.attempt <| Exchange.updateStatus .scheduler space scheduler.name
        fun (latest : Scheduler) => { latest with status := some status }
      match result with
      | .ok action => return action
      | .error error => Control.failPass error

/-- Looks at a scheduler afresh and makes one pass, or hands its pod back if it
is being deleted. -/
def reconcileScheduler (scheduler : Scheduler) (settings : Settings) (now : Instant) :
    Control Action := do
  match scheduler.metadata.namespaceName with
  | none => Control.fail (.object .noNamespace)
  | some space => do
      let latest ← Control.attempt (Exchange.get .scheduler space scheduler.name)
      let latest : Scheduler := latest
      if latest.metadata.isTerminating then
        let _ ← Control.carryOut (release latest settings now)
        return .awaitChange
      syncScheduler latest settings now

end NodeFleet.Snapshot
