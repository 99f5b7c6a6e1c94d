import NodeFleet.Failure

/-!
# Settings and retries

The waiting times of the controllers, and how long they wait after an error.
-/

namespace NodeFleet

open Calendar

structure Settings where
  requeue : Duration
  unrecoverableRequeue : Duration
  passTimeout : Duration
  snapshotPoll : Duration
  deriving DecidableEq, Repr

def Settings.standard : Settings :=
  { requeue := .ofSeconds 5, unrecoverableRequeue := .ofSeconds 300,
    passTimeout := .ofSeconds 60, snapshotPoll := .ofSeconds 10 }

inductive Action
  | awaitChange
  | requeue (after : Duration)
  deriving DecidableEq, Repr

def Settings.afterError (settings : Settings) (error : ControlError) : Action :=
  let standard :=
    if error.isTransient then Action.requeue settings.requeue
    else .requeue settings.unrecoverableRequeue
  match error with
  | .store refused =>
      if refused.isNotFound then .awaitChange
      else if refused.isConflict then .requeue settings.requeue
      else standard
  | _ => standard

end NodeFleet
