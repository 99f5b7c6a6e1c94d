import NodeFleet.Cron.Schedule
import NodeFleet.Resource.Scheduler
import NodeFleet.Store.StoreError

/-!
# Failed passes

An error of a pass either may go away by itself (transient) or needs someone to
act first (unrecoverable).  Errors gathered in one pass form an aggregate, which
is transient when all of its members are.
-/

namespace NodeFleet

open Calendar Resource Store

inductive Cause
  | described (message : String)
  | store (error : StoreError)
  | object (error : ObjectError)
  | schedule (error : Cron.ScheduleError)
  | deadline (limit : Duration)
  | definitionMissing
  | fullNodeMissing (namespaceName name : String)
  | candidateMissing (phase : SnapshotPhase)
  | tooFewInSync (inSync required : Nat)
  | pinnedNotInSync (ordinal : Int) (inSync : List String)
  | noVolume (pod : String)
  | deletion (snapshot : String) (error : StoreError)
  | unrepresentable (instant : Instant)
  deriving DecidableEq, Repr

def Cause.message : Cause → String
  | .described message => message
  | .store error => error.message
  | .object error => error.message
  | .schedule error => error.message
  | .deadline limit => s!"reconcile pass did not finish within {limit.seconds}s"
  | .definitionMissing =>
      s!"CustomResourceDefinition {VolumeSnapshot.definitionName} is not installed"
  | .fullNodeMissing namespaceName name => s!"fullnode {namespaceName}/{name} not found"
  | .candidateMissing phase =>
      s!"phase {phase.name} requires a candidate but none is recorded"
  | .tooFewInSync inSync required =>
      s!"{inSync} in-sync pods is below the minimum of {required} required to take one down"
  | .pinnedNotInSync ordinal inSync =>
      let names := ", ".intercalate inSync
      s!"pod with ordinal {ordinal} is not among the in-sync pods [{names}]"
  | .noVolume pod => s!"pod {pod} has no persistent volume claim"
  | .deletion snapshot error => s!"delete volumesnapshot {snapshot}: {error.message}"
  | .unrepresentable instant =>
      s!"cannot represent {Rfc3339.printSpaced instant} as a timestamp"

inductive PassError
  | transient (cause : Cause)
  | unrecoverable (cause : Cause)
  | aggregate (errors : List PassError)
  deriving Repr

namespace PassError

mutual

/-- Whether the error may go away by itself. -/
def isTransient : PassError → Bool
  | .transient _ => true
  | .unrecoverable _ => false
  | .aggregate errors => allTransient errors

/-- Whether each of some errors may go away by itself. -/
def allTransient : List PassError → Bool
  | [] => true
  | error :: errors => error.isTransient && allTransient errors

end

mutual

/-- The wording of an error; that of an aggregate joins the wordings of its
members. -/
def message : PassError → String
  | .transient cause => cause.message
  | .unrecoverable cause => cause.message
  | .aggregate errors => "; ".intercalate (messages errors)

def messages : List PassError → List String
  | [] => []
  | error :: errors => error.message :: messages errors

end

/-- One error for those gathered in a pass: none for none, and a single one as
it is. -/
def gather : List PassError → Option PassError
  | [] => none
  | [error] => some error
  | errors => some (.aggregate errors)

end PassError

/-- An error with which a controller is done with an object for now. -/
inductive ControlError
  | store (error : StoreError)
  | object (error : ObjectError)
  | pass (error : PassError)
  deriving Repr

namespace ControlError

def message : ControlError → String
  | .store error => error.message
  | .object error => error.message
  | .pass error => error.message

def isTransient : ControlError → Bool
  | .store _ => true
  | .object _ => false
  | .pass error => error.isTransient

end ControlError

end NodeFleet
