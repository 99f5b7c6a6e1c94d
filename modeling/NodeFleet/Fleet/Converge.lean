import NodeFleet.Fleet.OrdinalSet

/-!
# Convergence of a full node

A pass over a full node converges its volumes and then its pods.  The controller
records the outcome in the status of the full node, and says when to look again.
-/

namespace NodeFleet.Fleet

open Calendar Resource Store

/-- What a pass over a full node found. -/
structure Convergence where
  settled : Bool
  availableReplicas : Nat
  deriving DecidableEq, Repr

variable {σ : Type}

def componentSet (node : FullNode) (space component : String) : OrdinalSet :=
  { space := space
    selector := node.componentSelector component
    owner := node.ownerReference
    maxUnavailable := node.maxUnavailable
    minReadySeconds := node.minReadySeconds }

def reconcilePods (node : FullNode) (now : Instant) : Pass σ SetOutcome := do
  let space ← Pass.namespaceOf node.metadata
  (componentSet node space FullNode.podComponent).reconcile .pod node.desiredPods now

def reconcileClaims (node : FullNode) (now : Instant) : Pass σ SetOutcome := do
  let space ← Pass.namespaceOf node.metadata
  (componentSet node space FullNode.claimComponent).reconcile .volumeClaim node.desiredClaims now

/-- One pass over a full node: its volume claims, then its pods. -/
def converge (node : FullNode) (now : Instant) : Pass σ Convergence := do
  let claims ← reconcileClaims node now
  let pods ← reconcilePods node now
  return ⟨claims.settled && pods.settled, pods.available⟩

/-! ## The controller -/

/-- The phase, message and number of available replicas to record for the
outcome of a pass. -/
def verdict (result : Except PassError Convergence) :
    NodePhase × Option String × Option Nat :=
  match result with
  | .ok found =>
      (if found.settled then .complete else .progressing, none, some found.availableReplicas)
  | .error error =>
      (if error.isTransient then .progressing else .error, some error.message, none)

/-- The status of a full node once the outcome of a pass is recorded. -/
def recordOutcome (generation : Option Int) (result : Except PassError Convergence)
    (status : FullNodeStatus) : FullNodeStatus :=
  let (phase, message, available) := verdict result
  { status with
    observedGeneration := generation
    phase := phase
    statusMessage := message
    availableReplicas := (available.map Int.ofNat).getD status.availableReplicas }

/-- Converges a full node and records the outcome in its status. -/
def syncFullNode (node : FullNode) (settings : Settings) (now : Instant) : Control Action := do
  match node.metadata.namespaceName with
  | none => Control.fail (.object .noNamespace)
  | some space => do
      let (result, ()) ← Control.withDeadline settings.passTimeout (converge node now) ()
      let _ ← Control.attempt <| Exchange.updateStatus .fullNode space node.name
        (·.updateStatus (recordOutcome node.metadata.generation result))
      match result with
      | .ok found => return if found.settled then .awaitChange else .requeue settings.requeue
      | .error error => Control.failPass error

/-- Looks at a full node afresh and converges it, unless it is being deleted. -/
def reconcileFullNode (node : FullNode) (settings : Settings) (now : Instant) :
    Control Action := do
  match node.metadata.namespaceName with
  | none => Control.fail (.object .noNamespace)
  | some space => do
      let latest ← Control.attempt (Exchange.get .fullNode space node.name)
      let latest : FullNode := latest
      if latest.metadata.isTerminating then return .awaitChange
      syncFullNode latest settings now

end NodeFleet.Fleet
