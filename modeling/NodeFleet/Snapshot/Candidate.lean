import NodeFleet.Store.Pass

/-!
# The candidate for a snapshot

A snapshot is taken of the volume of one pod, which is taken down for it.  That
pod must be in sync, and so must enough others be.  What the full node reports
of a pod decides whether it is in sync; without a report its readiness does.
-/

namespace NodeFleet.Snapshot

open Resource Store Text

/-- What the full node reports of whether a pod is in sync. -/
def reportedSync? (node : FullNode) (pod : Pod) : Option Bool := do
  (← (← node.status).syncInfo.find? pod.metadata.shownName).inSync

/-- Whether a snapshot can be taken of the volume of a pod. -/
def isInSync (node : FullNode) (pod : Pod) : Bool :=
  !pod.metadata.isTerminating && (reportedSync? node pod).getD pod.isReady

def ordinalOf? (pod : Pod) : Option Int := do
  (readWhole .int32 (← pod.metadata.ordinalText?).toList).toOption

/-- The rank of a pod among the candidates; pods without a position come with
the greatest one. -/
def rank (pod : Pod) : Int := (ordinalOf? pod).getD Bounds.int32.high

/-- The pods in sync, in the order of their positions. -/
def inSyncPods (node : FullNode) (pods : List Pod) : List Pod :=
  (pods.filter (isInSync node)).mergeSort fun left right => rank left ≤ rank right

/-- The pod that is to be taken down: the pinned one, or the first. -/
def choose (pods : List Pod) (minAvailable : Nat) (pin : Option Int) : Except Cause Pod :=
  if pods.length < minAvailable then .error (.tooFewInSync pods.length minAvailable)
  else
    match pin with
    | some ordinal =>
        match pods.find? fun pod => ordinalOf? pod == some ordinal with
        | some pod => .ok pod
        | none => .error (.pinnedNotInSync ordinal (pods.map (·.metadata.shownName)))
    | none =>
        match pods.head? with
        | some pod => .ok pod
        | none => .error (.tooFewInSync 0 minAvailable)

def select (pods : List Pod) (minAvailable : Nat) (pin : Option Int) : Except Cause Candidate := do
  let pod ← choose pods minAvailable pin
  let podName := pod.metadata.shownName
  match pod.claimName? with
  | some claimName => return ⟨podName, claimName, pod.metadata.labelMap⟩
  | none => throw (.noVolume podName)

/-- Looks for a candidate among the pods of a full node.  All faults are
transient, as pods may catch up. -/
def findCandidate {σ : Type} (node : FullNode) (minAvailable : Nat) (pin : Option Int) :
    Pass σ Candidate := do
  let space ← Pass.namespaceOf node.metadata
  let pods ← Pass.attempt (Exchange.list .pod space (node.componentSelector FullNode.podComponent))
  match select (inSyncPods node pods) minAvailable pin with
  | .ok candidate => return candidate
  | .error cause => Pass.failTransient cause

end NodeFleet.Snapshot
