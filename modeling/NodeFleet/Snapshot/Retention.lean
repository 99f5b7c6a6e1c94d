import NodeFleet.Store.Pass

/-!
# Retention of snapshots

Of the snapshots with a creation time the most recent ones are kept and the
others are deleted.  A deletion that fails does not keep the others from being
attempted.
-/

namespace NodeFleet.Snapshot

open Calendar Resource Store

variable {σ : Type}

def dated (snapshots : List VolumeSnapshot) : List (Instant × VolumeSnapshot) :=
  snapshots.filterMap fun snapshot => snapshot.createdAt?.map fun time => (time, snapshot)

/-- The dated snapshots from the most recent on; those of one time stay in their
order. -/
def newestFirst (snapshots : List VolumeSnapshot) : List (Instant × VolumeSnapshot) :=
  (dated snapshots).mergeSort fun left right => right.1 ≤ left.1

/-- The snapshots beyond the `limit` most recent ones. -/
def expired (limit : Nat) (snapshots : List VolumeSnapshot) : List VolumeSnapshot :=
  ((newestFirst snapshots).drop limit).map Prod.snd

/-- Attempts to delete each of some snapshots, and gives the names of those
deleted and the errors of the others. -/
def deleteEach (space : String) : List String → Pass σ (List String × List PassError)
  | [] => return ([], [])
  | name :: names => do
      let result ← Pass.perform (Exchange.delete .volumeSnapshot space name)
      let (deleted, errors) ← deleteEach space names
      match result with
      | .ok () => return (name :: deleted, errors)
      | .error error => return (deleted, .transient (.deletion name error) :: errors)

/-- Deletes the snapshots of a selector beyond the `limit` most recent ones, and
gives their names. -/
def prune (space selector : String) (limit : Nat) : Pass σ (List String) := do
  let snapshots ← Pass.attempt (Exchange.list .volumeSnapshot space selector)
  let (deleted, errors) ←
    deleteEach space ((expired limit snapshots).map (·.metadata.shownName))
  match PassError.gather errors with
  | none => return deleted
  | some error => throw (.failed error)

end NodeFleet.Snapshot
