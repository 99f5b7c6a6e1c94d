import NodeFleet.Proofs.Ranking
import NodeFleet.Snapshot.Retention

/-!
# Which snapshots expire

The snapshots with a creation time stand in the order of their age: first the ones that are kept,
as many as the limit allows, and then the ones that expire.  Once some that expire are gone, the
rest of them expires still.
-/

namespace NodeFleet.Snapshot

open Calendar Resource

variable {limit : Nat} {snapshots : List VolumeSnapshot}

/-- The age of a snapshot, counted from its creation time on: the older, the higher. -/
def age (snapshot : VolumeSnapshot) : Int := -(snapshot.createdAt?.map (·.nanos)).getD 0

/-- The snapshots that have a creation time. -/
def timed (snapshots : List VolumeSnapshot) : List VolumeSnapshot :=
  snapshots.filter (·.createdAt?.isSome)

/-- The most recent snapshots. -/
def kept (limit : Nat) (snapshots : List VolumeSnapshot) : List VolumeSnapshot :=
  ((newestFirst snapshots).take limit).map Prod.snd

theorem map_snd_dated (snapshots : List VolumeSnapshot) :
    (dated snapshots).map Prod.snd = timed snapshots := by
  induction snapshots with
  | nil => rfl
  | cons snapshot snapshots inductionHypothesis =>
      unfold dated timed at inductionHypothesis ⊢
      cases created : snapshot.createdAt? <;> simp [created, inductionHypothesis]

theorem kept_append_expired (limit : Nat) (snapshots : List VolumeSnapshot) :
    kept limit snapshots ++ expired limit snapshots = (newestFirst snapshots).map Prod.snd := by
  rw [kept, expired, ← List.map_append, List.take_append_drop]

/-- The snapshots that are kept and then those that expire are the ones with a creation time, from
the most recent on, where those of one time stay in their order. -/
theorem ranked_kept_append_expired (limit : Nat) (snapshots : List VolumeSnapshot) :
    Ranked age (timed snapshots) (kept limit snapshots ++ expired limit snapshots) := by
  have sameOrder : (fun left right : Instant × VolumeSnapshot => decide (right.1 ≤ left.1)) =
      fun left right => decide (-left.1.nanos ≤ -right.1.nanos) := by
    funext left right
    rw [Bool.eq_iff_iff, decide_eq_true_iff, decide_eq_true_iff]
    exact Int.neg_le_neg_iff.symm
  rw [kept_append_expired, newestFirst, sameOrder, ← map_snd_dated]
  refine (ranked_mergeSort (fun pair => -pair.1.nanos) (dated snapshots)).map fun pair member => ?_
  obtain ⟨snapshot, _, created⟩ := List.mem_filterMap.1 member
  obtain ⟨time, isTime, rfl⟩ := Option.map_eq_some_iff.1 created
  rw [age, isTime]
  rfl

theorem length_kept (limit : Nat) (snapshots : List VolumeSnapshot) :
    (kept limit snapshots).length = min limit (timed snapshots).length := by
  have all := (ranked_kept_append_expired limit snapshots).perm.length_eq
  rw [kept_append_expired, List.length_map] at all
  rw [kept, List.length_map, List.length_take, all]

/-- What expires has been listed, and has a creation time. -/
theorem mem_of_mem_expired {snapshot : VolumeSnapshot}
    (member : snapshot ∈ expired limit snapshots) :
    snapshot ∈ snapshots ∧ snapshot.createdAt?.isSome = true :=
  List.mem_filter.1 ((ranked_kept_append_expired limit snapshots).perm.subset
    (List.mem_append_right _ member))

theorem mem_of_mem_kept {snapshot : VolumeSnapshot} (member : snapshot ∈ kept limit snapshots) :
    snapshot ∈ snapshots ∧ snapshot.createdAt?.isSome = true :=
  List.mem_filter.1 ((ranked_kept_append_expired limit snapshots).perm.subset
    (List.mem_append_left _ member))

/-- What is kept is at least as recent as what expires. -/
theorem age_le_of_mem_kept {recent old : VolumeSnapshot} (isKept : recent ∈ kept limit snapshots)
    (expires : old ∈ expired limit snapshots) : age recent ≤ age old :=
  (List.pairwise_append.1 (ranked_kept_append_expired limit snapshots).ascends).2.2
    recent isKept old expires

/-- Snapshots with distinct names have distinct names when they are kept or expire. -/
theorem nodup_names_kept_append_expired (limit : Nat)
    (nodup : (snapshots.map (·.metadata.shownName)).Nodup) :
    ((kept limit snapshots ++ expired limit snapshots).map (·.metadata.shownName)).Nodup :=
  (((ranked_kept_append_expired limit snapshots).perm.map _).nodup_iff).2
    (nodup.sublist (List.filter_sublist.map _))

theorem nodup_names_expired (limit : Nat)
    (nodup : (snapshots.map (·.metadata.shownName)).Nodup) :
    ((expired limit snapshots).map (·.metadata.shownName)).Nodup :=
  (nodup_names_kept_append_expired limit nodup).sublist
    ((List.sublist_append_right _ _).map _)

/-- Once snapshots are gone or changed, but for their creation times, and none of them was to be
kept, what remains of those that expired expires. -/
theorem expired_filterMap {change : VolumeSnapshot → Option VolumeSnapshot}
    (sameTime : ∀ snapshot ∈ snapshots, ∀ changed, change snapshot = some changed →
      changed.createdAt? = snapshot.createdAt?)
    (stands : ∀ snapshot ∈ kept limit snapshots, (change snapshot).isSome = true) :
    expired limit (snapshots.filterMap change) = (expired limit snapshots).filterMap change := by
  have sameTimed : timed (snapshots.filterMap change) = (timed snapshots).filterMap change := by
    rw [timed, timed, List.filter_filterMap, List.filterMap_filter]
    refine List.filterMap_congr fun snapshot member => ?_
    cases changes : change snapshot with
    | none => simp
    | some changed => simp [Option.filter, sameTime snapshot member changed changes]
  have before : Ranked age ((timed snapshots).filterMap change)
      ((kept limit snapshots ++ expired limit snapshots).filterMap change) :=
    (ranked_kept_append_expired limit snapshots).filterMap fun snapshot member changed changes => by
      rw [age, age, sameTime snapshot (List.mem_filter.1 member).1 changed changes]
  have after := ranked_kept_append_expired limit (snapshots.filterMap change)
  rw [sameTimed] at after
  have sameParts := before.unique after
  rw [List.filterMap_append] at sameParts before
  -- As many are kept as before, so the parts end at the same place.
  have asMany : (kept limit (snapshots.filterMap change)).length =
      ((kept limit snapshots).filterMap change).length := by
    have all := (ranked_kept_append_expired limit snapshots).perm.length_eq
    have remain := before.perm.length_eq
    rw [List.length_append, length_kept] at all
    rw [List.length_append, List.filterMap_length_eq_length.2 stands, length_kept] at remain
    have fewer := List.length_filterMap_le change (expired limit snapshots)
    rw [length_kept, sameTimed, List.filterMap_length_eq_length.2 stands, length_kept]
    omega
  exact List.append_inj_right sameParts asMany

end NodeFleet.Snapshot
