import Mathlib.Data.List.Induction
import NodeFleet.Resource.Scheduler

/-!
# The history of snapshots

The history of a scheduler is cut after five records, and a record that is pushed takes the place
of an older one of its name, as far as that is still there.  What was cut off makes no difference:
the history is always the beginning of what it would be if nothing had ever been cut off.
-/

namespace NodeFleet.Resource.SchedulerStatus

/-- The records that are not followed by one of the same name, the latest first. -/
def latestPushes : List SnapshotRecord → List SnapshotRecord
  | [] => []
  | entry :: later =>
      if later.any (·.name == entry.name) then latestPushes later
      else latestPushes later ++ [entry]

variable {entry : SnapshotRecord} {pushed latest : List SnapshotRecord}

/-! ## The latest record of each name -/

/-- A record that is pushed comes first, and counts in the place of those of its name. -/
theorem latestPushes_append_singleton (pushed : List SnapshotRecord) (entry : SnapshotRecord) :
    latestPushes (pushed ++ [entry]) =
      entry :: (latestPushes pushed).filter (·.name != entry.name) := by
  induction pushed with
  | nil => rfl
  | cons first later inductionHypothesis =>
      rw [List.cons_append, latestPushes, latestPushes, List.any_append, inductionHypothesis]
      by_cases same : first.name = entry.name
      · -- The first record does not count beside the one that is pushed.
        have followed : [entry].any (·.name == first.name) = true := by simp [same]
        rw [followed, Bool.or_true, if_pos rfl]
        split
        · rfl
        · rw [List.filter_append, List.filter_cons_of_neg (by simp [same]), List.filter_nil,
            List.append_nil]
      · have aside : [entry].any (·.name == first.name) = false := by simp [Ne.symm same]
        rw [aside, Bool.or_false]
        split
        · rfl
        · rw [List.filter_append, List.filter_cons_of_pos (by simp [same]), List.filter_nil,
            List.cons_append]

theorem latestPushes_nodup (pushed : List SnapshotRecord) :
    ((latestPushes pushed).map (·.name)).Nodup := by
  induction pushed using List.reverseRecOn with
  | nil => exact List.nodup_nil
  | append_singleton pushed entry inductionHypothesis =>
      rw [latestPushes_append_singleton, List.map_cons, List.nodup_cons]
      refine ⟨?_, inductionHypothesis.sublist (List.filter_sublist.map _)⟩
      intro again
      obtain ⟨other, kept, same⟩ := List.mem_map.1 again
      simp [same] at kept

theorem head?_latestPushes (pushed : List SnapshotRecord) :
    (latestPushes pushed).head? = pushed.getLast? := by
  induction pushed using List.reverseRecOn with
  | nil => rfl
  | append_singleton pushed entry _ =>
      rw [latestPushes_append_singleton, List.head?_cons, List.getLast?_concat]

/-! ## Records that are cut off -/

theorem filter_ne_name_eq_self (absent : entry.name ∉ latest.map (·.name)) :
    latest.filter (·.name != entry.name) = latest := by
  refine List.filter_eq_self.2 fun other member => ?_
  have differs : other.name ≠ entry.name := fun same => absent (same ▸ List.mem_map_of_mem member)
  simpa using differs

/-- At most one record makes room for another one, so that one more than are kept is enough to
choose from. -/
theorem take_filter_take (nodup : (latest.map (·.name)).Nodup) (entry : SnapshotRecord)
    (kept : Nat) :
    ((latest.take (kept + 1)).filter (·.name != entry.name)).take kept =
      (latest.filter (·.name != entry.name)).take kept := by
  induction latest generalizing kept with
  | nil => rfl
  | cons first latest inductionHypothesis =>
      obtain ⟨fresh, others⟩ := List.nodup_cons.1 nodup
      rw [List.take_succ_cons]
      by_cases same : first.name = entry.name
      · have gone : (first.name != entry.name) = false := by simp [same]
        have absent : entry.name ∉ latest.map (·.name) := same ▸ fresh
        have absentToo : entry.name ∉ (latest.take kept).map (·.name) := fun member =>
          absent (((List.take_sublist kept latest).map _).subset member)
        rw [List.filter_cons_of_neg (by simp [gone]), List.filter_cons_of_neg (by simp [gone]),
          filter_ne_name_eq_self absent, filter_ne_name_eq_self absentToo, List.take_take,
          Nat.min_self]
      · rw [List.filter_cons_of_pos (by simp [same]), List.filter_cons_of_pos (by simp [same])]
        cases kept with
        | zero => rfl
        | succ kept => rw [List.take_succ_cons, List.take_succ_cons, inductionHypothesis others]

theorem pushHistory_take (status : SchedulerStatus) (nodup : (latest.map (·.name)).Nodup)
    (entry : SnapshotRecord) :
    pushHistory { status with history := latest.take historyLimit } entry =
      { status with
        history := (entry :: latest.filter (·.name != entry.name)).take historyLimit } := by
  simp only [pushHistory, historyLimit, List.take_succ_cons, take_filter_take nodup entry 4]

/-- Pushing records on an empty history leaves the latest of them. -/
theorem foldl_pushHistory (status : SchedulerStatus) (pushed : List SnapshotRecord) :
    pushed.foldl pushHistory { status with history := [] } =
      { status with history := (latestPushes pushed).take historyLimit } := by
  induction pushed using List.reverseRecOn with
  | nil => rfl
  | append_singleton pushed entry inductionHypothesis =>
      rw [List.foldl_append, inductionHypothesis, latestPushes_append_singleton]
      exact pushHistory_take status (latestPushes_nodup pushed) entry

/-- A record takes the place of the one of its name, if that is there, and else of the fifth. -/
theorem pushHistory_history (status : SchedulerStatus) (entry : SnapshotRecord)
    (short : status.history.length ≤ historyLimit) :
    (pushHistory status entry).history =
      entry :: if status.history.any (·.name == entry.name) then
          status.history.filter (·.name != entry.name)
        else status.history.take 4 := by
  rw [pushHistory, historyLimit, List.take_succ_cons]
  by_cases there : status.history.any (·.name == entry.name) = true
  · -- One record goes, so that none of the others has to.
    have fewer : (status.history.filter (·.name != entry.name)).length ≤ 4 := by
      have removed : (status.history.filter (·.name != entry.name)).length <
          status.history.length := by
        refine List.length_filter_lt_length_iff_exists.2 ?_
        simpa using there
      exact Nat.le_of_lt_succ (Nat.lt_of_lt_of_le removed short)
    rw [if_pos there, List.take_of_length_le fewer]
  · have absent : entry.name ∉ status.history.map (·.name) := by simpa using there
    rw [if_neg there, filter_ne_name_eq_self absent]

/-- Whatever records are pushed on an empty history, it is the first five of the latest ones of
their names, so that the names are distinct and the record that was pushed last comes first.  One
more record comes before the four latest ones of other names: those are all the others, if its name
was in the history, and else the fifth one is forgotten. -/
theorem history_eq_latestPushes (status : SchedulerStatus) (pushed : List SnapshotRecord) :
    let after (pushed : List SnapshotRecord) :=
      pushed.foldl pushHistory { status with history := [] }
    after pushed = { status with history := (latestPushes pushed).take 5 } ∧
      ((after pushed).history.map (·.name)).Nodup ∧
      (after pushed).history.head? = pushed.getLast? ∧
      ∀ entry : SnapshotRecord,
        (after (pushed ++ [entry])).history =
            entry :: ((latestPushes pushed).filter (·.name != entry.name)).take 4 ∧
          (after (pushed ++ [entry])).history =
            entry :: if (after pushed).history.any (·.name == entry.name) then
                (after pushed).history.filter (·.name != entry.name)
              else (after pushed).history.take 4 := by
  intro after
  have remembered : ∀ pushed, after pushed =
      { status with history := (latestPushes pushed).take historyLimit } :=
    foldl_pushHistory status
  have short : (after pushed).history.length ≤ historyLimit := by
    rw [remembered]
    exact List.length_take_le ..
  have next : ∀ entry, after (pushed ++ [entry]) = pushHistory (after pushed) entry := fun entry =>
    List.foldl_append
  refine ⟨remembered pushed, ?distinct, ?latestFirst, fun entry => ⟨?others, ?replaced⟩⟩
  case distinct =>
    rw [remembered]
    exact (latestPushes_nodup pushed).sublist ((List.take_sublist _ _).map _)
  case latestFirst =>
    rw [remembered, ← head?_latestPushes]
    exact List.head?_take
  case others =>
    simp only [remembered, latestPushes_append_singleton, historyLimit, List.take_succ_cons]
  case replaced => rw [next, pushHistory_history _ _ short]

end NodeFleet.Resource.SchedulerStatus
