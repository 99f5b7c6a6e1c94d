import NodeFleet.Failure
import NodeFleet.Proofs.Text.Cutting

/-!
# Trees of errors

The members of an aggregate may be aggregates themselves.  Whether an error may go away, and how
it is told, depends on the errors at the leaves of its tree and on nothing else.
-/

namespace NodeFleet.PassError

variable {error : PassError} {errors : List PassError}

/-! ## Members -/

theorem allTransient_eq_all (errors : List PassError) :
    allTransient errors = errors.all isTransient := by
  induction errors with
  | nil => rfl
  | cons first rest inductionHypothesis =>
      rw [allTransient, inductionHypothesis, List.all_cons]

theorem messages_eq_map (errors : List PassError) : messages errors = errors.map message := by
  induction errors with
  | nil => rfl
  | cons first rest inductionHypothesis =>
      rw [messages, inductionHypothesis, List.map_cons]

/-- What holds of an aggregate if it holds of its members holds of every tree, if it holds of the
leaves. -/
@[elab_as_elim]
theorem induct {motive : PassError → Prop} (transient : ∀ cause, motive (.transient cause))
    (unrecoverable : ∀ cause, motive (.unrecoverable cause))
    (aggregate : ∀ errors, (∀ error ∈ errors, motive error) → motive (.aggregate errors))
    (error : PassError) : motive error :=
  match error with
  | .transient cause => transient cause
  | .unrecoverable cause => unrecoverable cause
  | .aggregate errors =>
      aggregate errors fun error _ => induct transient unrecoverable aggregate error

/-! ## Gathered errors -/

theorem gather_eq_none_iff : gather errors = none ↔ errors = [] := by
  match errors with
  | [] => exact iff_of_true rfl rfl
  | [_] => exact iff_of_false nofun nofun
  | _ :: _ :: _ => exact iff_of_false nofun nofun

theorem exists_gather (some : errors ≠ []) : ∃ error, gather errors = .some error :=
  Option.ne_none_iff_exists'.1 (mt gather_eq_none_iff.1 some)

/-- Gathered errors may go away exactly if each of them may. -/
theorem isTransient_gather (gathered : gather errors = some error) :
    error.isTransient = errors.all isTransient := by
  match errors with
  | [] => cases gathered
  | [_] =>
      cases gathered
      rw [List.all_cons, List.all_nil, Bool.and_true]
  | _ :: _ :: _ =>
      cases gathered
      rw [isTransient, allTransient_eq_all]

/-- Gathered errors are told one after another. -/
theorem message_gather (gathered : gather errors = some error) :
    error.message = "; ".intercalate (errors.map message) := by
  match errors with
  | [] => cases gathered
  | [_] =>
      cases gathered
      rfl
  | _ :: _ :: _ =>
      cases gathered
      rw [message, messages_eq_map]

/-! ## Leaves -/

mutual

/-- The errors of a tree that are no aggregates, from left to right. -/
def leaves : PassError → List PassError
  | .transient cause => [.transient cause]
  | .unrecoverable cause => [.unrecoverable cause]
  | .aggregate errors => leavesOfAll errors

def leavesOfAll : List PassError → List PassError
  | [] => []
  | error :: errors => error.leaves ++ leavesOfAll errors

end

theorem leavesOfAll_eq_flatMap (errors : List PassError) :
    leavesOfAll errors = errors.flatMap leaves := by
  induction errors with
  | nil => rfl
  | cons first rest inductionHypothesis =>
      rw [leavesOfAll, inductionHypothesis, List.flatMap_cons]

/-- An error may go away exactly if each of its leaves is transient. -/
theorem isTransient_iff_leaves (error : PassError) :
    error.isTransient = true ↔ ∀ leaf ∈ error.leaves, ∃ cause, leaf = .transient cause := by
  induction error using induct with
  | transient cause => simp [isTransient, leaves]
  | unrecoverable cause => simp [isTransient, leaves]
  | aggregate errors inductionHypothesis =>
      rw [isTransient, allTransient_eq_all, List.all_eq_true, leaves, leavesOfAll_eq_flatMap,
        List.forall_mem_flatMap]
      exact forall₂_congr inductionHypothesis

theorem leaves_cases {leaf : PassError} (member : leaf ∈ error.leaves) :
    (∃ cause, leaf = .transient cause) ∨ ∃ cause, leaf = .unrecoverable cause := by
  induction error using induct with
  | transient cause => exact Or.inl ⟨cause, List.mem_singleton.1 member⟩
  | unrecoverable cause => exact Or.inr ⟨cause, List.mem_singleton.1 member⟩
  | aggregate errors inductionHypothesis =>
      rw [leaves, leavesOfAll_eq_flatMap] at member
      obtain ⟨branch, among, inBranch⟩ := List.mem_flatMap.1 member
      exact inductionHypothesis branch among inBranch

/-- No aggregate of a tree is without members. -/
inductive Filled : PassError → Prop
  | transient (cause : Cause) : Filled (.transient cause)
  | unrecoverable (cause : Cause) : Filled (.unrecoverable cause)
  | aggregate {errors : List PassError} (some : errors ≠ [])
      (members : ∀ error ∈ errors, Filled error) : Filled (.aggregate errors)

theorem Filled.leaves_ne_nil (filled : error.Filled) : error.leaves ≠ [] := by
  induction filled with
  | transient cause => exact List.cons_ne_nil _ _
  | unrecoverable cause => exact List.cons_ne_nil _ _
  | aggregate some members inductionHypothesis =>
      obtain ⟨first, rest, rfl⟩ := List.exists_cons_of_ne_nil some
      rw [leaves, leavesOfAll]
      exact List.append_ne_nil_of_left_ne_nil (inductionHypothesis first List.mem_cons_self) _

/-- Errors that are told by their leaves are so one after another too. -/
theorem intercalate_leaves (filled : ∀ error ∈ errors, error.Filled)
    (told : ∀ error ∈ errors, error.message = "; ".intercalate (error.leaves.map message)) :
    "; ".intercalate (errors.map message) =
      "; ".intercalate ((errors.flatMap leaves).map message) := by
  have groups : ∀ group ∈ errors.map fun error => error.leaves.map message, group ≠ [] := by
    intro group member
    obtain ⟨error, among, rfl⟩ := List.mem_map.1 member
    simpa using (filled error among).leaves_ne_nil
  rw [List.map_flatMap, List.flatMap_def, Text.intercalate_flatten groups, List.map_map]
  exact congrArg _ (List.map_congr_left told)

/-- An error is told by its leaves, from left to right. -/
theorem Filled.message_eq (filled : error.Filled) :
    error.message = "; ".intercalate (error.leaves.map message) := by
  induction filled with
  | transient cause => rfl
  | unrecoverable cause => rfl
  | aggregate some members inductionHypothesis =>
      rw [message, messages_eq_map, leaves, leavesOfAll_eq_flatMap]
      exact intercalate_leaves members inductionHypothesis

theorem leaves_eq_self {leaf : PassError} (member : leaf ∈ error.leaves) : leaf.leaves = [leaf] := by
  rcases leaves_cases member with ⟨cause, rfl⟩ | ⟨cause, rfl⟩ <;> rfl

theorem filled_of_mem_leaves {leaf : PassError} (member : leaf ∈ error.leaves) : leaf.Filled := by
  rcases leaves_cases member with ⟨cause, rfl⟩ | ⟨cause, rfl⟩
  · exact .transient cause
  · exact .unrecoverable cause

theorem leaves_gather (gathered : gather errors = some error) :
    error.leaves = errors.flatMap leaves := by
  match errors with
  | [] => cases gathered
  | [_] =>
      cases gathered
      rw [List.flatMap_cons, List.flatMap_nil, List.append_nil]
  | _ :: _ :: _ =>
      cases gathered
      rw [leaves, leavesOfAll_eq_flatMap]

theorem filled_gather (filled : ∀ error ∈ errors, error.Filled)
    (gathered : gather errors = some error) : error.Filled := by
  match errors with
  | [] => cases gathered
  | [_] =>
      cases gathered
      exact filled _ List.mem_cons_self
  | _ :: _ :: _ =>
      cases gathered
      exact .aggregate (List.cons_ne_nil _ _) filled

theorem flatMap_leaves_flatMap (errors : List PassError) :
    (errors.flatMap leaves).flatMap leaves = errors.flatMap leaves := by
  have single : ∀ leaf ∈ errors.flatMap leaves, leaf.leaves = [leaf] := by
    intro leaf member
    obtain ⟨error, _, inTree⟩ := List.mem_flatMap.1 member
    exact leaves_eq_self inTree
  rw [List.flatMap_def, List.map_congr_left single, ← List.flatMap_def, List.flatMap_singleton']

/-- An error may go away exactly if all the leaves of its tree are transient, and it is told by
them from left to right, unless some aggregate has no members.  So gathered errors are as good as
their leaves gathered: both are an error unless there is none, and are retried and told alike. -/
theorem judged_and_told_by_leaves :
    (∀ error : PassError,
      error.isTransient = true ↔ ∀ leaf ∈ error.leaves, ∃ cause, leaf = .transient cause) ∧
    (∀ error : PassError, error.Filled →
      error.message = "; ".intercalate (error.leaves.map message)) ∧
    (∀ errors : List PassError, errors ≠ [] → (∀ error ∈ errors, error.Filled) →
      ∃ nested flat, gather errors = some nested ∧ gather (errors.flatMap leaves) = some flat ∧
        nested.isTransient = flat.isTransient ∧ nested.message = flat.message) ∧
    ∀ errors : List PassError, gather errors = none ↔ errors = [] := by
  refine ⟨isTransient_iff_leaves, fun _ => Filled.message_eq, ?alike, fun _ => gather_eq_none_iff⟩
  case alike =>
    intro errors some filled
    have filledLeaves : ∀ leaf ∈ errors.flatMap leaves, leaf.Filled := by
      intro leaf member
      obtain ⟨error, _, inTree⟩ := List.mem_flatMap.1 member
      exact filled_of_mem_leaves inTree
    obtain ⟨nested, gathered⟩ := exists_gather some
    have nestedFilled := filled_gather filled gathered
    have nestedLeaves := leaves_gather gathered
    obtain ⟨flat, gatheredFlat⟩ := exists_gather (nestedLeaves ▸ nestedFilled.leaves_ne_nil)
    have sameLeaves : nested.leaves = flat.leaves := by
      rw [nestedLeaves, leaves_gather gatheredFlat, flatMap_leaves_flatMap]
    refine ⟨nested, flat, gathered, gatheredFlat, ?_, ?_⟩
    · rw [Bool.eq_iff_iff, isTransient_iff_leaves, isTransient_iff_leaves, sameLeaves]
    · rw [nestedFilled.message_eq, (filled_gather filledLeaves gatheredFlat).message_eq, sameLeaves]

/-- Errors that are aggregates two levels deep. -/
def tangledErrors : List PassError :=
  [.transient (.described "conflict"),
    .aggregate [.transient (.described "timeout"),
      .aggregate [.unrecoverable (.described "bad cron")]]]

theorem filled_tangledErrors : ∀ error ∈ tangledErrors, error.Filled := by
  have innermost : Filled (.aggregate [.unrecoverable (.described "bad cron")]) :=
    .aggregate (List.cons_ne_nil _ _) (List.forall_mem_singleton.2 (.unrecoverable _))
  have inner : Filled (.aggregate [.transient (.described "timeout"),
      .aggregate [.unrecoverable (.described "bad cron")]]) :=
    .aggregate (List.cons_ne_nil _ _)
      (List.forall_mem_cons.2 ⟨.transient _, List.forall_mem_singleton.2 innermost⟩)
  exact List.forall_mem_cons.2 ⟨.transient _, List.forall_mem_singleton.2 inner⟩

theorem judged_and_told_by_leaves_of_tangled :
    tangledErrors ≠ [] ∧ (∀ error ∈ tangledErrors, error.Filled) ∧
      ∃ nested flat, gather tangledErrors = some nested ∧
        gather [.transient (.described "conflict"), .transient (.described "timeout"),
          .unrecoverable (.described "bad cron")] = some flat ∧
        nested.isTransient = flat.isTransient ∧ nested.message = flat.message := by
  have some : tangledErrors ≠ [] := List.cons_ne_nil _ _
  obtain ⟨_, _, alike, _⟩ := judged_and_told_by_leaves
  exact ⟨some, filled_tangledErrors, alike tangledErrors some filled_tangledErrors⟩

end NodeFleet.PassError
