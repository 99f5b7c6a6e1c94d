import NodeFleet.Proofs.Rollout

/-!
# The rollout budget in exact arithmetic

The budget is what remains of the members that may be unavailable, at least none and at most all
of the desired members.  It is computed in 32 bits, which hold every difference on the way but
the last: that one leaves the range when far more members are ready than are desired, or nearly
as many as there are numbers may be unavailable.
-/

namespace NodeFleet

open Text

/-- Numbers of 32 bits for which a rollout may be planned: some members are desired.  Any number
of members may be ready, more than are desired too. -/
structure Plannable (maxUnavailable : Option IntOrText) (desired ready : Int) : Prop where
  some : 1 ≤ desired
  desired_fits : desired ≤ Bounds.int32.high
  nonnegative : 0 ≤ ready
  ready_fits : ready ≤ Bounds.int32.high
  limit_fits : ∀ limit, maxUnavailable = .some (.number limit) → Bounds.int32.admits limit = true

/-- The members that may still be taken down, at least none and at most all of those desired. -/
def exactBudget (maxUnavailable : Option IntOrText) (desired ready : Int) : Int :=
  max 0 (min desired (resolveMaxUnavailable maxUnavailable desired - (desired - ready)))

/-- Whenever a rollout may be planned, its budget is the exact one. -/
def BudgetsExact : Prop :=
  ∀ maxUnavailable desired ready, Plannable maxUnavailable desired ready →
    rolloutBudget maxUnavailable desired ready = .ok (exactBudget maxUnavailable desired ready)

variable {maxUnavailable : Option IntOrText} {desired ready : Int}

theorem Plannable.resolve_le (plannable : Plannable maxUnavailable desired ready) :
    resolveMaxUnavailable maxUnavailable desired ≤ Bounds.int32.high :=
  resolveMaxUnavailable_le_high plannable.desired_fits fun limit stated =>
    (admits_int32_iff.1 (plannable.limit_fits limit stated)).2

/-- The differences before the last one are numbers of 32 bits. -/
theorem Plannable.differences_fit (plannable : Plannable maxUnavailable desired ready) :
    Bounds.int32.admits (desired - resolveMaxUnavailable maxUnavailable desired) = true ∧
      Bounds.int32.admits (desired - ready) = true := by
  have positive := one_le_resolveMaxUnavailable maxUnavailable desired
  have bounded := plannable.resolve_le
  obtain ⟨some, desiredFits, nonnegative, readyFits, _⟩ := plannable
  rw [high_int32] at bounded desiredFits readyFits
  rw [admits_int32_iff, admits_int32_iff]
  omega

/-- There is a budget, and it is the exact one, as long as the last difference is a number of 32
bits; otherwise there is none. -/
theorem rolloutBudget_cases (plannable : Plannable maxUnavailable desired ready) :
    resolveMaxUnavailable maxUnavailable desired + ready ≤ desired + Bounds.int32.high ∧
        rolloutBudget maxUnavailable desired ready =
          .ok (exactBudget maxUnavailable desired ready) ∨
      desired + Bounds.int32.high < resolveMaxUnavailable maxUnavailable desired + ready ∧
        rolloutBudget maxUnavailable desired ready = .error .overflow := by
  have positive := one_le_resolveMaxUnavailable maxUnavailable desired
  have some := plannable.some
  have nonnegative := plannable.nonnegative
  unfold rolloutBudget exactBudget
  rw [high_int32, if_neg (by omega), if_neg (by omega)]
  generalize resolveMaxUnavailable maxUnavailable desired = unavailable at positive ⊢
  by_cases spent : ready ≤ desired - unavailable
  · refine Or.inl ⟨by omega, ?_⟩
    have none : max 0 (min desired (unavailable - (desired - ready))) = 0 := by omega
    rw [if_pos spent, none]
  by_cases fits : Bounds.int32.admits (unavailable - (desired - ready)) = true
  · have within := admits_int32_iff.1 fits
    exact Or.inl ⟨by omega, by rw [if_neg spent, if_pos fits, Int.min_comm]⟩
  · refine Or.inr ⟨?_, by rw [if_neg spent, if_neg fits]⟩
    rw [admits_int32_iff] at fits
    omega

/-- The exact budget is a number of the desired members; it is none when no more members are
ready than have to be, and it never falls when more members are ready. -/
theorem exactBudget_bounds (some : 1 ≤ desired) :
    (0 ≤ exactBudget maxUnavailable desired ready ∧
        exactBudget maxUnavailable desired ready ≤ desired) ∧
      (exactBudget maxUnavailable desired ready = 0 ↔
        ready ≤ desired - resolveMaxUnavailable maxUnavailable desired) ∧
      ∀ more, ready ≤ more →
        exactBudget maxUnavailable desired ready ≤ exactBudget maxUnavailable desired more := by
  unfold exactBudget
  refine ⟨by omega, by omega, fun more below => ?_⟩
  omega

/-- One member of one is desired and two are ready, while any number may be unavailable. -/
theorem plannable_surplus : Plannable (some (.number 2147483647)) 1 2 where
  some := by decide
  desired_fits := by decide
  nonnegative := by decide
  ready_fits := by decide
  limit_fits := by
    rintro limit ⟨⟩
    decide

/-- Where any number may be unavailable, one ready member too many leaves no budget. -/
theorem not_budgetsExact : ¬ BudgetsExact := by
  intro exact
  have answered := exact _ _ _ plannable_surplus
  have overflows : rolloutBudget (some (.number 2147483647)) 1 2 = .error .overflow := rfl
  rw [overflows] at answered
  cases answered

/-- A rollout that may be planned has its exact budget unless the members that may be unavailable
and the ready ones are together more than the largest number of 32 bits beyond the desired ones;
then the last difference overflows, the only one that can. -/
theorem rolloutBudget_eq_exact_iff (plannable : Plannable maxUnavailable desired ready) :
    (Bounds.int32.admits (desired - resolveMaxUnavailable maxUnavailable desired) = true ∧
      Bounds.int32.admits (desired - ready) = true) ∧
    (rolloutBudget maxUnavailable desired ready =
        .ok (exactBudget maxUnavailable desired ready) ↔
      resolveMaxUnavailable maxUnavailable desired + ready ≤ desired + Bounds.int32.high) ∧
    (rolloutBudget maxUnavailable desired ready = .error .overflow ↔
      desired + Bounds.int32.high < resolveMaxUnavailable maxUnavailable desired + ready) ∧
    (0 ≤ exactBudget maxUnavailable desired ready ∧
      exactBudget maxUnavailable desired ready ≤ desired) ∧
    (exactBudget maxUnavailable desired ready = 0 ↔
      ready ≤ desired - resolveMaxUnavailable maxUnavailable desired) ∧
    ∀ more, ready ≤ more →
      exactBudget maxUnavailable desired ready ≤ exactBudget maxUnavailable desired more := by
  refine ⟨plannable.differences_fit, ?_, ?_, exactBudget_bounds plannable.some⟩
  · rcases rolloutBudget_cases plannable with ⟨within, budgeted⟩ | ⟨beyond, overflows⟩
    · exact iff_of_true budgeted within
    · refine iff_of_false (fun budgeted => ?_) (by omega)
      rw [overflows] at budgeted
      cases budgeted
  · rcases rolloutBudget_cases plannable with ⟨within, budgeted⟩ | ⟨beyond, overflows⟩
    · refine iff_of_false (fun overflows => ?_) (by omega)
      rw [budgeted] at overflows
      cases overflows
    · exact iff_of_true overflows beyond

/-- Three of two members may be unavailable and four are ready: both may be taken down. -/
theorem rolloutBudget_surplus :
    Plannable (some (.number 3)) 2 4 ∧ rolloutBudget (some (.number 3)) 2 4 = .ok 2 := by
  have plannable : Plannable (some (.number 3)) 2 4 :=
    ⟨by decide, by decide, by decide, by decide, by rintro limit ⟨⟩; decide⟩
  have exact : exactBudget (some (.number 3)) 2 4 = 2 := rfl
  have budgeted := (rolloutBudget_eq_exact_iff plannable).2.1.2 (by decide)
  rw [exact] at budgeted
  exact ⟨plannable, budgeted⟩

end NodeFleet
