import NodeFleet.Rollout

/-!
# The rollout budget keeps a floor

A budget never takes more members down than are ready beyond the desired members
less those that may be unavailable.
-/

namespace NodeFleet

open Text

theorem high_int32 : Bounds.int32.high = 2147483647 := rfl

theorem admits_int32_iff {value : Int} :
    Bounds.int32.admits value = true ↔ -2147483648 ≤ value ∧ value ≤ 2147483647 := by
  rw [Bounds.admits, Bool.and_eq_true, decide_eq_true_eq, decide_eq_true_eq]
  rfl

theorem one_le_resolveMaxUnavailable (maxUnavailable : Option IntOrText) (desired : Int) :
    1 ≤ resolveMaxUnavailable maxUnavailable desired := by
  simp only [resolveMaxUnavailable]
  omega

theorem bmod_le_of_nonneg {value : Int} (nonnegative : 0 ≤ value) :
    value.bmod 4294967296 ≤ value := by
  simp only [Int.bmod_def]
  split <;> omega

theorem shareOf_le (desired percent : Int) : shareOf desired percent ≤ max desired 0 := by
  unfold shareOf
  exact Int.le_trans (bmod_le_of_nonneg (by omega)) (by omega)

/-- The members that may be unavailable are a 32-bit number when the desired
members and a stated number are. -/
theorem resolveMaxUnavailable_le_high {maxUnavailable : Option IntOrText} {desired : Int}
    (desiredFits : desired ≤ Bounds.int32.high)
    (limitFits : ∀ limit, maxUnavailable = some (.number limit) → limit ≤ Bounds.int32.high) :
    resolveMaxUnavailable maxUnavailable desired ≤ Bounds.int32.high := by
  have one : (1 : Int) ≤ Bounds.int32.high := by decide
  have zero : (0 : Int) ≤ Bounds.int32.high := by decide
  unfold resolveMaxUnavailable
  refine Int.max_le.2 ⟨?_, one⟩
  cases maxUnavailable with
  | none => exact one
  | some limit =>
      cases limit with
      | number value => exact limitFits value rfl
      | text value =>
          cases stated : percentage? value with
          | none => simpa [stated] using one
          | some percent =>
              have share := shareOf_le desired percent
              simp only [stated]
              omega

theorem rolloutBudget_eq_ok {maxUnavailable : Option IntOrText} {desired ready budget : Int}
    (allowed : rolloutBudget maxUnavailable desired ready = .ok budget) :
    1 ≤ desired ∧ 0 ≤ ready ∧
      budget = max 0 (min
        (ready - (desired - resolveMaxUnavailable maxUnavailable desired)) desired) := by
  simp only [rolloutBudget] at allowed
  split at allowed
  · cases allowed
  split at allowed
  · cases allowed
  split at allowed
  · obtain rfl := Except.ok.inj allowed
    omega
  split at allowed
  · obtain rfl := Except.ok.inj allowed
    omega
  · cases allowed

/-- A budget leaves as many members ready as were ready, or as many as are desired
less those that may be unavailable. -/
theorem le_ready_sub_rolloutBudget {maxUnavailable : Option IntOrText}
    {desired ready budget : Int}
    (allowed : rolloutBudget maxUnavailable desired ready = .ok budget) :
    min ready (desired - resolveMaxUnavailable maxUnavailable desired) ≤ ready - budget := by
  obtain ⟨_, _, rfl⟩ := rolloutBudget_eq_ok allowed
  omega

/-- There is a budget whenever some members are desired, no more are ready than
are desired, and all numbers are 32-bit. -/
theorem exists_rolloutBudget {maxUnavailable : Option IntOrText} {desired ready : Int}
    (some : 1 ≤ desired) (nonnegative : 0 ≤ ready) (within : ready ≤ desired)
    (desiredFits : desired ≤ Bounds.int32.high)
    (limitFits : ∀ limit, maxUnavailable = .some (.number limit) →
      limit ≤ Bounds.int32.high) :
    ∃ budget, rolloutBudget maxUnavailable desired ready = .ok budget := by
  have positive := one_le_resolveMaxUnavailable maxUnavailable desired
  have bounded := resolveMaxUnavailable_le_high desiredFits limitFits
  unfold rolloutBudget
  rw [if_neg (by omega), if_neg (by omega)]
  by_cases low : ready ≤ desired - resolveMaxUnavailable maxUnavailable desired
  · exact ⟨0, by simp only [if_pos low]⟩
  · have fits : Bounds.int32.admits
        (resolveMaxUnavailable maxUnavailable desired - (desired - ready)) = true := by
      rw [admits_int32_iff]
      rw [high_int32] at bounded desiredFits
      omega
    simp only [if_neg low, if_pos fits]
    exact ⟨_, rfl⟩

end NodeFleet
