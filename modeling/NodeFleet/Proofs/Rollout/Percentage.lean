import Mathlib.Data.List.Basic
import NodeFleet.Proofs.Rollout
import NodeFleet.Proofs.Text.Numeral

/-!
# The share that a percentage stands for

A percentage of the desired members is rounded down, and it is at least one member and at most
all of them.  It is taken as stated as long as it is a number of 64 bits; a larger one is not
read, and then a single member may be unavailable.
-/

namespace NodeFleet

open Text

namespace Text

variable {before body after : List Char}

theorem isBlank_eq_false_of_isDigit {character : Char} (isDigit : character.isDigit = true) :
    isBlank character = false := by
  have bounds : 48 ≤ character.toNat ∧ character.toNat ≤ 57 := by
    simpa [Char.isDigit, UInt32.le_iff_toNat_le] using isDigit
  rw [Bool.eq_false_iff]
  intro blank
  simp only [isBlank, Bool.or_eq_true, Bool.and_eq_true, decide_eq_true_eq, beq_iff_eq] at blank
  omega

/-- A text that neither starts nor ends with white space is what remains when it is trimmed
together with white space around it. -/
theorem trim_surrounded (filled : body ≠ [])
    (blankBefore : ∀ character ∈ before, isBlank character = true)
    (blankAfter : ∀ character ∈ after, isBlank character = true)
    (starts : ∀ first ∈ body.head?, isBlank first = false)
    (ends : ∀ last ∈ body.getLast?, isBlank last = false) :
    trim (before ++ (body ++ after)) = body := by
  have start : ∀ first ∈ (body ++ after).head?, isBlank first = false := by
    rw [List.head?_append_of_ne_nil _ filled]
    exact starts
  have finish : ∀ last ∈ body.reverse.head?, isBlank last = false := by
    rw [List.head?_reverse]
    exact ends
  have reversed : ∀ character ∈ after.reverse, isBlank character = true :=
    fun character member => blankAfter character (List.mem_reverse.1 member)
  rw [trim, dropWhile_run blankBefore start, List.reverse_append, dropWhile_run reversed finish,
    List.reverse_reverse]

theorem stripLast?_append (last : Char) (text : List Char) :
    stripLast? last (text ++ [last]) = some text := by
  rw [stripLast?, if_pos (List.getLast?_concat ..), List.dropLast_concat]

end Text

/-- Digits and a percent sign state a percentage, with any white space around either part. -/
inductive StatesPercentage : String → Nat → Prop
  | spelled {text : String} {before digits between after : List Char}
      (spelling : text.toList = before ++ (digits ++ between ++ ['%'] ++ after))
      (blankBefore : ∀ character ∈ before, isBlank character = true)
      (blankBetween : ∀ character ∈ between, isBlank character = true)
      (blankAfter : ∀ character ∈ after, isBlank character = true)
      (filled : digits ≠ [])
      (allDigits : ∀ digit ∈ digits, digit.isDigit = true) :
      StatesPercentage text (Nat.ofDigitChars 10 digits 0)

/-- The share of the desired members, rounded down: at least one and at most all of them. -/
def exactShare (desired : Int) (percent : Nat) : Int :=
  max 1 (min (max desired 0) (max desired 0 * percent / 100))

/-- Every percentage that is stated stands for its exact share. -/
def SharesExact : Prop :=
  ∀ text percent desired, StatesPercentage text percent → Bounds.int32.admits desired = true →
    resolveMaxUnavailable (some (.text text)) desired = exactShare desired percent

variable {text : String} {percent : Nat} {desired : Int}

/-- A percentage is read if it is a number of 64 bits. -/
theorem percentage?_eq_ite (states : StatesPercentage text percent) :
    percentage? text =
      if (percent : Int) ≤ Bounds.int64.high then some (percent : Int) else none := by
  obtain ⟨spelling, blankBefore, blankBetween, blankAfter, filled, allDigits⟩ := states
  rename_i before digits between after
  have digitsStart : ∀ first ∈ digits.head?, isBlank first = false := fun first head =>
    isBlank_eq_false_of_isDigit (allDigits first (List.mem_of_head? head))
  have digitsEnd : ∀ last ∈ digits.getLast?, isBlank last = false := fun last final =>
    isBlank_eq_false_of_isDigit (allDigits last (List.mem_of_getLast? final))
  have trimmed : trim text.toList = digits ++ between ++ ['%'] := by
    rw [spelling]
    refine trim_surrounded (by simp) blankBefore blankAfter ?_ ?_
    · rw [List.append_assoc, List.head?_append_of_ne_nil _ filled]
      exact digitsStart
    · rw [List.getLast?_concat]
      rintro last ⟨⟩
      decide
  have amount : trim (digits ++ between) = digits :=
    @trim_surrounded [] digits between filled (by simp) blankBetween digitsStart digitsEnd
  rw [percentage?, trimmed, stripLast?_append]
  simp only [amount, readWhole_digits filled allDigits]
  by_cases within : (Nat.ofDigitChars 10 digits 0 : Int) ≤ Bounds.int64.high
  · have read : readUp Bounds.int64.high 0 digits = .ok (Nat.ofDigitChars 10 digits 0 : Int) :=
      @readUp_ofDigitChars Bounds.int64.high digits 0 allDigits within
    simp only [read]
    rw [if_neg (by omega), if_pos within]
  · rw [if_neg within]
    cases read : readUp Bounds.int64.high 0 digits with
    | error fault => rfl
    | ok value =>
        obtain ⟨_, rfl, below⟩ :=
          (@readUp_eq_ok_iff Bounds.int64.high value digits 0 (by decide)).1 read
        exact absurd below within

/-! ## Exact arithmetic -/

/-- A share of 32-bit members is exact, also where the product stops at the bound of 64 bits. -/
theorem shareOf_eq {stated : Int} (fits : desired ≤ Bounds.int32.high) (nonnegative : 0 ≤ stated) :
    shareOf desired stated = min (max desired 0) (max desired 0 * stated / 100) := by
  have memberBounds : 0 ≤ max desired 0 ∧ max desired 0 ≤ 2147483647 := by
    have high : Bounds.int32.high = 2147483647 := rfl
    omega
  have positive : 0 ≤ max desired 0 * stated := Int.mul_nonneg memberBounds.1 nonnegative
  have low64 : Bounds.int64.low = -9223372036854775808 := rfl
  have high64 : Bounds.int64.high = 9223372036854775807 := rfl
  simp only [shareOf, low64, high64]
  generalize max desired 0 = members at memberBounds positive ⊢
  generalize members * stated = product at positive ⊢
  rw [Int.tdiv_eq_ediv_of_nonneg (by omega), Int.bmod_def]
  omega

theorem exactShare_mono {larger : Int} {more : Nat} (below : desired ≤ larger)
    (atMost : percent ≤ more) : exactShare desired percent ≤ exactShare larger more := by
  have members : max desired 0 ≤ max larger 0 := by omega
  have product : max desired 0 * (percent : Int) ≤ max larger 0 * (more : Int) :=
    Int.mul_le_mul members (Int.ofNat_le.2 atMost) (by omega) (by omega)
  have share := Int.ediv_le_ediv (by decide : (0 : Int) < 100) product
  unfold exactShare
  omega

/-- From a hundred percent on all the desired members are the share. -/
theorem exactShare_of_hundred_le (whole : 100 ≤ percent) :
    exactShare desired percent = max 1 desired := by
  have product : max desired 0 * 100 ≤ max desired 0 * (percent : Int) :=
    Int.mul_le_mul_of_nonneg_left (by omega) (by omega)
  have share := Int.le_ediv_of_mul_le (by decide : (0 : Int) < 100) product
  unfold exactShare
  omega

/-! ## The members that may be unavailable -/

theorem resolveMaxUnavailable_eq_exactShare (states : StatesPercentage text percent)
    (fits : desired ≤ Bounds.int32.high) (within : (percent : Int) ≤ Bounds.int64.high) :
    resolveMaxUnavailable (some (.text text)) desired = exactShare desired percent := by
  simp only [resolveMaxUnavailable, percentage?_eq_ite states, if_pos within,
    shareOf_eq fits (Int.natCast_nonneg percent), exactShare]
  omega

theorem resolveMaxUnavailable_eq_one (states : StatesPercentage text percent)
    (beyond : Bounds.int64.high < (percent : Int)) :
    resolveMaxUnavailable (some (.text text)) desired = 1 := by
  rw [resolveMaxUnavailable, percentage?_eq_ite states, if_neg (Int.not_le.2 beyond)]
  rfl

/-- A percentage beyond 64 bits. -/
theorem states_beyond : StatesPercentage "9223372036854775808%" 9223372036854775808 := by
  have spelling : "9223372036854775808%".toList =
      [] ++ ("9223372036854775808".toList ++ [] ++ ['%'] ++ []) := by decide
  have value : Nat.ofDigitChars 10 "9223372036854775808".toList 0 = 9223372036854775808 := by
    decide
  have allDigits : "9223372036854775808".toList.all Char.isDigit = true := by decide
  rw [← value]
  exact .spelled spelling (by simp) (by simp) (by simp) (by decide) (List.all_eq_true.1 allDigits)

/-- A percentage beyond 64 bits stands for one member and not for all of them. -/
theorem not_sharesExact : ¬ SharesExact := by
  intro exact
  have share := exact _ _ 10 states_beyond (by decide)
  rw [resolveMaxUnavailable_eq_one states_beyond (by decide),
    exactShare_of_hundred_le (by decide)] at share
  exact absurd share (by decide)

/-- A stated percentage stands for its exact share, unless it is beyond 64 bits and more than one
member is desired: such a percentage stands for one member.  The members that may be unavailable
never become fewer when more are desired, nor when the percentage grows within 64 bits, and from
a hundred percent on they are all the desired ones. -/
theorem resolveMaxUnavailable_eq_exactShare_iff (states : StatesPercentage text percent)
    (fits : Bounds.int32.admits desired = true) :
    (resolveMaxUnavailable (some (.text text)) desired = exactShare desired percent ↔
      (percent : Int) ≤ Bounds.int64.high ∨ desired ≤ 1) ∧
    (Bounds.int64.high < (percent : Int) →
      resolveMaxUnavailable (some (.text text)) desired = 1) ∧
    (∀ larger, desired ≤ larger → Bounds.int32.admits larger = true →
      resolveMaxUnavailable (some (.text text)) desired ≤
        resolveMaxUnavailable (some (.text text)) larger) ∧
    (∀ other more, StatesPercentage other more → percent ≤ more →
      (more : Int) ≤ Bounds.int64.high →
      resolveMaxUnavailable (some (.text text)) desired ≤
        resolveMaxUnavailable (some (.text other)) desired) ∧
    (100 ≤ percent → (percent : Int) ≤ Bounds.int64.high → 1 ≤ desired →
      resolveMaxUnavailable (some (.text text)) desired = desired) := by
  have below : desired ≤ Bounds.int32.high := (admits_int32_iff.1 fits).2
  refine ⟨?_, resolveMaxUnavailable_eq_one states, fun larger grows largerFits => ?_,
    fun other more statesMore atMost within => ?_, fun whole within some => ?_⟩
  · by_cases within : (percent : Int) ≤ Bounds.int64.high
    · exact iff_of_true (resolveMaxUnavailable_eq_exactShare states below within) (.inl within)
    · have whole : 100 ≤ percent := by
        have high64 : Bounds.int64.high = 9223372036854775807 := rfl
        omega
      rw [resolveMaxUnavailable_eq_one states (by omega), exactShare_of_hundred_le whole]
      omega
  · by_cases within : (percent : Int) ≤ Bounds.int64.high
    · rw [resolveMaxUnavailable_eq_exactShare states below within,
        resolveMaxUnavailable_eq_exactShare states (admits_int32_iff.1 largerFits).2 within]
      exact exactShare_mono grows (Nat.le_refl percent)
    · refine Int.le_of_eq ?_
      rw [resolveMaxUnavailable_eq_one states (by omega),
        resolveMaxUnavailable_eq_one states (by omega)]
  · rw [resolveMaxUnavailable_eq_exactShare states below (by omega),
      resolveMaxUnavailable_eq_exactShare statesMore below within]
    exact exactShare_mono (Int.le_refl desired) atMost
  · rw [resolveMaxUnavailable_eq_exactShare states below within, exactShare_of_hundred_le whole]
    omega

/-- A quarter of ten members, with a blank before the percent sign, is two members. -/
theorem resolveMaxUnavailable_quarter :
    StatesPercentage "25 %" 25 ∧ Bounds.int32.admits 10 = true ∧
      resolveMaxUnavailable (some (.text "25 %")) 10 = 2 := by
  have spelling : "25 %".toList = [] ++ (['2', '5'] ++ [' '] ++ ['%'] ++ []) := by decide
  have blank : [' '].all isBlank = true := by decide
  have allDigits : ['2', '5'].all Char.isDigit = true := by decide
  have states : StatesPercentage "25 %" 25 := .spelled spelling (by simp)
    (List.all_eq_true.1 blank) (by simp) (by decide) (List.all_eq_true.1 allDigits)
  have fits : Bounds.int32.admits 10 = true := by decide
  exact ⟨states, fits, (resolveMaxUnavailable_eq_exactShare_iff states fits).1.2 (.inl (by decide))⟩

end NodeFleet
