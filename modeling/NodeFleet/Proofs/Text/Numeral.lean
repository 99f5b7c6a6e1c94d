import NodeFleet.Proofs.Text.Decimal

/-!
# What a numeral denotes

A numeral is an optional sign and at least one decimal digit.  A text is read as a whole number
exactly if it is a numeral whose number lies within the bounds.
-/

namespace NodeFleet.Text

/-- A text is a numeral that stands for a number. -/
inductive Denotes : List Char → Int → Prop
  | plain {digits : List Char} (filled : digits ≠ [])
      (allDigits : ∀ digit ∈ digits, digit.isDigit = true) :
      Denotes digits (Nat.ofDigitChars 10 digits 0)
  | positive {digits : List Char} (filled : digits ≠ [])
      (allDigits : ∀ digit ∈ digits, digit.isDigit = true) :
      Denotes ('+' :: digits) (Nat.ofDigitChars 10 digits 0)
  | negative {digits : List Char} (filled : digits ≠ [])
      (allDigits : ∀ digit ∈ digits, digit.isDigit = true) :
      Denotes ('-' :: digits) (-(Nat.ofDigitChars 10 digits 0 : Int))

variable {bounds : Bounds} {high low value : Int} {text digits : List Char} {start : Nat}

theorem digit?_eq_none {character : Char} (other : character.isDigit = false) :
    digit? character = none := by
  have outside : ¬ ('0' ≤ character ∧ character ≤ '9') := by
    simpa [Char.isDigit, Char.le_def] using other
  simp only [digit?, if_neg outside]

/-- The digit that comes next moves the number up by one place. -/
theorem next_eq (start digit : Nat) :
    (start : Int) * 10 + (digit : Int) = ((10 * start + digit : Nat) : Int) := by
  push_cast
  omega

/-- Reading upwards gives the number of all the digits, unless that is too large. -/
theorem readUp_eq_ok_iff (below : (start : Int) ≤ high) :
    readUp high start digits = .ok value ↔
      (∀ digit ∈ digits, digit.isDigit = true) ∧ value = Nat.ofDigitChars 10 digits start ∧
        value ≤ high := by
  induction digits generalizing start with
  | nil =>
      simp only [readUp, Except.ok.injEq, Nat.ofDigitChars_nil]
      constructor
      · rintro rfl
        exact ⟨by simp, rfl, below⟩
      · rintro ⟨_, rfl, _⟩
        rfl
  | cons digit digits inductionHypothesis =>
      cases isDigit : digit.isDigit with
      | false => simp [readUp, digit?_eq_none isDigit, isDigit]
      | true =>
          have later := le_ofDigitChars digits (10 * start + (digit.toNat - '0'.toNat))
          rw [readUp, digit?_eq_some isDigit, Nat.ofDigitChars_cons]
          simp only [next_eq, List.forall_mem_cons, isDigit, true_and]
          split
          · simp only [reduceCtorEq, false_iff]
            rintro ⟨_, rfl, within⟩
            omega
          · exact inductionHypothesis (by omega)

/-- Reading downwards gives the number below zero of all the digits, unless that is too small. -/
theorem readDown_eq_ok_iff (above : low ≤ -(start : Int)) :
    readDown low (-(start : Int)) digits = .ok value ↔
      (∀ digit ∈ digits, digit.isDigit = true) ∧
        value = -(Nat.ofDigitChars 10 digits start : Int) ∧ low ≤ value := by
  induction digits generalizing start with
  | nil =>
      simp only [readDown, Except.ok.injEq, Nat.ofDigitChars_nil]
      constructor
      · rintro rfl
        exact ⟨by simp, rfl, above⟩
      · rintro ⟨_, rfl, _⟩
        rfl
  | cons digit digits inductionHypothesis =>
      cases isDigit : digit.isDigit with
      | false => simp [readDown, digit?_eq_none isDigit, isDigit]
      | true =>
          have later := le_ofDigitChars digits (10 * start + (digit.toNat - '0'.toNat))
          have next : -(start : Int) * 10 - ((digit.toNat - '0'.toNat : Nat) : Int) =
              -((10 * start + (digit.toNat - '0'.toNat) : Nat) : Int) := by
            push_cast
            omega
          rw [readDown, digit?_eq_some isDigit, Nat.ofDigitChars_cons]
          simp only [next, List.forall_mem_cons, isDigit, true_and]
          split
          · simp only [reduceCtorEq, false_iff]
            rintro ⟨_, rfl, within⟩
            omega
          · exact inductionHypothesis (by omega)

/-- A text without a sign denotes what its digits say. -/
theorem denotes_iff_of_unsigned (noPlus : text.head? ≠ some '+') (noMinus : text.head? ≠ some '-') :
    Denotes text value ↔ text ≠ [] ∧ (∀ digit ∈ text, digit.isDigit = true) ∧
      value = Nat.ofDigitChars 10 text 0 := by
  constructor
  · intro denotes
    cases denotes with
    | plain filled allDigits => exact ⟨filled, allDigits, rfl⟩
    | positive => exact absurd rfl noPlus
    | negative => exact absurd rfl noMinus
  · rintro ⟨filled, allDigits, rfl⟩
    exact .plain filled allDigits

theorem denotes_plus_iff : Denotes ('+' :: digits) value ↔
    digits ≠ [] ∧ (∀ digit ∈ digits, digit.isDigit = true) ∧
      value = Nat.ofDigitChars 10 digits 0 := by
  constructor
  · intro denotes
    cases denotes with
    | plain filled allDigits => exact absurd (allDigits '+' List.mem_cons_self) (by decide)
    | positive filled allDigits => exact ⟨filled, allDigits, rfl⟩
  · rintro ⟨filled, allDigits, rfl⟩
    exact .positive filled allDigits

theorem denotes_minus_iff : Denotes ('-' :: digits) value ↔
    digits ≠ [] ∧ (∀ digit ∈ digits, digit.isDigit = true) ∧
      value = -(Nat.ofDigitChars 10 digits 0 : Int) := by
  constructor
  · intro denotes
    cases denotes with
    | plain filled allDigits => exact absurd (allDigits '-' List.mem_cons_self) (by decide)
    | negative filled allDigits => exact ⟨filled, allDigits, rfl⟩
  · rintro ⟨filled, allDigits, rfl⟩
    exact .negative filled allDigits

/-- A number on both sides of zero is read exactly from the numerals that denote it, if it lies
within the bounds. -/
theorem readWhole_eq_ok_iff (negative : bounds.low < 0) (positive : 0 ≤ bounds.high) :
    readWhole bounds text = .ok value ↔ Denotes text value ∧ bounds.admits value = true := by
  have up : ∀ digits : List Char, readUp bounds.high 0 digits = .ok value ↔
      (∀ digit ∈ digits, digit.isDigit = true) ∧ value = Nat.ofDigitChars 10 digits 0 ∧
        value ≤ bounds.high :=
    fun digits => @readUp_eq_ok_iff bounds.high value digits 0 positive
  have down : ∀ digits : List Char, readDown bounds.low 0 digits = .ok value ↔
      (∀ digit ∈ digits, digit.isDigit = true) ∧
        value = -(Nat.ofDigitChars 10 digits 0 : Int) ∧ bounds.low ≤ value :=
    fun digits => @readDown_eq_ok_iff bounds.low value digits 0 (by omega)
  simp only [Bounds.admits, Bool.and_eq_true, decide_eq_true_eq]
  unfold readWhole
  split
  · rw [denotes_iff_of_unsigned (by decide) (by decide)]
    simp
  · simp [denotes_plus_iff]
  · simp [denotes_minus_iff]
  · rename_i digits filled
    rw [up, denotes_plus_iff]
    constructor
    · rintro ⟨allDigits, rfl, within⟩
      exact ⟨⟨fun none => filled (by rw [none]), allDigits, rfl⟩, by omega, within⟩
    · rintro ⟨⟨_, allDigits, rfl⟩, _, within⟩
      exact ⟨allDigits, rfl, within⟩
  · rename_i digits filled
    rw [if_pos negative, down, denotes_minus_iff]
    constructor
    · rintro ⟨allDigits, rfl, within⟩
      exact ⟨⟨fun none => filled (by rw [none]), allDigits, rfl⟩, within, by omega⟩
    · rintro ⟨⟨_, allDigits, rfl⟩, within, _⟩
      exact ⟨allDigits, rfl, within⟩
  · rename_i filled _ _ unsignedPlus unsignedMinus
    have noPlus : text.head? ≠ some '+' := fun head => by
      obtain ⟨digits, rfl⟩ := List.head?_eq_some_iff.1 head
      exact unsignedPlus digits rfl
    have noMinus : text.head? ≠ some '-' := fun head => by
      obtain ⟨digits, rfl⟩ := List.head?_eq_some_iff.1 head
      exact unsignedMinus digits rfl
    rw [up, denotes_iff_of_unsigned noPlus noMinus]
    constructor
    · rintro ⟨allDigits, rfl, within⟩
      exact ⟨⟨filled, allDigits, rfl⟩, by omega, within⟩
    · rintro ⟨⟨_, allDigits, rfl⟩, _, within⟩
      exact ⟨allDigits, rfl, within⟩

end NodeFleet.Text
