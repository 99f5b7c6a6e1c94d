import NodeFleet.Text.Whole

/-!
# Numbers in decimal

A natural number that is written in decimal is read back, if it lies within the
bounds.
-/

namespace NodeFleet.Text

theorem digit?_eq_some {character : Char} (isDigit : character.isDigit = true) :
    digit? character = some (character.toNat - '0'.toNat) := by
  have bounds : '0' ≤ character ∧ character ≤ '9' := by
    simpa [Char.isDigit, Char.le_def] using isDigit
  simp only [digit?, if_pos bounds]

theorem le_ofDigitChars (digits : List Char) (value : Nat) :
    value ≤ Nat.ofDigitChars 10 digits value := by
  induction digits generalizing value with
  | nil => simp
  | cons digit digits inductionHypothesis =>
      rw [Nat.ofDigitChars_cons]
      have later := inductionHypothesis (10 * value + (digit.toNat - '0'.toNat))
      omega

theorem readUp_ofDigitChars {high : Int} {digits : List Char} {value : Nat}
    (allDigits : ∀ digit ∈ digits, digit.isDigit = true)
    (within : (Nat.ofDigitChars 10 digits value : Int) ≤ high) :
    readUp high value digits = .ok (Nat.ofDigitChars 10 digits value : Int) := by
  induction digits generalizing value with
  | nil => simp [readUp]
  | cons digit digits inductionHypothesis =>
      rw [Nat.ofDigitChars_cons] at within ⊢
      have next : (value : Int) * 10 + ((digit.toNat - '0'.toNat : Nat) : Int) =
          ((10 * value + (digit.toNat - '0'.toNat) : Nat) : Int) := by
        push_cast
        omega
      have below := le_ofDigitChars digits (10 * value + (digit.toNat - '0'.toNat))
      simp only [readUp, digit?_eq_some (allDigits digit List.mem_cons_self), next]
      rw [if_neg (by omega)]
      exact inductionHypothesis
        (fun other member => allDigits other (List.mem_cons_of_mem _ member))
        within

theorem readWhole_digits {bounds : Bounds} {digits : List Char} (filled : digits ≠ [])
    (allDigits : ∀ digit ∈ digits, digit.isDigit = true) :
    readWhole bounds digits = readUp bounds.high 0 digits := by
  unfold readWhole
  split
  · exact absurd rfl filled
  · exact absurd (allDigits '+' List.mem_cons_self) (by decide)
  · exact absurd (allDigits '-' List.mem_cons_self) (by decide)
  · exact absurd (allDigits '+' List.mem_cons_self) (by decide)
  · exact absurd (allDigits '-' List.mem_cons_self) (by decide)
  · rfl

/-- A natural number within the bounds is read back from its decimal form. -/
theorem readWhole_toString {bounds : Bounds} {value : Nat} (within : (value : Int) ≤ bounds.high) :
    readWhole bounds (toString (Int.ofNat value)).toList = .ok (value : Int) := by
  have text : (toString (Int.ofNat value)).toList = Nat.toDigits 10 value := Nat.toList_repr
  have allDigits : ∀ digit ∈ Nat.toDigits 10 value, digit.isDigit = true := fun digit member =>
    Nat.isDigit_of_mem_toDigits (by decide) (by decide) member
  rw [text, readWhole_digits Nat.toDigits_ne_nil allDigits]
  have reads : readUp bounds.high (0 : Nat) (Nat.toDigits 10 value) =
      .ok (Nat.ofDigitChars 10 (Nat.toDigits 10 value) 0 : Int) :=
    readUp_ofDigitChars allDigits (by simpa using within)
  simpa using reads

/-- Numbers with the same digits are the same. -/
theorem toDigits_injective {left right : Nat}
    (same : Nat.toDigits 10 left = Nat.toDigits 10 right) : left = right := by
  rw [← Nat.ofDigitChars_ten_toDigits (n := left), same, Nat.ofDigitChars_ten_toDigits]

/-! ## Numbers at the front of a text -/

section Runs

variable {kind : Char → Bool} {run rest : List Char}

/-- A run of characters of one kind that does not go on is all that is taken of this kind. -/
theorem takeWhile_run (inKind : ∀ character ∈ run, kind character = true)
    (stops : ∀ first ∈ rest.head?, kind first = false) : (run ++ rest).takeWhile kind = run := by
  rw [List.takeWhile_append_of_pos inKind]
  cases rest with
  | nil => rw [List.takeWhile_nil, List.append_nil]
  | cons first rest =>
      rw [List.takeWhile_cons_of_neg (by simp [stops first rfl]), List.append_nil]

theorem dropWhile_run (inKind : ∀ character ∈ run, kind character = true)
    (stops : ∀ first ∈ rest.head?, kind first = false) : (run ++ rest).dropWhile kind = rest := by
  rw [List.dropWhile_append_of_pos inKind]
  cases rest with
  | nil => rfl
  | cons first rest => rw [List.dropWhile_cons_of_neg (by simp [stops first rfl])]

end Runs

/-- A text does not go on with a digit. -/
def EndsDigits (rest : List Char) : Prop := ∀ next ∈ rest.head?, next.isDigit = false

theorem isDigit_of_mem_toDigits {value : Nat} {digit : Char}
    (member : digit ∈ Nat.toDigits 10 value) : digit.isDigit = true :=
  Nat.isDigit_of_mem_toDigits (by decide) (by decide) member

theorem isDigit_digitChar {value : Nat} (digit : value < 10) : value.digitChar.isDigit = true := by
  have isDigit : ∀ value < 10, value.digitChar.isDigit = true := by decide
  exact isDigit value digit

theorem takeWhile_toDigits_append {rest : List Char} (ends : EndsDigits rest) (value : Nat) :
    (Nat.toDigits 10 value ++ rest).takeWhile Char.isDigit = Nat.toDigits 10 value :=
  takeWhile_run (fun _ member => isDigit_of_mem_toDigits member) ends

theorem dash_notMem_toDigits {value : Nat} : '-' ∉ Nat.toDigits 10 value := fun member =>
  absurd (isDigit_of_mem_toDigits member) (by decide)

section Numbers

variable {rest left : List Char}

/-- The digits at the front of a text give the number and what follows it. -/
theorem toDigits_append_injective {first second : Nat} (ends : EndsDigits rest)
    (endsToo : EndsDigits left)
    (same : Nat.toDigits 10 first ++ rest = Nat.toDigits 10 second ++ left) :
    first = second ∧ rest = left := by
  have digits : Nat.toDigits 10 first = Nat.toDigits 10 second := by
    rw [← takeWhile_toDigits_append ends, same, takeWhile_toDigits_append endsToo]
  exact ⟨toDigits_injective digits, List.append_cancel_left (digits ▸ same)⟩

theorem toList_toString_negSucc (value : Nat) :
    (toString (Int.negSucc value)).toList = '-' :: Nat.toDigits 10 (value + 1) := by
  show ("-" ++ (value + 1).repr).toList = _
  rw [String.toList_append, Nat.toList_repr]
  rfl

/-- The first character of a number is a sign or a digit. -/
theorem exists_head_toString (value : Int) :
    ∃ first tail, (toString value).toList = first :: tail ∧
      (first = '-' ∨ first.isDigit = true) := by
  cases value with
  | ofNat value =>
      cases digits : Nat.toDigits 10 value with
      | nil => exact absurd digits Nat.toDigits_ne_nil
      | cons first tail =>
          have member : first ∈ Nat.toDigits 10 value := digits ▸ List.mem_cons_self
          exact ⟨first, tail, Nat.toList_repr.trans digits,
            Or.inr (isDigit_of_mem_toDigits member)⟩
  | negSucc value => exact ⟨'-', _, toList_toString_negSucc value, Or.inl rfl⟩

theorem ne_sign_append_of_toDigits {value : Nat} {tail : List Char} :
    Nat.toDigits 10 value ++ rest ≠ '-' :: tail := by
  intro same
  cases digits : Nat.toDigits 10 value with
  | nil => exact Nat.toDigits_ne_nil digits
  | cons first others =>
      have digit := isDigit_of_mem_toDigits (digits ▸ List.mem_cons_self : first ∈ _)
      rw [digits, List.cons_append] at same
      rw [(List.cons.inj same).1] at digit
      exact absurd digit (by decide)

/-- The number at the front of a text is read off in one way. -/
theorem toString_append_injective {first second : Int} (ends : EndsDigits rest)
    (endsToo : EndsDigits left)
    (same : (toString first).toList ++ rest = (toString second).toList ++ left) :
    first = second ∧ rest = left := by
  have digits : ∀ value : Nat, (toString (Int.ofNat value)).toList = Nat.toDigits 10 value :=
    fun value => Nat.toList_repr
  cases first with
  | ofNat first =>
      cases second with
      | ofNat second =>
          rw [digits, digits] at same
          obtain ⟨rfl, rest_eq⟩ := toDigits_append_injective ends endsToo same
          exact ⟨rfl, rest_eq⟩
      | negSucc second =>
          rw [digits, toList_toString_negSucc] at same
          exact absurd same ne_sign_append_of_toDigits
  | negSucc first =>
      cases second with
      | ofNat second =>
          rw [digits, toList_toString_negSucc] at same
          exact absurd same.symm ne_sign_append_of_toDigits
      | negSucc second =>
          rw [toList_toString_negSucc, toList_toString_negSucc] at same
          obtain ⟨next, rest_eq⟩ :=
            toDigits_append_injective ends endsToo (List.cons.inj same).2
          exact ⟨congrArg Int.negSucc (Nat.succ.inj next), rest_eq⟩

end Numbers

/-! ## Numbers padded to a width -/

section Padded

variable {width value : Nat}

theorem toList_padded (width value : Nat) :
    (padded width value).toList =
      List.replicate (width - (Nat.toDigits 10 value).length) '0' ++ Nat.toDigits 10 value := by
  simp [padded]

theorem length_padded (filled : 0 < width) (fits : value < Nat.pow 10 width) :
    (padded width value).toList.length = width := by
  have short := (Nat.length_toDigits_le_iff (by decide) filled).2 fits
  rw [toList_padded, List.length_append, List.length_replicate]
  omega

theorem isDigit_of_mem_padded {character : Char}
    (member : character ∈ (padded width value).toList) : character.isDigit = true := by
  rw [toList_padded] at member
  rcases List.mem_append.1 member with zero | digit
  · rw [List.eq_of_mem_replicate zero]
    rfl
  · exact Nat.isDigit_of_mem_toDigits (by decide) (by decide) digit

theorem ofDigitChars_padded (width value : Nat) :
    Nat.ofDigitChars 10 (padded width value).toList 0 = value := by
  rw [toList_padded, Nat.ofDigitChars_append, Nat.ofDigitChars_replicate_zero, Nat.mul_zero,
    Nat.ofDigitChars_ten_toDigits]

end Padded

end NodeFleet.Text
