import NodeFleet.Proofs.Text.Cutting
import NodeFleet.Proofs.Text.Numeral

/-!
# Zeros before numbers

The numbers of a text may have zeros before them.  Without these zeros a text is cut at the same
places, and its whole numbers are read as the same ones.
-/

namespace NodeFleet.Text

def startsDigit (text : List Char) : Bool := text.head?.any Char.isDigit

/-- A text without the zeros before its numbers.  Within a number a zero counts. -/
def unpad (within : Bool) : List Char → List Char
  | [] => []
  | character :: rest =>
      if within = false ∧ character = '0' ∧ startsDigit rest = true then unpad false rest
      else character :: unpad character.isDigit rest

section Padding

variable {within : Bool} {character separator : Char} {text rest before after : List Char}
  {kind : Char → Bool} {bounds : Bounds} {high value : Int}

theorem unpad_cons_of_not_isDigit (other : character.isDigit = false) :
    unpad within (character :: rest) = character :: unpad false rest := by
  have kept : ¬ (within = false ∧ character = '0' ∧ startsDigit rest = true) := by
    rintro ⟨_, rfl, _⟩
    exact absurd other (by decide)
  rw [unpad, if_neg kept, other]

theorem startsDigit_unpad (within : Bool) (text : List Char) :
    startsDigit (unpad within text) = startsDigit text := by
  induction within, text using unpad.induct with
  | case1 => rfl
  | case2 within character rest skipped inductionHypothesis =>
      rw [unpad, if_pos skipped, inductionHypothesis, skipped.2.2, skipped.2.1]
      rfl
  | case3 within character rest kept => rw [unpad, if_neg kept]; rfl

/-- Two texts that go on alike keep or lose a zero before them alike. -/
theorem unpad_cons_congr (alike : startsDigit rest = startsDigit after) :
    unpad within (character :: rest) = unpad false rest ∧
        unpad within (character :: after) = unpad false after ∨
      unpad within (character :: rest) = character :: unpad character.isDigit rest ∧
        unpad within (character :: after) = character :: unpad character.isDigit after := by
  by_cases skipped : within = false ∧ character = '0' ∧ startsDigit rest = true
  · exact Or.inl ⟨by rw [unpad, if_pos skipped], by rw [unpad, if_pos (alike ▸ skipped)]⟩
  · exact Or.inr ⟨by rw [unpad, if_neg skipped], by rw [unpad, if_neg (alike ▸ skipped)]⟩

/-- Only digits are lost. -/
theorem mem_unpad_iff (other : character.isDigit = false) :
    character ∈ unpad within text ↔ character ∈ text := by
  induction within, text using unpad.induct with
  | case1 => rfl
  | case2 within first rest skipped inductionHypothesis =>
      have differs : character ≠ first := by
        rintro rfl
        rw [skipped.2.1] at other
        exact absurd other (by decide)
      rw [unpad, if_pos skipped, inductionHypothesis, List.mem_cons, or_iff_right differs]
  | case3 within first rest kept inductionHypothesis =>
      rw [unpad, if_neg kept, List.mem_cons, List.mem_cons, inductionHypothesis]

theorem unpad_eq_nil_iff : unpad within text = [] ↔ text = [] := by
  cases text with
  | nil => rfl
  | cons character rest =>
      cases isDigit : character.isDigit with
      | false => simp [unpad_cons_of_not_isDigit isDigit]
      | true =>
          have starts := startsDigit_unpad within (character :: rest)
          refine iff_of_false (fun none => ?_) (List.cons_ne_nil _ _)
          simp [none, startsDigit, isDigit] at starts

theorem length_unpad_le (within : Bool) (text : List Char) :
    (unpad within text).length ≤ text.length := by
  induction within, text using unpad.induct with
  | case1 => exact Nat.le_refl _
  | case2 within character rest skipped inductionHypothesis =>
      rw [unpad, if_pos skipped]
      exact Nat.le_succ_of_le inductionHypothesis
  | case3 within character rest kept inductionHypothesis =>
      rw [unpad, if_neg kept]
      exact Nat.succ_le_succ inductionHypothesis

/-- What a text starts with is written in one way, unless it is a digit. -/
theorem head?_unpad_eq_some_iff (other : character.isDigit = false) :
    (unpad within text).head? = some character ↔ text.head? = some character := by
  cases text with
  | nil => rfl
  | cons first rest =>
      cases isDigit : first.isDigit with
      | false => rw [unpad_cons_of_not_isDigit isDigit, List.head?_cons, List.head?_cons]
      | true =>
          have starts := startsDigit_unpad within (first :: rest)
          refine iff_of_false (fun same => ?_) fun same => ?_
          · simp [startsDigit, same, isDigit, other] at starts
          · rw [Option.some.inj same, other] at isDigit
            cases isDigit

theorem unpad_eq_singleton_iff (other : character.isDigit = false) :
    unpad false text = [character] ↔ text = [character] := by
  cases text with
  | nil => rfl
  | cons first rest =>
      have head : (unpad false (first :: rest)).head? = some character ↔ first = character :=
        (head?_unpad_eq_some_iff other).trans Option.some_inj
      constructor
      · intro same
        obtain rfl := head.1 (congrArg List.head? same)
        rw [unpad_cons_of_not_isDigit other, List.cons_eq_cons, unpad_eq_nil_iff] at same
        rw [same.2]
      · intro same
        rw [same, unpad_cons_of_not_isDigit other]
        rfl

/-! ## Cutting -/

theorem unpad_append_cons (other : separator.isDigit = false) :
    unpad within (before ++ separator :: after) =
      unpad within before ++ separator :: unpad false after := by
  induction before generalizing within with
  | nil => exact unpad_cons_of_not_isDigit other
  | cons character before inductionHypothesis =>
      have alike : startsDigit (before ++ separator :: after) = startsDigit before := by
        cases before <;> simp [startsDigit, other]
      rw [List.cons_append]
      rcases unpad_cons_congr alike with ⟨skipped, skippedToo⟩ | ⟨kept, keptToo⟩
      · rw [skipped, skippedToo, inductionHypothesis]
      · rw [kept, keptToo, inductionHypothesis, List.cons_append]

theorem unpad_joinWith (other : separator.isDigit = false) (parts : List (List Char)) :
    unpad false (joinWith [separator] parts) = joinWith [separator] (parts.map (unpad false)) := by
  induction parts with
  | nil => rfl
  | cons part parts inductionHypothesis =>
      cases parts with
      | nil => rfl
      | cons next parts =>
          simp only [List.map_cons, joinWith, List.append_assoc, List.singleton_append] at *
          rw [unpad_append_cons other, inductionHypothesis]

theorem splitAt_unpad (other : separator.isDigit = false) (text : List Char) :
    splitAt separator (unpad false text) = (splitAt separator text).map (unpad false) := by
  have joined := unpad_joinWith other (splitAt separator text)
  rw [joinWith_splitAt] at joined
  rw [joined, splitAt_joinWith]
  · simp [splitAt_ne_nil]
  · intro part member
    obtain ⟨whole, inText, rfl⟩ := List.mem_map.1 member
    rw [mem_unpad_iff other]
    exact notMem_of_mem_splitAt inText

theorem splitFirst?_unpad (other : separator.isDigit = false) (text : List Char) :
    splitFirst? separator (unpad within text) =
      (splitFirst? separator text).map
        fun parts => (unpad within parts.1, unpad false parts.2) := by
  by_cases member : separator ∈ text
  · obtain ⟨before, after, rfl, clean⟩ := List.eq_append_cons_of_mem member
    rw [unpad_append_cons other, splitFirst?_append clean,
      splitFirst?_append fun inUnpadded => clean ((mem_unpad_iff other).1 inUnpadded)]
    rfl
  · rw [splitFirst?_eq_none member,
      splitFirst?_eq_none fun inUnpadded => member ((mem_unpad_iff other).1 inUnpadded)]
    rfl

/-! ## Runs of characters -/

theorem takeWhile_isDigit_unpad (within : Bool) (text : List Char) :
    (unpad within text).takeWhile Char.isDigit = unpad within (text.takeWhile Char.isDigit) := by
  induction text generalizing within with
  | nil => rfl
  | cons character text inductionHypothesis =>
      cases isDigit : character.isDigit with
      | false =>
          rw [unpad_cons_of_not_isDigit isDigit, List.takeWhile_cons_of_neg (by simp [isDigit]),
            List.takeWhile_cons_of_neg (by simp [isDigit])]
          rfl
      | true =>
          have alike : startsDigit text = startsDigit (text.takeWhile Char.isDigit) := by
            cases text with
            | nil => rfl
            | cons next text => cases nextDigit : next.isDigit <;> simp [startsDigit, nextDigit]
          rw [List.takeWhile_cons_of_pos isDigit]
          rcases unpad_cons_congr alike with ⟨skipped, skippedToo⟩ | ⟨kept, keptToo⟩
          · rw [skipped, skippedToo, inductionHypothesis]
          · rw [kept, keptToo, List.takeWhile_cons_of_pos isDigit, inductionHypothesis]

theorem dropWhile_isDigit_unpad (within : Bool) (text : List Char) :
    (unpad within text).dropWhile Char.isDigit = unpad false (text.dropWhile Char.isDigit) := by
  induction within, text using unpad.induct with
  | case1 => rfl
  | case2 within character rest skipped inductionHypothesis =>
      rw [unpad, if_pos skipped, inductionHypothesis, skipped.2.1]
      rfl
  | case3 within character rest kept inductionHypothesis =>
      cases isDigit : character.isDigit with
      | false =>
          rw [unpad_cons_of_not_isDigit isDigit, List.dropWhile_cons_of_neg (by simp [isDigit]),
            List.dropWhile_cons_of_neg (by simp [isDigit]), unpad_cons_of_not_isDigit isDigit]
      | true =>
          rw [unpad, if_neg kept, List.dropWhile_cons_of_pos isDigit,
            List.dropWhile_cons_of_pos isDigit, inductionHypothesis]

/-- A run of characters that are no digits is written in one way. -/
theorem takeWhile_unpad (digitless : ∀ character, character.isDigit = true → kind character = false)
    (within : Bool) (text : List Char) :
    (unpad within text).takeWhile kind = text.takeWhile kind := by
  induction within, text using unpad.induct with
  | case1 => rfl
  | case2 within character rest skipped inductionHypothesis =>
      obtain ⟨_, rfl, starts⟩ := id skipped
      have none : rest.takeWhile kind = [] := by
        cases rest with
        | nil => rfl
        | cons next rest => exact List.takeWhile_cons_of_neg (by simp [digitless next starts])
      rw [unpad, if_pos skipped, inductionHypothesis, none,
        List.takeWhile_cons_of_neg (by simp [digitless '0' rfl])]
  | case3 within character rest kept inductionHypothesis =>
      rw [unpad, if_neg kept, List.takeWhile_cons, List.takeWhile_cons, inductionHypothesis]

theorem dropWhile_unpad (digitless : ∀ character, character.isDigit = true → kind character = false)
    (text : List Char) :
    (unpad false text).dropWhile kind = unpad false (text.dropWhile kind) := by
  induction text with
  | nil => rfl
  | cons character text inductionHypothesis =>
      cases inKind : kind character with
      | true =>
          have other : character.isDigit = false :=
            Bool.eq_false_iff.2 fun isDigit => by simp [digitless character isDigit] at inKind
          rw [unpad_cons_of_not_isDigit other, List.dropWhile_cons_of_pos inKind,
            List.dropWhile_cons_of_pos inKind, inductionHypothesis]
      | false =>
          have none := takeWhile_unpad digitless false (character :: text)
          rw [List.takeWhile_cons_of_neg (by simp [inKind])] at none
          have whole := (unpad false (character :: text)).takeWhile_append_dropWhile (p := kind)
          rw [List.dropWhile_cons_of_neg (by simp [inKind])]
          rwa [none] at whole

/-! ## Whole numbers -/

theorem readUp_unpad (positive : 0 ≤ high) (fresh : within = false → value = 0) :
    readUp high value (unpad within text) = readUp high value text := by
  induction within, text using unpad.induct generalizing value with
  | case1 => rfl
  | case2 within character rest skipped inductionHypothesis =>
      obtain rfl := fresh skipped.1
      rw [unpad, if_pos skipped, inductionHypothesis fun _ => rfl, skipped.2.1, readUp]
      simp [digit?, Int.not_lt.2 positive]
  | case3 within character rest kept inductionHypothesis =>
      rw [unpad, if_neg kept, readUp, readUp]
      cases isDigit : character.isDigit with
      | false => simp [digit?_eq_none isDigit]
      | true => 
          rw [isDigit] at inductionHypothesis
          simp [digit?_eq_some isDigit, inductionHypothesis]

theorem readWhole_of_startsDigit (starts : startsDigit text = true) :
    readWhole bounds text = readUp bounds.high 0 text := by
  unfold readWhole
  split <;> first | rfl | cases starts

theorem readWhole_plus (filled : text ≠ []) :
    readWhole bounds ('+' :: text) = readUp bounds.high 0 text := by
  cases text with
  | nil => exact absurd rfl filled
  | cons first rest => rfl

/-- A kind of numbers without a minus sign takes no other sign than a plus sign. -/
theorem readWhole_sign (unsigned : bounds.low = 0) (other : character.isDigit = false)
    (noPlus : character ≠ '+') : readWhole bounds (character :: text) = .error .invalidDigit := by
  unfold readWhole
  split <;> simp_all [readUp, digit?_eq_none]

/-- A number of a kind without a minus sign is read from any spelling. -/
theorem readWhole_unpad (unsigned : bounds.low = 0) (positive : 0 ≤ bounds.high)
    (text : List Char) : readWhole bounds (unpad false text) = readWhole bounds text := by
  have up : ∀ rest, readUp bounds.high 0 (unpad false rest) = readUp bounds.high 0 rest :=
    fun rest => readUp_unpad positive fun _ => rfl
  cases text with
  | nil => rfl
  | cons first rest =>
      cases isDigit : first.isDigit with
      | true =>
          have starts : startsDigit (first :: rest) = true := isDigit
          rw [readWhole_of_startsDigit starts, ← up]
          exact readWhole_of_startsDigit ((startsDigit_unpad false _).trans starts)
      | false =>
          rw [unpad_cons_of_not_isDigit isDigit]
          by_cases plus : first = '+'
          · subst plus
            by_cases none : rest = []
            · rw [none]
              rfl
            · rw [readWhole_plus none,
                readWhole_plus fun gone => none (unpad_eq_nil_iff.1 gone), up]
          · rw [readWhole_sign unsigned isDigit plus, readWhole_sign unsigned isDigit plus]

end Padding

end NodeFleet.Text
