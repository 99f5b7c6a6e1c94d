import NodeFleet.Proofs.Cron.Weekdays

/-!
# The spelling of numbers in a schedule

The grammar of schedules reads numbers whatever zeros stand before them.  The weekdays are shifted
before that, and there a range to Sunday is told by the text of its end, so that it matters how
this number is spelled.
-/

namespace NodeFleet.Cron

open Schedule Text

/-! ## The readers of the grammar -/

/-- A reader reads the same with and without the zeros before the numbers of a text. -/
def ReadsUnpadded {α : Type} (read : List Char → Option (α × List Char)) : Prop :=
  ∀ text, read (unpad false text) = (read text).map fun taken => (taken.1, unpad false taken.2)

section Readers

variable {α β γ : Type} {text : List Char} {mark : Char}
  {first second : List Char → Option (α × List Char)}
  {next : List Char → Option (β × List Char)}

theorem ReadsUnpadded.checked (reads : ReadsUnpadded first) (check : α → Option β) :
    ReadsUnpadded fun text => do
      let (value, rest) ← first text
      return (← check value, rest) := by
  intro text
  dsimp only
  rw [reads text]
  cases first text with
  | none => rfl
  | some taken => cases checked : check taken.1 <;> simp [checked]

theorem ReadsUnpadded.map (reads : ReadsUnpadded first) (make : α → β) :
    ReadsUnpadded fun text => do
      let (value, rest) ← first text
      return (make value, rest) :=
  reads.checked fun value => some (make value)

theorem ReadsUnpadded.or (reads : ReadsUnpadded first) (readsElse : ReadsUnpadded second) :
    ReadsUnpadded fun text => (first text).or (second text) := by
  intro text
  dsimp only
  rw [reads text, readsElse text]
  cases first text <;> rfl

theorem readMark?_eq_none_of_startsDigit (other : mark.isDigit = false)
    (starts : startsDigit text = true) : readMark? mark text = none := by
  cases text with
  | nil => rfl
  | cons first rest =>
      have differs : first ≠ mark := by
        rintro rfl
        exact Bool.false_ne_true (other.symm.trans starts)
      rw [readMark?, if_neg differs]

theorem readMark?_unpad (other : mark.isDigit = false) (text : List Char) :
    readMark? mark (unpad false text) = (readMark? mark text).map (unpad false) := by
  cases starts : startsDigit text with
  | true =>
      rw [readMark?_eq_none_of_startsDigit other starts, readMark?_eq_none_of_startsDigit other
        ((startsDigit_unpad false text).trans starts)]
      rfl
  | false =>
      cases text with
      | nil => rfl
      | cons first rest =>
          rw [unpad_cons_of_not_isDigit starts, readMark?, readMark?]
          split <;> rfl

/-- Two readers with a mark between them. -/
theorem ReadsUnpadded.marked (reads : ReadsUnpadded first) (other : mark.isDigit = false)
    (readsNext : ReadsUnpadded next) (make : α → β → γ) :
    ReadsUnpadded fun text => do
      let (value, rest) ← first text
      let (other, rest) ← next (← readMark? mark rest)
      return (make value other, rest) := by
  intro text
  dsimp only
  rw [reads text]
  cases first text with
  | none => rfl
  | some taken =>
      simp only [Option.map_some, Option.bind_eq_bind, Option.bind_some, readMark?_unpad other]
      cases readMark? mark taken.2 with
      | none => rfl
      | some rest =>
          simp only [Option.map_some, Option.bind_some, readsNext rest]
          cases next rest <;> rfl

theorem skipGaps_unpad (text : List Char) :
    skipGaps (unpad false text) = unpad false (skipGaps text) :=
  dropWhile_unpad (fun _ => isGap_of_isDigit) text

theorem readsUnpadded_readNumber? : ReadsUnpadded readNumber? := by
  intro text
  unfold readNumber?
  simp only [skipGaps_unpad, takeWhile_isDigit_unpad, dropWhile_isDigit_unpad,
    @readWhole_unpad .word32 rfl (by decide), List.isEmpty_iff, unpad_eq_nil_iff]
  split
  · rfl
  · cases readWhole .word32 ((skipGaps text).takeWhile Char.isDigit) <;> rfl

theorem readsUnpadded_readName? : ReadsUnpadded readName? := by
  intro text
  have digitless : ∀ character : Char, character.isDigit = true → character.isAlpha = false :=
    fun _ => isAlpha_of_isDigit
  unfold readName?
  simp only [skipGaps_unpad, takeWhile_unpad digitless, dropWhile_unpad digitless]
  split <;> rfl

theorem readAll?_eq_none_of_startsDigit {questionMark : Bool} (starts : startsDigit text = true) :
    readAll? questionMark text = none := by
  unfold readAll?
  split <;> first | rfl | cases starts

theorem readsUnpadded_readAll? (questionMark : Bool) : ReadsUnpadded (readAll? questionMark) := by
  intro text
  cases starts : startsDigit text with
  | true =>
      rw [readAll?_eq_none_of_startsDigit starts,
        readAll?_eq_none_of_startsDigit ((startsDigit_unpad false text).trans starts)]
      rfl
  | false =>
      cases text with
      | nil => rfl
      | cons first rest =>
          rw [unpad_cons_of_not_isDigit starts, readAll?_cons, readAll?_cons]
          split <;> rfl

theorem readsUnpadded_readSpan? (questionMark : Bool) : ReadsUnpadded (readSpan? questionMark) :=
  (readsUnpadded_readAll? questionMark).or
    ((readsUnpadded_readNumber?.marked rfl readsUnpadded_readNumber? Span.range).or
      ((readsUnpadded_readNumber?.map Span.single).or
        (readsUnpadded_readName?.marked rfl readsUnpadded_readName? Span.namedRange)))

theorem readsUnpadded_readItem? (questionMark : Bool) : ReadsUnpadded (readItem? questionMark) :=
  ((readsUnpadded_readSpan? questionMark).marked rfl readsUnpadded_readNumber? Item.stepped).or
    (((readsUnpadded_readSpan? questionMark).map Item.plain).or
      (readsUnpadded_readName?.map Item.named))

theorem readMoreItems_unpad (questionMark : Bool) (count : Nat) (text : List Char) :
    readMoreItems questionMark count (unpad false text) =
      ((readMoreItems questionMark count text).1,
        unpad false (readMoreItems questionMark count text).2) := by
  induction count generalizing text with
  | zero => rfl
  | succ count inductionHypothesis =>
      have next : (readMark? ',' (unpad false text)).bind (readItem? questionMark) =
          ((readMark? ',' text).bind (readItem? questionMark)).map
            fun taken => (taken.1, unpad false taken.2) := by
        rw [readMark?_unpad rfl]
        cases readMark? ',' text with
        | none => rfl
        | some rest => exact readsUnpadded_readItem? questionMark rest
      rw [readMoreItems, readMoreItems, next]
      cases (readMark? ',' text).bind (readItem? questionMark) with
      | none => rfl
      | some taken => simp only [Option.map_some, inductionHypothesis]

/-- As many items as there are characters are enough. -/
theorem readMoreItems_eq_of_le {questionMark : Bool} {count others : Nat}
    (enough : text.length ≤ count) (enoughOthers : text.length ≤ others) :
    readMoreItems questionMark count text = readMoreItems questionMark others text := by
  induction count generalizing text others with
  | zero =>
      obtain rfl := List.length_eq_zero_iff.1 (Nat.le_zero.1 enough)
      rw [readMoreItems_of_none _ rfl, readMoreItems_of_none _ rfl]
  | succ count inductionHypothesis =>
      cases found : (readMark? ',' text).bind (readItem? questionMark) with
      | none => rw [readMoreItems_of_none _ found, readMoreItems_of_none _ found]
      | some taken =>
          obtain ⟨item, rest⟩ := taken
          obtain ⟨afterMark, marked, readItem⟩ := Option.bind_eq_some_iff.1 found
          obtain rfl := readMark?_eq_some_iff.1 marked
          have shorter := ((reads_readItem? questionMark).takes readItem).length_lt
          rw [List.length_cons] at enough enoughOthers
          obtain ⟨others, rfl⟩ : ∃ fewer, others = fewer + 1 := ⟨others - 1, by omega⟩
          have same : readMoreItems questionMark count rest =
              readMoreItems questionMark others rest :=
            inductionHypothesis (by omega) (by omega)
          rw [readMoreItems_of_some found, readMoreItems_of_some found, same]

theorem readsUnpadded_readItems? (column : Column) : ReadsUnpadded (readItems? column) := by
  intro text
  unfold readItems?
  rw [skipGaps_unpad, readsUnpadded_readItem?]
  cases readItem? column.takesQuestionMark (skipGaps text) with
  | none => rfl
  | some taken =>
      have enough : readMoreItems column.takesQuestionMark (unpad false taken.2).length
          (unpad false taken.2) = readMoreItems column.takesQuestionMark taken.2.length
            (unpad false taken.2) :=
        readMoreItems_eq_of_le (Nat.le_refl _) (length_unpad_le false taken.2)
      simp only [Option.map_some, Option.bind_eq_bind, Option.bind_some, enough,
        readMoreItems_unpad, skipGaps_unpad]
      rfl

theorem readsUnpadded_readField? (column : Column) : ReadsUnpadded (readField? column) :=
  (readsUnpadded_readItems? column).checked column.fieldNumbers?

theorem readYears_unpad (text : List Char) :
    readYears (unpad false text) = ((readYears text).1, unpad false (readYears text).2) := by
  unfold readYears
  rw [readsUnpadded_readField?]
  cases readField? .year text <;> rfl

/-- A line gives the same timetable with and without zeros before its numbers. -/
theorem Timetable.read?_unpad (text : List Char) :
    Timetable.read? (unpad false text) = Timetable.read? text := by
  have fields : ∀ column text, readField? column (unpad false text) =
      (readField? column text).map fun taken => (taken.1, unpad false taken.2) :=
    readsUnpadded_readField?
  simp only [Timetable.read?, fields, readYears_unpad, List.isEmpty_iff, unpad_eq_nil_iff,
    Option.bind_eq_bind, Option.bind_map, Function.comp_def]

end Readers

/-! ## Shifted weekdays -/

/-- Two texts are the same but for zeros before their numbers. -/
def SameNumbers (text other : List Char) : Prop := unpad false text = unpad false other

/-- How a range of weekdays is taken for one to Sunday: by the text of its end, and apart from
that whether it starts with Sunday as well. -/
def closingOf? (range : List Char) : Option Bool :=
  (splitFirst? '-' range).bind fun ends =>
    if ends.2 = ['7'] then some (decide (ends.1 = ['7'])) else none

/-- How the range of an item, which may carry a step, is taken for one to Sunday. -/
def closing? (item : List Char) : Option Bool :=
  closingOf? (((splitFirst? '/' item).map Prod.fst).getD item)

section Shifted

variable {token other range text item : List Char} {fields others : List (List Char)}

theorem sameNumbers_splitFirst? (separator : Char) (mark : separator.isDigit = false)
    (same : SameNumbers text other) :
    (splitFirst? separator text = none ∧ splitFirst? separator other = none) ∨
      ∃ before after before' after', splitFirst? separator text = some (before, after) ∧
        splitFirst? separator other = some (before', after') ∧
        SameNumbers before before' ∧ SameNumbers after after' := by
  have cut : (splitFirst? separator text).map
        (fun parts => (unpad false parts.1, unpad false parts.2)) =
      (splitFirst? separator other).map
        fun parts => (unpad false parts.1, unpad false parts.2) := by
    rw [← splitFirst?_unpad mark, ← splitFirst?_unpad mark, same]
  cases split : splitFirst? separator text with
  | none =>
      rw [split, Option.map_none, eq_comm, Option.map_eq_none_iff] at cut
      exact Or.inl ⟨rfl, cut⟩
  | some parts =>
      rw [split, Option.map_some, eq_comm, Option.map_eq_some_iff] at cut
      obtain ⟨parts', split', made⟩ := cut
      obtain ⟨before, after⟩ := Prod.mk.inj made
      exact Or.inr ⟨parts.1, parts.2, parts'.1, parts'.2, rfl, split', before.symm, after.symm⟩

theorem readWhole_octet_congr (same : SameNumbers token other) :
    readWhole .octet token = readWhole .octet other := by
  rw [← readWhole_unpad rfl (by decide) token, same, readWhole_unpad rfl (by decide)]

/-- A number is shifted to the same one from any spelling. -/
theorem shiftWeekday_eq {day : Int} (same : SameNumbers token other)
    (read : readWhole .octet other = .ok day) : shiftWeekday token = shiftWeekday other := by
  simp only [shiftWeekday, readWhole_octet_congr same, read]

/-- What is no number is not shifted, and is no number in another spelling. -/
theorem shiftWeekday_cases (same : SameNumbers token other) :
    shiftWeekday token = shiftWeekday other ∨
      (shiftWeekday token = .ok token ∧ token ≠ ['1']) ∧
        shiftWeekday other = .ok other ∧ other ≠ ['1'] := by
  have reads := readWhole_octet_congr same
  have numeral : readWhole .octet ['1'] = .ok 1 := rfl
  cases read : readWhole .octet other with
  | ok day => exact Or.inl (shiftWeekday_eq same read)
  | error fault =>
      rw [read] at reads
      refine Or.inr ⟨⟨by simp [shiftWeekday, reads], ?_⟩, by simp [shiftWeekday, read], ?_⟩
      · rintro rfl
        cases reads.symm.trans numeral
      · rintro rfl
        cases read.symm.trans numeral

theorem shiftWeekday_congr (same : SameNumbers token other) :
    (shiftWeekday token).map (unpad false) = (shiftWeekday other).map (unpad false) := by
  rcases shiftWeekday_cases same with equal | ⟨⟨left, _⟩, right, _⟩
  · rw [equal]
  · rw [left, right]
    exact congrArg Except.ok same

/-- Two results that a function makes the same fail alike or are both there. -/
theorem cases_of_map_eq {ε α β : Type} {make : α → β} {left right : Except ε α}
    (same : left.map make = right.map make) :
    (∃ fault, left = .error fault ∧ right = .error fault) ∨
      ∃ value value', left = .ok value ∧ right = .ok value' ∧ make value = make value' := by
  cases left <;> cases right <;> simp_all [Except.map]

/-- Ranges that are taken alike for ranges to Sunday are shifted alike. -/
theorem shiftRange_congr (same : SameNumbers range other)
    (closing : closingOf? range = closingOf? other) (stepped : Bool) :
    (shiftRange range stepped).map (unpad false) =
      (shiftRange other stepped).map (unpad false) := by
  rcases sameNumbers_splitFirst? '-' rfl same with ⟨whole, whole'⟩ |
    ⟨first, last, first', last', split, split', sameFirst, sameLast⟩
  · have signs : ∀ sign : Char, sign.isDigit = false → (range = [sign] ↔ other = [sign]) := by
      intro sign mark
      rw [← unpad_eq_singleton_iff mark, same, unpad_eq_singleton_iff mark]
    simp only [shiftRange, whole, whole', signs '*' rfl, signs '?' rfl]
    split
    · exact congrArg Except.ok same
    · exact shiftWeekday_congr same
  · simp only [closingOf?, split, split', Option.bind_some] at closing
    simp only [shiftRange, split, split']
    by_cases toSunday : last = ['7'] <;> by_cases toSunday' : last' = ['7'] <;>
      simp only [toSunday, toSunday', if_true, if_false, reduceCtorEq, Option.some.injEq,
        decide_eq_decide] at closing
    · simp only [if_pos toSunday, if_pos toSunday', ne_eq, closing]
      split
      · rcases shiftWeekday_cases sameFirst with equal | ⟨⟨left, noSunday⟩, right, noSunday'⟩
        · rw [equal]
        · simp only [left, right, bind, Except.bind, if_neg noSunday, if_neg noSunday']
          have ending : "-7,1".toList = '-' :: "7,1".toList := rfl
          refine congrArg Except.ok ?_
          rw [ending, unpad_append_cons rfl, unpad_append_cons rfl, sameFirst]
      · rfl
    · simp only [if_neg toSunday, if_neg toSunday']
      rcases cases_of_map_eq (shiftWeekday_congr sameFirst) with
        ⟨fault, left, right⟩ | ⟨start, start', left, right, sameStart⟩
      · rw [left, right]
        rfl
      · rcases cases_of_map_eq (shiftWeekday_congr sameLast) with
          ⟨fault, leftLast, rightLast⟩ | ⟨final, final', leftLast, rightLast, sameFinal⟩
        · rw [left, right, leftLast, rightLast]
          rfl
        · rw [left, right, leftLast, rightLast]
          refine congrArg Except.ok ?_
          rw [unpad_append_cons rfl, unpad_append_cons rfl, sameStart, sameFinal]

theorem shiftItem_congr (same : SameNumbers item other) (closing : closing? item = closing? other) :
    (shiftItem item).map (unpad false) = (shiftItem other).map (unpad false) := by
  unfold closing? at closing
  rcases sameNumbers_splitFirst? '/' rfl same with ⟨whole, whole'⟩ |
    ⟨range, step, range', step', split, split', sameRange, sameStep⟩
  · simp only [whole, whole', Option.map_none, Option.getD_none] at closing
    simp only [shiftItem, whole, whole']
    exact shiftRange_congr same closing false
  · simp only [split, split', Option.map_some, Option.getD_some] at closing
    simp only [shiftItem, split, split']
    rcases cases_of_map_eq (shiftRange_congr sameRange closing true) with
      ⟨fault, left, right⟩ | ⟨shifted, shifted', left, right, sameShifted⟩
    · rw [left, right]
      rfl
    · rw [left, right]
      refine congrArg Except.ok ?_
      rw [unpad_append_cons rfl, unpad_append_cons rfl, sameShifted, sameStep]

theorem mapM_shiftItem_congr {items items' : List (List Char)}
    (same : items.map (unpad false) = items'.map (unpad false))
    (closing : items.map closing? = items'.map closing?) :
    (items.mapM shiftItem).map (List.map (unpad false)) =
      (items'.mapM shiftItem).map (List.map (unpad false)) := by
  induction items generalizing items' with
  | nil =>
      obtain rfl := List.map_eq_nil_iff.1 same.symm
      rfl
  | cons item items inductionHypothesis =>
      cases items' with
      | nil => cases same
      | cons item' items' =>
          obtain ⟨sameItem, sameRest⟩ := List.cons.inj same
          obtain ⟨closingItem, closingRest⟩ := List.cons.inj closing
          simp only [List.mapM_cons]
          rcases cases_of_map_eq (shiftItem_congr sameItem closingItem) with
            ⟨fault, left, right⟩ | ⟨shifted, shifted', left, right, sameShifted⟩
          · rw [left, right]
            rfl
          · rcases cases_of_map_eq (inductionHypothesis sameRest closingRest) with
              ⟨fault, leftRest, rightRest⟩ | ⟨rest, rest', leftRest, rightRest, sameParts⟩
            · rw [left, right, leftRest, rightRest]
              rfl
            · rw [left, right, leftRest, rightRest]
              exact congrArg Except.ok (congrArg₂ List.cons sameShifted sameParts)

/-- The closings of the items of a weekday field. -/
def closings (field : List Char) : List (Option Bool) := (splitAt ',' field).map closing?

theorem shiftWeekdayField_congr {field other : List Char} (same : SameNumbers field other)
    (closing : closings field = closings other) :
    (shiftWeekdayField field).map (unpad false) = (shiftWeekdayField other).map (unpad false) := by
  have items : (splitAt ',' field).map (unpad false) = (splitAt ',' other).map (unpad false) := by
    rw [← splitAt_unpad rfl, same, splitAt_unpad rfl]
  unfold shiftWeekdayField
  rcases cases_of_map_eq (mapM_shiftItem_congr items closing) with
    ⟨fault, left, right⟩ | ⟨shifted, shifted', left, right, sameShifted⟩
  · rw [left, right]
  · rw [left, right]
    refine congrArg Except.ok ?_
    rw [unpad_joinWith rfl, unpad_joinWith rfl, sameShifted]

end Shifted

/-! ## Expressions -/

section Expressions

variable {fields others : List (List Char)} {expression other : String}

theorem restrictsDay_unpad (field : List Char) :
    restrictsDay (unpad false field) = restrictsDay field := by
  simp only [restrictsDay, @head?_unpad_eq_some_iff false '*' field rfl,
    @unpad_eq_singleton_iff '?' field rfl]

theorem restrictsDay_congr {field field' : List Char} (same : SameNumbers field field') :
    restrictsDay field = restrictsDay field' := by
  rw [← restrictsDay_unpad field, same, restrictsDay_unpad]

theorem unpad_line (fields : List (List Char)) :
    unpad false (line fields) = line (fields.map (unpad false)) :=
  unpad_joinWith rfl fields

theorem readLine_unpad (text : List Char) : readLine (unpad false text) = readLine text := by
  rw [readLine, Timetable.read?_unpad, readLine]

theorem mapM_readLine_congr {written written' : List (List Char)}
    (same : written.map (unpad false) = written'.map (unpad false)) :
    written.mapM readLine = written'.mapM readLine := by
  have unpadded : ∀ written : List (List Char),
      (written.map (unpad false)).mapM readLine = written.mapM readLine := by
    intro written
    rw [List.mapM_map]
    exact congrArg written.mapM (funext readLine_unpad)
  rw [← unpadded written, same, unpadded]

/-- Five fields whose weekdays are taken alike are written to the same lines but for zeros. -/
theorem lines_congr {minute hour day month weekday minute' hour' day' month' weekday' : List Char}
    (same : [minute, hour, day, month, weekday].map (unpad false) =
      [minute', hour', day', month', weekday'].map (unpad false))
    (closing : closings weekday = closings weekday') :
    (lines [minute, hour, day, month, weekday]).map (List.map (unpad false)) =
      (lines [minute', hour', day', month', weekday']).map (List.map (unpad false)) := by
  simp only [List.map_cons, List.map_nil, List.cons.injEq, and_true] at same
  obtain ⟨sameMinute, sameHour, sameDay, sameMonth, sameWeekday⟩ := same
  rcases cases_of_map_eq (shiftWeekdayField_congr sameWeekday closing) with
    ⟨fault, left, right⟩ | ⟨shifted, shifted', left, right, sameShifted⟩
  · rw [lines, lines, left, right]
    rfl
  · simp only [lines, left, right, bind, Except.bind, restrictsDay_congr sameDay,
      restrictsDay_congr sameShifted]
    split
    · refine congrArg Except.ok ?_
      simp only [List.map_cons, List.map_nil, unpad_line, sameMinute, sameHour, sameDay, sameMonth,
        sameShifted]
    · refine congrArg Except.ok ?_
      simp only [List.map_cons, List.map_nil, unpad_line, sameMinute, sameHour, sameDay, sameMonth,
        sameShifted]

/-- The fields of two expressions, five of them, are the same but for zeros before their
numbers. -/
structure Respelled (expression other : String) : Prop where
  five : (words expression.toList).length = 5
  same : (words expression.toList).map (unpad false) = (words other.toList).map (unpad false)

/-- The closings of the last field of an expression. -/
def weekdayClosings (expression : String) : List (Option Bool) :=
  closings ((words expression.toList).getLastD [])

/-- Respelled expressions whose weekdays are taken alike give the same schedule, or are refused
for the same reason. -/
theorem read_congr (respelled : Respelled expression other)
    (closing : weekdayClosings expression = weekdayClosings other) :
    read expression = read other := by
  obtain ⟨five, same⟩ := respelled
  have five' : (words other.toList).length = 5 := by
    rw [← five, ← List.length_map (unpad false), ← same, List.length_map]
  unfold weekdayClosings at closing
  unfold Schedule.read
  match words expression.toList, words other.toList, five, five', same, closing with
  | [minute, hour, day, month, weekday], [minute', hour', day', month', weekday'], _, _, same,
      closing =>
      rcases cases_of_map_eq (lines_congr same closing) with
        ⟨fault, left, right⟩ | ⟨written, written', left, right, sameLines⟩
      · rw [left, right]
      · rw [left, right]
        simp only [bind, Except.bind, mapM_readLine_congr sameLines]

/-- Two expressions are both refused, or both accepted with the same next times. -/
def ReadAlike (expression other : String) : Prop :=
  Option.Rel (fun schedule schedule' : Schedule =>
      ∀ reference, schedule.next? reference = schedule'.next? reference)
    (parse expression).toOption (parse other).toOption

theorem readAlike_of_closings (respelled : Respelled expression other)
    (closing : weekdayClosings expression = weekdayClosings other) :
    ReadAlike expression other := by
  unfold ReadAlike Schedule.parse
  rw [read_congr respelled closing]
  cases read other with
  | error fault => exact .none
  | ok schedule => exact .some fun _ => rfl

end Expressions

/-! ## Ranges to Sunday -/

section Ranges

variable {field shifted : List Char} {numbers : List Nat} {value zeros closingZeros : Nat}

theorem namesWeekdays_iff (shift : shiftWeekdayField field = .ok shifted) :
    NamesWeekdays field numbers ↔ Column.weekday.HasField shifted numbers := by
  simp [NamesWeekdays, shift]

/-- A number with zeros before it. -/
def spelled (zeros value : Nat) : List Char := List.replicate zeros '0' ++ [value.digitChar]

/-- A range of weekdays to Sunday as 7, with zeros before its numbers. -/
def sundayRange (value zeros closingZeros : Nat) : List Char :=
  spelled zeros value ++ '-' :: spelled closingZeros 7

theorem isDigit_of_mem_spelled (digit : value < 10) :
    ∀ character ∈ spelled zeros value, character.isDigit = true := by
  intro character member
  rcases List.mem_append.1 member with zero | last
  · rw [List.eq_of_mem_replicate zero]
    rfl
  · rw [List.mem_singleton.1 last]
    exact isDigit_digitChar digit

theorem notMem_sundayRange {mark : Char} (noDigit : mark.isDigit = false) (noDash : mark ≠ '-')
    (atMost : value ≤ 7) : mark ∉ sundayRange value zeros closingZeros := by
  intro member
  rcases List.mem_append.1 member with inFirst | inLast
  · simp [isDigit_of_mem_spelled (by omega) mark inFirst] at noDigit
  · rcases List.mem_cons.1 inLast with dash | inLast
    · exact noDash dash
    · simp [isDigit_of_mem_spelled (by decide) mark inLast] at noDigit

theorem unpad_spelled (digit : value < 10) :
    unpad false (spelled zeros value) = [value.digitChar] := by
  induction zeros with
  | zero =>
      have last : startsDigit [] ≠ true := by decide
      simp [spelled, unpad, last]
  | succ zeros inductionHypothesis =>
      have starts : startsDigit (spelled zeros value) = true := by
        cases zeros with
        | zero => exact isDigit_digitChar digit
        | succ zeros => rfl
      have first : spelled (zeros + 1) value = '0' :: spelled zeros value := rfl
      rw [first, unpad, if_pos ⟨rfl, rfl, starts⟩, inductionHypothesis]

theorem sameNumbers_spelled (digit : value < 10) (zeros others : Nat) :
    SameNumbers (spelled zeros value) (spelled others value) :=
  (unpad_spelled digit).trans (unpad_spelled digit).symm

theorem spelled_eq_seven_iff (digit : value < 10) :
    spelled zeros value = ['7'] ↔ zeros = 0 ∧ value = 7 := by
  constructor
  · intro seven
    have short := congrArg List.length seven
    simp only [spelled, List.length_append, List.length_replicate, List.length_singleton] at short
    obtain rfl : zeros = 0 := by omega
    have isSeven : ∀ value < 10, [value.digitChar] = ['7'] → value = 7 := by decide
    exact ⟨rfl, isSeven value digit seven⟩
  · rintro ⟨rfl, rfl⟩
    rfl

theorem shiftWeekday_spelled (atMost : value ≤ 7) :
    shiftWeekday (spelled zeros value) = .ok [(value % 7 + 1).digitChar] := by
  have reads : ∀ value : Nat, value < 8 →
      readWhole .octet [value.digitChar] = .ok (value : Int) := by
    decide
  have shifts : ∀ value < 8, shiftWeekday [value.digitChar] = .ok [(value % 7 + 1).digitChar] := by
    decide
  rw [shiftWeekday_eq (sameNumbers_spelled (by omega) zeros 0) (reads value (by omega))]
  exact shifts value (by omega)

/-- A range to Sunday is one item without a step, with its first and its last day. -/
theorem cut_sundayRange (atMost : value ≤ 7) (zeros closingZeros : Nat) :
    splitAt ',' (sundayRange value zeros closingZeros) =
        [sundayRange value zeros closingZeros] ∧
      splitFirst? '/' (sundayRange value zeros closingZeros) = none ∧
      splitFirst? '-' (sundayRange value zeros closingZeros) =
        some (spelled zeros value, spelled closingZeros 7) := by
  have noDash : '-' ∉ spelled zeros value := fun member => by
    cases isDigit_of_mem_spelled (by omega) '-' member
  exact ⟨splitAt_self (notMem_sundayRange rfl (by decide) atMost),
    splitFirst?_eq_none (notMem_sundayRange rfl (by decide) atMost), splitFirst?_append noDash⟩

/-- A range to Sunday as 7 is cut in two, unless zeros stand before the 7. -/
theorem shiftWeekdayField_sundayRange (atMost : value ≤ 7) (zeros closingZeros : Nat) :
    shiftWeekdayField (sundayRange value zeros closingZeros) =
      if closingZeros = 0 then
        if zeros = 0 ∧ value = 7 then .error .steppedSunday
        else if value % 7 = 0 then .ok ['1', '-', '7']
        else .ok [(value % 7 + 1).digitChar, '-', '7', ',', '1']
      else .ok [(value % 7 + 1).digitChar, '-', '1'] := by
  obtain ⟨single, unstepped, ends⟩ := cut_sundayRange atMost zeros closingZeros
  have range : shiftWeekdayField (sundayRange value zeros closingZeros) =
      shiftRange (sundayRange value zeros closingZeros) false := by
    rw [shiftWeekdayField, single, List.mapM_cons, shiftItem, unstepped]
    cases shiftRange (sundayRange value zeros closingZeros) false <;> rfl
  have closes : spelled closingZeros 7 = ['7'] ↔ closingZeros = 0 := by
    simp [spelled_eq_seven_iff]
  have starts : [(value % 7 + 1).digitChar] = ['1'] ↔ value % 7 = 0 := by
    have isOne : ∀ value < 8, [(value % 7 + 1).digitChar] = ['1'] ↔ value % 7 = 0 := by decide
    exact isOne value (by omega)
  rw [range]
  simp only [shiftRange, ends, closes, ne_eq, spelled_eq_seven_iff (show value < 10 by omega),
    shiftWeekday_spelled atMost, shiftWeekday_spelled (Nat.le_refl 7), bind, Except.bind, starts]
  split
  · split
    · rename_i apart
      rw [if_neg apart.2]
      split <;> rfl
    · rename_i both
      rw [if_pos (by simpa using both)]
  · rfl

/-- The numbers that a range to Sunday as 7 gives, if it is accepted. -/
def sundayReading (value zeros closingZeros : Nat) : Option (List Nat) :=
  if closingZeros = 0 then
    if zeros = 0 ∧ value = 7 then none
    else if value % 7 = 0 then some [1, 2, 3, 4, 5, 6, 7]
    else some (1 :: List.range' (value + 1) (7 - value))
  else if value % 7 = 0 then some [1] else none

theorem namesWeekdays_iff_of_readField? {reading : Option (List Nat)}
    (shift : shiftWeekdayField field = .ok shifted)
    (read : readField? .weekday shifted = reading.map (·, [])) :
    NamesWeekdays field numbers ↔ reading = some numbers := by
  have whole : Column.weekday.HasField shifted numbers ↔
      readField? .weekday shifted = some (numbers, []) :=
    ⟨fun field => field.whole, fun whole => ⟨whole⟩⟩
  rw [namesWeekdays_iff shift, whole, read]
  simp

theorem namesWeekdays_sundayRange_iff (atMost : value ≤ 7) :
    NamesWeekdays (sundayRange value zeros closingZeros) numbers ↔
      sundayReading value zeros closingZeros = some numbers := by
  have cut : ∀ value < 8, value % 7 ≠ 0 →
      readField? .weekday [(value % 7 + 1).digitChar, '-', '7', ',', '1'] =
        some (1 :: List.range' (value + 1) (7 - value), []) := by
    decide
  have toFirst : ∀ value < 8, readField? .weekday [(value % 7 + 1).digitChar, '-', '1'] =
      (if value % 7 = 0 then some [1] else none).map (·, []) := by
    decide
  have shift := shiftWeekdayField_sundayRange atMost zeros closingZeros
  unfold sundayReading
  split
  · rename_i closing
    rw [if_pos closing] at shift
    split
    · rename_i both
      rw [if_pos both] at shift
      simp [NamesWeekdays, shift]
    · rename_i apart
      rw [if_neg apart] at shift
      split
      · rename_i first
        rw [if_pos first] at shift
        exact namesWeekdays_iff_of_readField? shift rfl
      · rename_i later
        rw [if_neg later] at shift
        exact namesWeekdays_iff_of_readField? shift (cut value (by omega) later)
  · rename_i closing
    rw [if_neg closing] at shift
    exact namesWeekdays_iff_of_readField? shift (toFirst value (by omega))

theorem closings_sundayRange (atMost : value ≤ 7) :
    closings (sundayRange value zeros closingZeros) =
      [if closingZeros = 0 then some (decide (zeros = 0 ∧ value = 7)) else none] := by
  obtain ⟨single, unstepped, ends⟩ := cut_sundayRange atMost zeros closingZeros
  simp only [closings, single, List.map_cons, List.map_nil, closing?, unstepped, Option.map_none,
    Option.getD_none, closingOf?, ends, Option.bind_some,
    spelled_eq_seven_iff (show 7 < 10 by decide), and_true,
    spelled_eq_seven_iff (show value < 10 by omega)]

/-- Ranges to Sunday as 7 name the same days in two spellings exactly if they are taken alike. -/
theorem sundayRange_alike_iff (atMost : value ≤ 7) (zeros closingZeros zeros' closingZeros' : Nat) :
    (∀ numbers, NamesWeekdays (sundayRange value zeros closingZeros) numbers ↔
        NamesWeekdays (sundayRange value zeros' closingZeros') numbers) ↔
      closings (sundayRange value zeros closingZeros) =
        closings (sundayRange value zeros' closingZeros') := by
  simp only [namesWeekdays_sundayRange_iff atMost, closings_sundayRange atMost]
  rw [← Option.ext_iff]
  unfold sundayReading
  grind

end Ranges

/-! ## Where the spelling matters -/

/-- Zeros before the numbers of an expression never change what is read of it. -/
def SpellingIsFree : Prop :=
  ∀ expression other : String, Respelled expression other → ReadAlike expression other

/-- From Monday to Sunday is read as a range that ends before it starts when 7 is spelled 07. -/
theorem not_spellingIsFree : ¬ SpellingIsFree := by
  intro free
  have accepted : (parse "0 0 * * 1-7").toOption.isSome = true := rfl
  have refused : (parse "0 0 * * 1-07").toOption = none := rfl
  have alike := free "0 0 * * 1-7" "0 0 * * 1-07" ⟨by decide, by decide⟩
  rw [ReadAlike, refused] at alike
  generalize (parse "0 0 * * 1-7").toOption = first at accepted alike
  cases alike
  cases accepted

/-- Zeros before the numbers of an expression change nothing where they do not change which ranges
of weekdays are taken for ranges to Sunday; where they do, the range names other days. -/
theorem readAlike_unless_closing {expression other : String}
    (respelled : Respelled expression other) :
    (weekdayClosings expression = weekdayClosings other → ReadAlike expression other) ∧
    ∀ value ≤ 7, ∀ zeros closingZeros zeros' closingZeros' : Nat,
      (∀ numbers, NamesWeekdays (sundayRange value zeros closingZeros) numbers ↔
          NamesWeekdays (sundayRange value zeros' closingZeros') numbers) ↔
        closings (sundayRange value zeros closingZeros) =
          closings (sundayRange value zeros' closingZeros') :=
  ⟨readAlike_of_closings respelled, fun _ atMost => sundayRange_alike_iff atMost⟩

/-- Zeros before minutes, hours, months and workdays change nothing, but those before the 7 of a
range to Sunday do. -/
theorem readAlike_workdays :
    Respelled "0 7 * 1-3 1-5,7" "00 007 * 01-3 01-05,07" ∧
      weekdayClosings "0 7 * 1-3 1-5,7" = weekdayClosings "00 007 * 01-3 01-05,07" ∧
      ReadAlike "0 7 * 1-3 1-5,7" "00 007 * 01-3 01-05,07" ∧ 1 ≤ 7 ∧
      ¬ ∀ numbers, NamesWeekdays (sundayRange 1 0 0) numbers ↔
        NamesWeekdays (sundayRange 1 0 1) numbers := by
  have respelled : Respelled "0 7 * 1-3 1-5,7" "00 007 * 01-3 01-05,07" :=
    ⟨by decide, by decide⟩
  have closing : weekdayClosings "0 7 * 1-3 1-5,7" = weekdayClosings "00 007 * 01-3 01-05,07" := by
    decide
  obtain ⟨alike, sundays⟩ := readAlike_unless_closing respelled
  refine ⟨respelled, closing, alike closing, by decide, ?_⟩
  rw [sundays 1 (by decide) 0 0 0 1]
  decide

end NodeFleet.Cron
