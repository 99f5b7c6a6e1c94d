import NodeFleet.Proofs.Cron.Lines
import NodeFleet.Proofs.Cron.Schedule
import NodeFleet.Proofs.Text.Cutting
import NodeFleet.Proofs.Text.Decimal

/-!
# The columns of an expression

An expression of five fields stands for the columns of its timetables.  A column is read from its
own field unless a field has a seam, at which the reader ends one column and begins the next.
-/

namespace NodeFleet.Cron

open Schedule Text

/-! ## The words of an expression -/

section Words

variable {character : Char} {text word token : List Char}

theorem isBlank_of_isGap (gap : isGap character = true) : isBlank character = true := by
  simp only [isGap, Bool.or_eq_true, decide_eq_true_eq] at gap
  rcases gap with ((rfl | rfl) | rfl) | rfl <;> rfl

theorem isWord_of_mem_wordsAfter (bare : Bare word) (member : token ∈ wordsAfter word text) :
    IsWord token := by
  induction text generalizing word with
  | nil =>
      simp only [wordsAfter] at member
      split at member
      · cases member
      · rename_i filled
        obtain rfl := List.mem_singleton.1 member
        exact ⟨by simpa using filled, bare⟩
  | cons character text inductionHypothesis =>
      have bareNil : Bare [] := fun _ none => by cases none
      simp only [wordsAfter] at member
      split at member
      · split at member
        · exact inductionHypothesis bareNil member
        · rename_i filled
          rcases List.mem_cons.1 member with rfl | later
          · exact ⟨by simpa using filled, bare⟩
          · exact inductionHypothesis bareNil later
      · rename_i shown
        refine inductionHypothesis (fun other inWord => ?_) member
        rcases List.mem_append.1 inWord with early | last
        · exact bare other early
        · obtain rfl := List.mem_singleton.1 last
          exact Bool.eq_false_iff.2 fun gap => shown (isBlank_of_isGap gap)

theorem isWord_of_mem_words (member : token ∈ words text) : IsWord token :=
  isWord_of_mem_wordsAfter (fun _ none => by cases none) member

end Words

/-! ## Shifted weekdays -/

section Shifted

variable {text before after token range item field shifted : List Char} {separator : Char}
  {parts : List (List Char)} {stepped : Bool}

theorem isGap_of_isDigit {character : Char} (digit : character.isDigit = true) :
    isGap character = false :=
  isGap_of_isEdge (isEdge_of_isDigit digit)

theorem isWord_toDigits (value : Nat) : IsWord (Nat.toDigits 10 value) where
  filled := Nat.toDigits_ne_nil
  bare := fun _ member => isGap_of_isDigit (isDigit_of_mem_toDigits member)

theorem isWord_toString (value : Int) : IsWord (toString value).toList := by
  cases value with
  | ofNat value =>
      have digits : (toString (Int.ofNat value)).toList = Nat.toDigits 10 value := Nat.toList_repr
      rw [digits]
      exact isWord_toDigits value
  | negSucc value =>
      rw [toList_toString_negSucc]
      exact ⟨List.cons_ne_nil _ _, List.forall_mem_cons.2 ⟨rfl, (isWord_toDigits _).bare⟩⟩

/-- A shifted text has no blank, and is not empty, where that holds of the text. -/
structure KeepsWord (text shifted : List Char) : Prop where
  bare : Bare text → Bare shifted
  filled : text ≠ [] → shifted ≠ []

theorem keepsWord_shiftWeekday (shift : shiftWeekday token = .ok shifted) :
    KeepsWord token shifted := by
  unfold shiftWeekday at shift
  split at shift
  · obtain rfl := Except.ok.inj shift
    exact ⟨id, id⟩
  · split at shift
    · obtain rfl := Except.ok.inj shift
      exact ⟨fun _ => (isWord_toString _).bare, fun _ => (isWord_toString _).filled⟩
    · split at shift
      · obtain rfl := Except.ok.inj shift
        exact ⟨fun _ => bare_of_all rfl, fun _ => List.cons_ne_nil _ _⟩
      · cases shift

theorem keepsWord_shiftRange (shift : shiftRange range stepped = .ok shifted) :
    KeepsWord range shifted := by
  unfold shiftRange at shift
  split at shift
  · rename_i first last split'
    obtain rfl := eq_append_of_splitFirst? split'
    split at shift
    · split at shift
      · obtain ⟨shiftedFirst, shiftFirst, made⟩ := exists_ok_of_bind shift
        have keeps := keepsWord_shiftWeekday shiftFirst
        obtain rfl := Except.ok.inj made
        split
        · exact ⟨fun _ => bare_of_all rfl, fun _ => by decide⟩
        · exact ⟨fun bare => List.forall_mem_append.2
            ⟨keeps.bare (List.forall_mem_append.1 bare).1, bare_of_all rfl⟩, fun _ => by simp⟩
      · cases shift
    · obtain ⟨shiftedFirst, shiftFirst, shift⟩ := exists_ok_of_bind shift
      obtain ⟨shiftedLast, shiftLast, made⟩ := exists_ok_of_bind shift
      obtain rfl := Except.ok.inj made
      refine ⟨fun bare => ?_, fun _ => by simp⟩
      obtain ⟨bareFirst, bareLast⟩ := List.forall_mem_append.1 bare
      exact List.forall_mem_append.2 ⟨(keepsWord_shiftWeekday shiftFirst).bare bareFirst,
        List.forall_mem_cons.2 ⟨rfl, (keepsWord_shiftWeekday shiftLast).bare
          (List.forall_mem_cons.1 bareLast).2⟩⟩
  · split at shift
    · obtain rfl := Except.ok.inj shift
      exact ⟨id, id⟩
    · exact keepsWord_shiftWeekday shift

theorem keepsWord_shiftItem (shift : shiftItem item = .ok shifted) : KeepsWord item shifted := by
  unfold shiftItem at shift
  split at shift
  · exact keepsWord_shiftRange shift
  · rename_i range step split'
    obtain rfl := eq_append_of_splitFirst? split'
    cases shiftRange' : shiftRange range true with
    | error fault =>
        rw [shiftRange'] at shift
        cases shift
    | ok shiftedRange =>
        rw [shiftRange'] at shift
        obtain rfl := Except.ok.inj shift
        refine ⟨fun bare => ?_, fun _ => by simp⟩
        obtain ⟨bareRange, bareStep⟩ := List.forall_mem_append.1 bare
        exact List.forall_mem_append.2
          ⟨(keepsWord_shiftRange shiftRange').bare bareRange, bareStep⟩

/-- The items of a field are joined again as they were split. -/
theorem keepsWord_joinWith {shiftedParts : List (List Char)}
    (shift : List.Forall₂ (fun part shifted => shiftItem part = .ok shifted) parts shiftedParts) :
    KeepsWord (joinWith [','] parts) (joinWith [','] shiftedParts) := by
  induction shift with
  | nil => exact ⟨id, id⟩
  | cons shiftFirst shiftRest keepsRest =>
      have keeps := keepsWord_shiftItem shiftFirst
      cases shiftRest with
      | nil => exact keeps
      | cons _ _ =>
          simp only [joinWith, List.append_assoc, List.singleton_append]
          refine ⟨fun bare => ?_, fun _ => by simp⟩
          obtain ⟨bareFirst, bareRest⟩ := List.forall_mem_append.1 bare
          exact List.forall_mem_append.2 ⟨keeps.bare bareFirst, List.forall_mem_cons.2
            ⟨rfl, keepsRest.bare (List.forall_mem_cons.1 bareRest).2⟩⟩

theorem keepsWord_shiftWeekdayField (shift : shiftWeekdayField field = .ok shifted) :
    KeepsWord field shifted := by
  unfold shiftWeekdayField at shift
  cases shiftItems : (splitAt ',' field).mapM shiftItem with
  | error fault =>
      rw [shiftItems] at shift
      cases shift
  | ok items =>
      rw [shiftItems] at shift
      obtain rfl := Except.ok.inj shift
      have keeps := keepsWord_joinWith (forall₂_of_mapM shiftItems)
      rwa [joinWith_splitAt] at keeps

end Shifted

/-! ## Fields and their columns -/

/-- The five fields of an expression, with the weekdays counted from Sunday as 1. -/
structure Fields where
  minute : List Char
  hour : List Char
  day : List Char
  month : List Char
  weekday : List Char
  deriving DecidableEq

namespace Fields

variable {fields : Fields} {expression : String} {schedule : Schedule} {table : Timetable}

/-- The words of an expression are these fields, before the weekdays are shifted. -/
def Of (fields : Fields) (expression : String) : Prop :=
  ∃ weekday, words expression.toList =
      [fields.minute, fields.hour, fields.day, fields.month, weekday] ∧
    shiftWeekdayField weekday = .ok fields.weekday

/-- Both the days of the month and the weekdays leave out days. -/
def splits (fields : Fields) : Bool := restrictsDay fields.day && restrictsDay fields.weekday

/-- A timetable names in every column the numbers for which the field of the column stands, the
seconds being 0 and the years all. -/
structure Fill (fields : Fields) (table : Timetable) : Prop where
  seconds : table.seconds = [0]
  minutes : Column.minute.HasField fields.minute table.minutes
  hours : Column.hour.HasField fields.hour table.hours
  days : Column.day.HasField fields.day table.days
  months : Column.month.HasField fields.month table.months
  weekdays : Column.weekday.HasField fields.weekday table.weekdays
  years : table.years = Column.year.all

/-- Every field is a text of one kind. -/
structure Each (kind : List Char → Prop) (fields : Fields) : Prop where
  minute : kind fields.minute
  hour : kind fields.hour
  day : kind fields.day
  month : kind fields.month
  weekday : kind fields.weekday

/-- No field has a seam. -/
abbrev AreSeamless (fields : Fields) : Prop := fields.Each Seamless

/-- The line of a timetable with these fields. -/
def line (fields : Fields) : List Char :=
  Schedule.line
    [['0'], fields.minute, fields.hour, fields.day, fields.month, fields.weekday]

/-- The timetables of fields that fill one: where both day fields leave out days, one without the
weekdays and one without the days of the month. -/
def timetables (fields : Fields) (table : Timetable) : List Timetable :=
  if fields.splits then
    [{ table with weekdays := Column.weekday.all }, { table with days := Column.day.all }]
  else [table]

/-- Each field by itself is a whole field of its column, from which alone the schedule has the
column. -/
def StandApart (fields : Fields) (schedule : Schedule) : Prop :=
  ∃ table, fields.Fill table ∧ schedule.timetables = fields.timetables table

/-- An expression has one list of fields. -/
theorem Of.unique {others : Fields} (fieldsOf : fields.Of expression)
    (othersOf : others.Of expression) : fields = others := by
  obtain ⟨weekday, split, shift⟩ := fieldsOf
  obtain ⟨weekday', split', shift'⟩ := othersOf
  have same := split.symm.trans split'
  simp only [List.cons.injEq, and_true] at same
  obtain ⟨minute, hour, day, month, rfl⟩ := same
  have shifted := Except.ok.inj (shift.symm.trans shift')
  cases fields
  cases others
  simp_all

theorem Of.areWords (fieldsOf : fields.Of expression) : fields.Each IsWord := by
  obtain ⟨weekday, split, shift⟩ := fieldsOf
  have words : ∀ token ∈ words expression.toList, IsWord token :=
    fun _ member => isWord_of_mem_words member
  simp only [split, List.forall_mem_cons] at words
  obtain ⟨minute, hour, day, month, unshifted, _⟩ := words
  have keeps := keepsWord_shiftWeekdayField shift
  exact ⟨minute, hour, day, month, keeps.filled unshifted.filled, keeps.bare unshifted.bare⟩

/-- Fields that fill a timetable have no seams. -/
theorem Fill.areSeamless (fill : fields.Fill table) (areWords : fields.Each IsWord) :
    fields.AreSeamless where
  minute := fill.minutes.seamless areWords.minute.bare
  hour := fill.hours.seamless areWords.hour.bare
  day := fill.days.seamless areWords.day.bare
  month := fill.months.seamless areWords.month.bare
  weekday := fill.weekdays.seamless areWords.weekday.bare

theorem isWord_singleton {sign : Char} (shown : isGap sign = false) : IsWord [sign] :=
  ⟨List.cons_ne_nil sign [], List.forall_mem_singleton.2 shown⟩

/-- Fields without seams fill the timetable that is read from their line. -/
theorem AreSeamless.fill (seamless : fields.AreSeamless) (areWords : fields.Each IsWord)
    (read : Timetable.read? fields.line = some table) : fields.Fill table := by
  have zero : IsWord ['0'] := isWord_singleton rfl
  obtain ⟨seconds, minutes, hours, days, months, weekdays, years⟩ :=
    Timetable.hasFields_of_read? (by simp [zero, areWords.minute, areWords.hour, areWords.day,
      areWords.month, areWords.weekday]) (by simp [seamless.minute, seamless.hour, seamless.day,
      seamless.month, seamless.weekday]) read
  have atZero : Column.second.HasField ['0'] [0] := ⟨rfl⟩
  exact ⟨seconds.unique atZero, minutes, hours, days, months, weekdays, years⟩

/-- An expression of five words that is read has fields. -/
theorem exists_of_parse (five : (words expression.toList).length = 5)
    (parsed : parse expression = .ok schedule) : ∃ fields : Fields, fields.Of expression := by
  obtain ⟨minute, hour, day, month, weekday, split⟩ : ∃ minute hour day month weekday,
      words expression.toList = [minute, hour, day, month, weekday] := by
    match words expression.toList, five with
    | [minute, hour, day, month, weekday], _ => exact ⟨minute, hour, day, month, weekday, rfl⟩
  obtain ⟨lines, readLines, _⟩ := exists_ok_of_bind (read_of_parse parsed)
  rw [split] at readLines
  obtain ⟨shifted, shift, _⟩ := exists_ok_of_bind readLines
  exact ⟨⟨minute, hour, day, month, shifted⟩, weekday, split, shift⟩

/-- The timetables of an expression of five fields are read from one line or two. -/
theorem Of.timetables_cases (fieldsOf : fields.Of expression)
    (parsed : parse expression = .ok schedule) :
    (fields.splits = false ∧ ∃ table, schedule.timetables = [table] ∧
      Timetable.read? fields.line = some table) ∨
    (fields.splits = true ∧ ∃ byDay byWeekday, schedule.timetables = [byDay, byWeekday] ∧
      Timetable.read? { fields with weekday := ['*'] }.line = some byDay ∧
      Timetable.read? { fields with day := ['*'] }.line = some byWeekday) := by
  obtain ⟨weekday, split, shift⟩ := fieldsOf
  obtain ⟨written, readLines, read⟩ := exists_ok_of_bind (read_of_parse parsed)
  obtain ⟨tables, readTables, made⟩ := exists_ok_of_bind read
  obtain rfl := Except.ok.inj made
  have tables := forall₂_of_mapM readTables
  rw [split] at readLines
  obtain ⟨shifted, shift', readLines⟩ := exists_ok_of_bind readLines
  obtain rfl := Except.ok.inj (shift.symm.trans shift')
  cases both : fields.splits with
  | false =>
      rw [← splits, both] at readLines
      obtain rfl := Except.ok.inj readLines
      simp only [List.forall₂_cons_left_iff, List.forall₂_nil_left_iff] at tables
      obtain ⟨table, _, readOnly, rfl, rfl⟩ := tables
      exact Or.inl ⟨rfl, table, rfl, readLine_eq_ok_iff.1 readOnly⟩
  | true =>
      rw [← splits, both] at readLines
      obtain rfl := Except.ok.inj readLines
      simp only [List.forall₂_cons_left_iff, List.forall₂_nil_left_iff] at tables
      obtain ⟨byDay, _, readByDay, ⟨byWeekday, _, readByWeekday, rfl, rfl⟩, rfl⟩ := tables
      exact Or.inr ⟨rfl, byDay, byWeekday, rfl, readLine_eq_ok_iff.1 readByDay,
        readLine_eq_ok_iff.1 readByWeekday⟩

/-- Fields without seams stand apart. -/
theorem AreSeamless.standApart (seamless : fields.AreSeamless) (fieldsOf : fields.Of expression)
    (parsed : parse expression = .ok schedule) : fields.StandApart schedule := by
  have areWords := fieldsOf.areWords
  rcases fieldsOf.timetables_cases parsed with
    ⟨both, table, tables, read⟩ | ⟨both, byDay, byWeekday, tables, readByDay, readByWeekday⟩
  · refine ⟨table, seamless.fill areWords read, ?_⟩
    rw [tables, timetables, both]
    rfl
  · have star : IsWord ['*'] := isWord_singleton rfl
    have starSeamless : Seamless ['*'] := List.isChain_singleton '*'
    have day : Fill { fields with weekday := ['*'] } byDay :=
      AreSeamless.fill { seamless with weekday := starSeamless } { areWords with weekday := star }
        readByDay
    have weekday : Fill { fields with day := ['*'] } byWeekday :=
      AreSeamless.fill { seamless with day := starSeamless } { areWords with day := star }
        readByWeekday
    have allWeekdays : byDay.weekdays = Column.weekday.all := day.weekdays.unique ⟨rfl⟩
    have allDays : byWeekday.days = Column.day.all := weekday.days.unique ⟨rfl⟩
    -- The two timetables differ in nothing but the columns of days.
    have same : byDay = { byWeekday with days := byDay.days, weekdays := byDay.weekdays } := by
      rw [weekday.seconds.trans day.seconds.symm, weekday.minutes.unique day.minutes,
        weekday.hours.unique day.hours, weekday.months.unique day.months,
        weekday.years.trans day.years.symm]
    refine ⟨{ byWeekday with days := byDay.days }, { weekday with days := day.days }, ?_⟩
    rw [tables, timetables, both, if_pos rfl, ← allWeekdays, ← allDays]
    exact congrArg (· :: [byWeekday]) same

end Fields

/-- The columns of an expression of five fields do not run into each other. -/
def ColumnsApart : Prop :=
  ∀ (expression : String) (schedule : Schedule), (words expression.toList).length = 5 →
    parse expression = .ok schedule →
      ∃ fields : Fields, fields.Of expression ∧ fields.StandApart schedule

/-- Of two stars that stand side by side, the second is read as the hours. -/
theorem not_columnsApart : ¬ ColumnsApart := by
  intro apart
  have parsed : ∃ schedule, parse "** 1 2 3 *" = .ok schedule := ⟨_, rfl⟩
  obtain ⟨schedule, parsed⟩ := parsed
  obtain ⟨fields, fieldsOf, table, fill, _⟩ := apart "** 1 2 3 *" schedule (by decide) parsed
  have seamless := (fill.areSeamless fieldsOf.areWords).minute
  obtain ⟨weekday, split, _⟩ := fieldsOf
  have first : fields.minute = ['*', '*'] := (List.cons.inj split).1.symm
  rw [first] at seamless
  exact absurd seamless (by decide)

/-- The fields of a schedule of five words stand apart exactly if none of them has a seam. -/
theorem exists_fields_standApart_iff {expression : String} {schedule : Schedule}
    (five : (words expression.toList).length = 5) (parsed : parse expression = .ok schedule) :
    ∃ fields : Fields, fields.Of expression ∧
      (fields.StandApart schedule ↔ fields.AreSeamless) := by
  obtain ⟨fields, fieldsOf⟩ := Fields.exists_of_parse five parsed
  refine ⟨fields, fieldsOf, fun apart => ?_, fun seamless => ?_⟩
  · obtain ⟨table, fill, _⟩ := apart
    exact fill.areSeamless fieldsOf.areWords
  · exact Fields.AreSeamless.standApart seamless fieldsOf parsed

/-- The fields of the first of the month and of all workdays stand apart. -/
theorem standApart_workdays : ∃ (schedule : Schedule) (fields : Fields),
    parse "*/15 0 1 * 1-5" = .ok schedule ∧ fields.Of "*/15 0 1 * 1-5" ∧
      fields.weekday = ['2', '-', '6'] ∧ fields.StandApart schedule := by
  have parsed : ∃ schedule, parse "*/15 0 1 * 1-5" = .ok schedule := ⟨_, rfl⟩
  obtain ⟨schedule, parsed⟩ := parsed
  obtain ⟨fields, fieldsOf, apart⟩ := exists_fields_standApart_iff (by decide) parsed
  have fields_eq : fields = ⟨['*', '/', '1', '5'], ['0'], ['1'], ['*'], ['2', '-', '6']⟩ :=
    fieldsOf.unique ⟨['1', '-', '5'], by decide, rfl⟩
  refine ⟨schedule, fields, parsed, fieldsOf, by rw [fields_eq], apart.2 ?_⟩
  rw [fields_eq]
  exact ⟨by decide, by decide, by decide, by decide, by decide⟩

end NodeFleet.Cron
