import NodeFleet.Proofs.Cron.Columns
import NodeFleet.Proofs.Cron.Least

/-!
# When an expression fires

The next time of an expression of five whole fields is the least minute after the reference that
its fields name.  Where both day fields leave out days, a day that either of them names will do.
-/

namespace NodeFleet.Cron

open Calendar Schedule

/-! ## What the fields name -/

/-- A field stands for a number of its column, among others. -/
def Column.Names (column : Column) (field : List Char) (value : Nat) : Prop :=
  ∃ numbers, column.HasField field numbers ∧ value ∈ numbers

theorem Column.HasField.names_iff {column : Column} {field : List Char} {numbers : List Nat}
    {value : Nat} (whole : column.HasField field numbers) :
    column.Names field value ↔ value ∈ numbers :=
  ⟨fun ⟨_, other, member⟩ => whole.unique other ▸ member, fun member => ⟨numbers, whole, member⟩⟩

/-- A token is one field of the grammar, whatever it stands for. -/
def Column.IsField (column : Column) (token : List Char) : Prop :=
  ∃ items, readItems? column token = some (items, [])

namespace Fields

/-- Each field by itself is one field of the grammar. -/
structure AreWhole (fields : Fields) : Prop where
  minute : Column.minute.IsField fields.minute
  hour : Column.hour.IsField fields.hour
  day : Column.day.IsField fields.day
  month : Column.month.IsField fields.month
  weekday : Column.weekday.IsField fields.weekday

/-- Fields name the start of a minute: its date in one of the day fields where both leave out
days, and in both otherwise. -/
structure Fires (fields : Fields) (time : Instant) : Prop where
  whole : time.nanos % 60000000000 = 0
  minute : Column.minute.Names fields.minute time.civil.minute
  hour : Column.hour.Names fields.hour time.civil.hour
  month : Column.month.Names fields.month time.civil.date.month
  date : if fields.splits then
      Column.day.Names fields.day time.civil.date.day ∨
        Column.weekday.Names fields.weekday time.civil.date.weekday
    else
      Column.day.Names fields.day time.civil.date.day ∧
        Column.weekday.Names fields.weekday time.civil.date.weekday

/-- The least instant after a reference that fields name. -/
structure FiresNext (fields : Fields) (reference time : Instant) : Prop where
  fires : fields.Fires time
  after : reference < time
  least : ∀ other, fields.Fires other → reference < other → time ≤ other

variable {fields : Fields} {expression : String} {table : Timetable} {time : Instant}

theorem AreWhole.areSeamless (whole : fields.AreWhole) (fieldsOf : fields.Of expression) :
    fields.AreSeamless := by
  have seamless : ∀ {column : Column} {token : List Char}, column.IsField token →
      IsWord token → Seamless token := by
    rintro column token ⟨_, whole⟩ word
    exact (reads_readItems? column).seamless whole word.bare
  obtain ⟨minute, hour, day, month, weekday⟩ := fieldsOf.areWords
  exact ⟨seamless whole.minute minute, seamless whole.hour hour, seamless whole.day day,
    seamless whole.month month, seamless whole.weekday weekday⟩

/-! ## The timetables of the fields -/

theorem weekday_mem_all (date : Date) : date.weekday ∈ Column.weekday.all := by
  refine Column.mem_all_iff.2 ⟨?_, ?_⟩
  · show 1 ≤ date.weekday
    exact Nat.le_add_left 1 _
  · show date.weekday ≤ 7
    unfold Date.weekday
    omega

theorem day_mem_all {date : Date} (valid : date.isValid = true) : date.day ∈ Column.day.all := by
  obtain ⟨_, _, first, last⟩ := Date.isValid_iff.1 valid
  have longest : monthLength date.year date.month ≤ 31 := by
    unfold monthLength
    split
    · split <;> omega
    · split <;> omega
  exact Column.mem_all_iff.2 ⟨first, Nat.le_trans last longest⟩

/-- A time is the start of a minute exactly if it is the start of a second that is the first of
its minute. -/
theorem whole_iff : time.nanos % 60000000000 = 0 ↔
    time = .ofSeconds time.seconds ∧ time.civil.second = 0 := by
  have second : time.civil.second = (time.seconds % 86400).toNat % 60 := rfl
  have seconds : time.seconds = time.nanos / 1000000000 := rfl
  have same : time = .ofSeconds time.seconds ↔ time.nanos = time.seconds * 1000000000 :=
    ⟨congrArg Instant.nanos, fun nanos => by cases time; exact congrArg Instant.mk nanos⟩
  rw [same, second]
  omega

/-- A timetable that fields fill, but for the columns of days. -/
theorem Fill.holds_iff (fill : fields.Fill table) (first : 1970 ≤ time.civil.date.year)
    (last : time.civil.date.year ≤ 2100) (days weekdays : List Nat) :
    Timetable.Holds { table with days, weekdays } time.civil ↔
      time.civil.second = 0 ∧ Column.minute.Names fields.minute time.civil.minute ∧
        Column.hour.Names fields.hour time.civil.hour ∧
        Column.month.Names fields.month time.civil.date.month ∧
        time.civil.date.day ∈ days ∧ time.civil.date.weekday ∈ weekdays := by
  rw [fill.minutes.names_iff, fill.hours.names_iff, fill.months.names_iff]
  constructor
  · intro holds
    have second := holds.second
    rw [show Timetable.seconds _ = table.seconds from rfl, fill.seconds] at second
    exact ⟨List.mem_singleton.1 second, holds.minute, holds.hour, holds.month, holds.day,
      holds.weekday⟩
  · rintro ⟨second, minute, hour, month, day, weekday⟩
    refine ⟨?_, minute, hour, day, month, weekday, time.civil.date.year.toNat, ?_, by omega⟩
    · show time.civil.second ∈ table.seconds
      rw [fill.seconds]
      exact List.mem_singleton.2 second
    · show time.civil.date.year.toNat ∈ table.years
      rw [fill.years]
      exact Column.mem_all_iff.2 ⟨show 1970 ≤ _ by omega, show _ ≤ 2100 by omega⟩

theorem Fill.years_of_mem (fill : fields.Fill table) {other : Timetable}
    (among : other ∈ fields.timetables table) : other.years = Column.year.all := by
  rw [timetables] at among
  split at among
  · rcases List.mem_pair.1 among with rfl | rfl
    · exact fill.years
    · exact fill.years
  · obtain rfl := List.mem_singleton.1 among
    exact fill.years

/-- In the years of the calendar, the timetables of fields hold the times that the fields
name. -/
theorem Fill.fires_iff (fill : fields.Fill table) (first : 1970 ≤ time.civil.date.year)
    (last : time.civil.date.year ≤ 2100) :
    fields.Fires time ↔ time = .ofSeconds time.seconds ∧
      ∃ other ∈ fields.timetables table, other.Holds time.civil := by
  have byDay := fill.holds_iff first last table.days Column.weekday.all
  have byWeekday := fill.holds_iff first last Column.day.all table.weekdays
  have byBoth := fill.holds_iff first last table.days table.weekdays
  have everyDay := day_mem_all time.isValid_civil.date
  have everyWeekday := weekday_mem_all time.civil.date
  rw [← fill.days.names_iff] at byDay byBoth
  rw [← fill.weekdays.names_iff] at byWeekday byBoth
  rw [timetables]
  constructor
  · rintro ⟨whole, minute, hour, month, date⟩
    obtain ⟨start, second⟩ := whole_iff.1 whole
    refine ⟨start, ?_⟩
    split at date
    · rename_i both
      rw [if_pos both]
      rcases date with day | weekday
      · exact ⟨_, List.mem_cons_self,
          byDay.2 ⟨second, minute, hour, month, day, everyWeekday⟩⟩
      · exact ⟨_, List.mem_cons_of_mem _ List.mem_cons_self,
          byWeekday.2 ⟨second, minute, hour, month, everyDay, weekday⟩⟩
    · rename_i one
      rw [if_neg one]
      exact ⟨table, List.mem_cons_self, byBoth.2 ⟨second, minute, hour, month, date⟩⟩
  · rintro ⟨start, other, member, holds⟩
    split at member
    · rename_i both
      rcases List.mem_pair.1 member with rfl | rfl
      · obtain ⟨second, minute, hour, month, day, _⟩ := byDay.1 holds
        exact ⟨whole_iff.2 ⟨start, second⟩, minute, hour, month, by
          rw [if_pos both]; exact Or.inl day⟩
      · obtain ⟨second, minute, hour, month, _, weekday⟩ := byWeekday.1 holds
        exact ⟨whole_iff.2 ⟨start, second⟩, minute, hour, month, by
          rw [if_pos both]; exact Or.inr weekday⟩
    · rename_i one
      obtain rfl := List.mem_singleton.1 member
      obtain ⟨second, minute, hour, month, date⟩ := byBoth.1 holds
      exact ⟨whole_iff.2 ⟨start, second⟩, minute, hour, month, by rw [if_neg one]; exact date⟩

end Fields

/-! ## The next time -/

namespace Schedule

variable {schedule : Schedule} {fields : Fields} {expression : String} {table : Timetable}
  {reference time : Instant}

theorem earlier_le {left right : Option Instant} (among : left = some time ∨ right = some time) :
    ∃ least, earlier left right = some least ∧ least ≤ time := by
  have refl : time ≤ time := Int.le_refl _
  unfold earlier
  rcases among with rfl | rfl
  · cases right with
    | none => exact ⟨time, rfl, refl⟩
    | some second =>
        dsimp only
        split
        · exact ⟨time, rfl, refl⟩
        · exact ⟨second, rfl, Int.le_of_lt (Int.not_le.1 ‹_›)⟩
  · cases left with
    | none => exact ⟨time, rfl, refl⟩
    | some first =>
        dsimp only
        split
        · exact ⟨first, rfl, ‹_›⟩
        · exact ⟨time, rfl, refl⟩

theorem exists_foldl_earlier_le {times : List (Option Instant)} {first : Option Instant}
    (among : first = some time ∨ some time ∈ times) :
    ∃ least, times.foldl earlier first = some least ∧ least ≤ time := by
  induction times generalizing first time with
  | nil => exact ⟨time, among.resolve_right List.not_mem_nil, Int.le_refl _⟩
  | cons next times inductionHypothesis =>
      rw [List.mem_cons, ← or_assoc] at among
      rcases among with here | later
      · obtain ⟨sooner, made, upTo⟩ := earlier_le (here.imp_right Eq.symm)
        obtain ⟨least, found, before⟩ := inductionHypothesis (Or.inl made)
        exact ⟨least, found, Instant.le_trans before upTo⟩
      · exact inductionHypothesis (Or.inr later)

/-- What a schedule finds next, its fields name. -/
theorem fires_of_next? (fill : fields.Fill table)
    (tables : schedule.timetables = fields.timetables table)
    (parsed : parse expression = .ok schedule) (found : schedule.next? reference = some time) :
    fields.Fires time ∧ reference < time ∧ time.civil.date.year ≤ 2100 := by
  obtain ⟨⟨start, other, among, holds⟩, after⟩ := next?_sound parsed found
  obtain ⟨year, named, year_eq⟩ := holds.year
  have within : 1970 ≤ year ∧ year ≤ 2100 :=
    (isOrderly_of_parse parsed other among).years.bounds named
  have last : time.civil.date.year ≤ 2100 := by omega
  rw [tables] at among
  exact ⟨(fill.fires_iff (by omega) last).2 ⟨start, other, among, holds⟩, after, last⟩

/-- A schedule misses no instant up to 2100 that its fields name. -/
theorem exists_next?_le (fill : fields.Fill table)
    (tables : schedule.timetables = fields.timetables table)
    (parsed : parse expression = .ok schedule) (modern : 0 ≤ reference.nanos)
    (fires : fields.Fires time) (after : reference < time) (last : time.civil.date.year ≤ 2100) :
    ∃ next, schedule.next? reference = some next ∧ next ≤ time := by
  have later : reference.nanos < time.nanos := after
  have first : 1970 ≤ time.civil.date.year := by
    refine year_ge_of_seconds_nonneg time.isValid_civil ?_
    rw [Instant.seconds_civil, Instant.seconds]
    omega
  obtain ⟨start, other, among, holds⟩ := (fill.fires_iff first last).1 fires
  have everyYear := fill.years_of_mem among
  rw [← tables] at among
  obtain ⟨next, found, upTo⟩ := Timetable.exists_next?_le
    (isOrderly_of_parse parsed other among) everyYear modern start holds after
  have inTimes : some next ∈ schedule.timetables.map (·.next? reference) :=
    List.mem_map.2 ⟨other, among, found⟩
  obtain ⟨least, foundLeast, before⟩ := exists_foldl_earlier_le (Or.inr inTimes)
  exact ⟨least, foundLeast, Instant.le_trans before upTo⟩

/-- The next time of a schedule of whole fields is the least instant after a reference from 1970
on that the fields name, and there is none exactly if they name none up to 2100. -/
theorem next?_firesNext (fieldsOf : fields.Of expression) (whole : fields.AreWhole)
    (parsed : parse expression = .ok schedule) (modern : 0 ≤ reference.nanos) :
    (∀ time, schedule.next? reference = some time → fields.FiresNext reference time) ∧
      (schedule.next? reference = none ↔
        ¬ ∃ time, fields.Fires time ∧ reference < time ∧ time.civil.date.year ≤ 2100) := by
  obtain ⟨table, fill, tables⟩ :=
    (whole.areSeamless fieldsOf).standApart fieldsOf parsed
  refine ⟨fun time found => ?_, fun none => ?_, fun never => ?_⟩
  · obtain ⟨fires, after, last⟩ := fires_of_next? fill tables parsed found
    refine ⟨fires, after, fun other othersFires othersAfter => ?_⟩
    by_cases lastOther : other.civil.date.year ≤ 2100
    · obtain ⟨next, foundNext, upTo⟩ :=
        exists_next?_le fill tables parsed modern othersFires othersAfter lastOther
      obtain rfl := Option.some.inj (found.symm.trans foundNext)
      exact upTo
    · refine Int.not_lt.1 fun before => lastOther ?_
      have earlier : other.seconds ≤ time.seconds :=
        Int.ediv_le_ediv (by decide) (Int.le_of_lt before)
      have years := year_le_of_seconds_le other.isValid_civil time.isValid_civil
        (by rwa [Instant.seconds_civil, Instant.seconds_civil])
      exact Int.le_trans years last
  · rintro ⟨time, fires, after, last⟩
    obtain ⟨next, found, _⟩ := exists_next?_le fill tables parsed modern fires after last
    rw [none] at found
    cases found
  · refine Option.eq_none_iff_forall_ne_some.2 fun time found => never ⟨time, ?_⟩
    exact fires_of_next? fill tables parsed found

/-- On the first of January 2024, a Monday, the next of the thirteenths and Fridays is the
fifth. -/
theorem firesNext_friday : ∃ (schedule : Schedule) (fields : Fields),
    parse "0 0 13 * 5" = .ok schedule ∧ fields.Of "0 0 13 * 5" ∧ fields.AreWhole ∧
      fields.FiresNext (CivilTime.mk ⟨2024, 1, 1⟩ 12 0 0).instant
        (CivilTime.mk ⟨2024, 1, 5⟩ 0 0 0).instant := by
  have found : ∃ schedule, parse "0 0 13 * 5" = .ok schedule ∧
      schedule.next? (CivilTime.mk ⟨2024, 1, 1⟩ 12 0 0).instant =
        some (CivilTime.mk ⟨2024, 1, 5⟩ 0 0 0).instant := ⟨_, rfl, by decide +kernel⟩
  obtain ⟨schedule, parsed, found⟩ := found
  have fieldsOf : Fields.Of ⟨['0'], ['0'], ['1', '3'], ['*'], ['6']⟩ "0 0 13 * 5" :=
    ⟨['5'], by decide, rfl⟩
  have whole : Fields.AreWhole ⟨['0'], ['0'], ['1', '3'], ['*'], ['6']⟩ :=
    ⟨⟨_, rfl⟩, ⟨_, rfl⟩, ⟨_, rfl⟩, ⟨_, rfl⟩, ⟨_, rfl⟩⟩
  exact ⟨schedule, _, parsed, fieldsOf, whole,
    (next?_firesNext fieldsOf whole parsed (by decide +kernel)).1 _ found⟩

end Schedule

end NodeFleet.Cron
