import Mathlib.Data.List.Forall2
import NodeFleet.Cron.Schedule
import NodeFleet.Proofs.Cron.Readers
import NodeFleet.Proofs.Cron.Search

/-!
# Occurrences of a schedule

Every timetable that is read is orderly, so that a schedule is due only when one of its
occurrences has passed since the reference.
-/

namespace NodeFleet.Cron

open Calendar Text

/-! ## What is read is orderly -/

theorem Column.lists_all (column : Column) : column.Lists column.all := List.Sublist.refl _

theorem Column.lists_of_fieldNumbers? {column : Column} {items : List Item} {numbers : List Nat}
    (stands : column.fieldNumbers? items = some numbers) : column.Lists numbers := by
  obtain ⟨all, _, made⟩ := Option.bind_eq_some_iff.1 stands
  obtain rfl := Option.some.inj made
  exact List.filter_sublist

theorem lists_of_readField? {column : Column} {text rest : List Char} {numbers : List Nat}
    (read : readField? column text = some (numbers, rest)) : column.Lists numbers := by
  obtain ⟨⟨items, left⟩, _, accepted⟩ := Option.bind_eq_some_iff.1 read
  obtain ⟨found, stands, made⟩ := Option.bind_eq_some_iff.1 accepted
  obtain ⟨rfl, rfl⟩ := Prod.mk.inj (Option.some.inj made)
  exact Column.lists_of_fieldNumbers? stands

theorem lists_readYears (text : List Char) : Column.year.Lists (readYears text).1 := by
  unfold readYears
  cases read : readField? .year text with
  | none => exact Column.lists_all .year
  | some years =>
      obtain ⟨numbers, rest⟩ := years
      exact lists_of_readField? read

theorem lists_of_readColumns? {columns : List Column} {text rest : List Char}
    {found : List (List Nat)} (read : readColumns? columns text = some (found, rest)) :
    List.Forall₂ Column.Lists columns found := by
  induction columns generalizing text found with
  | nil =>
      obtain ⟨rfl, _⟩ := Prod.mk.inj (Option.some.inj read)
      exact .nil
  | cons column columns inductionHypothesis =>
      obtain ⟨⟨numbers, middle⟩, readFirst, read⟩ := Option.bind_eq_some_iff.1 read
      obtain ⟨⟨others, left⟩, readOthers, made⟩ := Option.bind_eq_some_iff.1 read
      obtain ⟨rfl, rfl⟩ := Prod.mk.inj (Option.some.inj made)
      exact .cons (lists_of_readField? readFirst) (inductionHypothesis readOthers)

theorem Timetable.isOrderly_of_read? {text : List Char} {table : Timetable}
    (read : Timetable.read? text = some table) : table.IsOrderly := by
  obtain ⟨rest, columns, readYears⟩ := exists_columns_of_read? read
  have years := lists_readYears rest
  rw [readYears] at years
  have lists := lists_of_readColumns? columns
  simp only [List.forall₂_cons] at lists
  obtain ⟨seconds, minutes, hours, days, months, weekdays, _⟩ := lists
  exact ⟨seconds, minutes, hours, days, months, weekdays, years⟩

namespace Schedule

variable {schedule : Schedule} {expression : String} {reference now time : Instant}

theorem exists_ok_of_bind {ε α β : Type} {first : Except ε α} {next : α → Except ε β} {value : β}
    (succeeds : first >>= next = .ok value) :
    ∃ given, first = .ok given ∧ next given = .ok value := by
  cases first with
  | error fault => cases succeeds
  | ok given => exact ⟨given, rfl, succeeds⟩

theorem forall₂_of_mapM {ε α β : Type} {read : α → Except ε β} {given : List α} {made : List β}
    (all : given.mapM read = .ok made) :
    List.Forall₂ (fun source result => read source = .ok result) given made := by
  induction given generalizing made with
  | nil =>
      obtain rfl := Except.ok.inj all
      exact .nil
  | cons source given inductionHypothesis =>
      rw [List.mapM_cons] at all
      obtain ⟨first, readFirst, all⟩ := exists_ok_of_bind all
      obtain ⟨rest, readRest, all⟩ := exists_ok_of_bind all
      obtain rfl := Except.ok.inj all
      exact .cons readFirst (inductionHypothesis readRest)

theorem readLine_eq_ok_iff {line : List Char} {table : Timetable} :
    readLine line = .ok table ↔ Timetable.read? line = some table := by
  unfold readLine
  cases Timetable.read? line <;> simp

theorem isOrderly_of_readLines {lines : List (List Char)} {tables : List Timetable}
    (read : List.Forall₂ (fun line table => readLine line = .ok table) lines tables) :
    ∀ table ∈ tables, table.IsOrderly := by
  induction read with
  | nil => simp
  | cons readFirst _ inductionHypothesis =>
      exact List.forall_mem_cons.2
        ⟨Timetable.isOrderly_of_read? (readLine_eq_ok_iff.1 readFirst), inductionHypothesis⟩

theorem read_of_parse (parsed : parse expression = .ok schedule) :
    Schedule.read expression = .ok schedule := by
  unfold parse at parsed
  cases read : Schedule.read expression with
  | error fault =>
      rw [read] at parsed
      cases parsed
  | ok schedule' =>
      rw [read] at parsed
      rw [Except.ok.inj parsed]

/-- All timetables of a schedule that is read are orderly. -/
theorem isOrderly_of_parse (parsed : parse expression = .ok schedule) :
    ∀ table ∈ schedule.timetables, table.IsOrderly := by
  obtain ⟨lines, _, read⟩ := exists_ok_of_bind (read_of_parse parsed)
  obtain ⟨tables, readTables, made⟩ := exists_ok_of_bind read
  obtain rfl := Except.ok.inj made
  exact isOrderly_of_readLines (forall₂_of_mapM readTables)

/-! ## Occurrences -/

/-- A schedule occurs at the start of a second whose civil time one of its timetables
holds. -/
def Occurs (schedule : Schedule) (time : Instant) : Prop :=
  time = .ofSeconds time.seconds ∧ ∃ table ∈ schedule.timetables, table.Holds time.civil

/-- No schedule that is read occurs before 1970. -/
theorem Occurs.seconds_nonneg (occurs : schedule.Occurs time)
    (parsed : parse expression = .ok schedule) : 0 ≤ time.seconds := by
  obtain ⟨_, table, among, holds⟩ := occurs
  obtain ⟨year, named, inYear⟩ := holds.year
  have first : 1970 ≤ year :=
    ((isOrderly_of_parse parsed table among).years.bounds named).1
  have years : daysBeforeYear 1970 ≤ daysBeforeYear time.civil.date.year :=
    daysBeforeYear_mono (by omega)
  have start := Date.le_dayNumber time.isValid_civil.date
  have epoch : daysBeforeYear 1970 = daysBeforeEpoch := by decide
  have seconds := CivilTime.seconds_eq time.civil
  rw [Instant.seconds_civil] at seconds
  omega

theorem earlier_eq_some {left right : Option Instant} (least : earlier left right = some time) :
    left = some time ∨ right = some time := by
  unfold earlier at least
  split at least
  · split at least
    · exact Or.inl least
    · exact Or.inr least
  · exact Or.inl least
  · exact Or.inr least

theorem exists_of_foldl_earlier {times : List (Option Instant)} {first : Option Instant}
    (least : times.foldl earlier first = some time) : first = some time ∨ some time ∈ times := by
  induction times generalizing first with
  | nil => exact Or.inl least
  | cons next times inductionHypothesis =>
      rcases inductionHypothesis least with early | late
      · exact (earlier_eq_some early).imp_right fun here => by simp [here]
      · exact Or.inr (List.mem_cons_of_mem _ late)

/-- The next time of a schedule is an occurrence after the reference. -/
theorem next?_sound (parsed : parse expression = .ok schedule)
    (found : schedule.next? reference = some time) : schedule.Occurs time ∧ reference < time := by
  rcases exists_of_foldl_earlier found with none | member
  · cases none
  · obtain ⟨table, among, next⟩ := List.mem_map.1 member
    obtain ⟨after, whole, holds, _⟩ :=
      Timetable.next?_sound (isOrderly_of_parse parsed table among) next
    exact ⟨⟨whole, table, among, holds⟩, after⟩

/-- When there is no time left, an occurrence has come since the reference. -/
theorem exists_occurs_of_untilNext (parsed : parse expression = .ok schedule)
    (due : schedule.untilNext expression reference now = .ok .zero) :
    ∃ time, schedule.Occurs time ∧ reference < time ∧ time ≤ now := by
  unfold untilNext at due
  split at due
  · cases due
  · rename_i time found
    obtain ⟨occurs, after⟩ := next?_sound parsed found
    refine ⟨time, occurs, after, ?_⟩
    have none : (time.nanos - now.nanos).toNat = 0 :=
      congrArg Duration.nanos (Except.ok.inj due)
    show time.nanos ≤ now.nanos
    omega

end Schedule

end NodeFleet.Cron
