import Mathlib.Data.Int.LeastGreatest
import NodeFleet.Proofs.Cron.Least
import NodeFleet.Proofs.Cron.Schedule

/-!
# Expressions with a column of years

An expression of seven fields stands for one timetable, which may leave out the year of the
reference.  The search enters its first year where the start of the search stands in another one,
so that it finds the first of the occurrences that it reaches from there.
-/

namespace NodeFleet.Cron

open Calendar Text

namespace Schedule

variable {schedule : Schedule} {expression : String} {table : Timetable}
  {reference time : Instant}

/-- The least occurrence of a schedule after a reference. -/
structure OccursFirst (schedule : Schedule) (reference time : Instant) : Prop where
  occurs : schedule.Occurs time
  after : reference < time
  least : ∀ other, schedule.Occurs other → reference < other → time ≤ other

/-- The least of the occurrences of a timetable after a reference that the search reaches. -/
structure ReachedFirst (table : Timetable) (reference time : Instant) : Prop where
  occurs : Occurs ⟨[table]⟩ time
  after : reference < time
  reached : table.Reaches reference time
  least : ∀ other, Occurs ⟨[table]⟩ other → reference < other → table.Reaches reference other →
    time ≤ other

/-- If a schedule occurs after a reference, its next time is the first occurrence, and it is said
never to fire only if it does not occur any more. -/
structure FindsFirst (schedule : Schedule) (expression : String) (reference : Instant) : Prop where
  finds : (∃ time, schedule.Occurs time ∧ reference < time) →
    ∃ time, schedule.next? reference = some time ∧ schedule.OccursFirst reference time
  fails : ∀ now, schedule.untilNext expression reference now = .error (.neverFires expression) →
    ¬ ∃ time, schedule.Occurs time ∧ reference < time

theorem occurs_singleton_iff :
    Occurs ⟨[table]⟩ time ↔ time = .ofSeconds time.seconds ∧ table.Holds time.civil := by
  simp [Occurs]

theorem next?_singleton (table : Timetable) (reference : Instant) :
    next? ⟨[table]⟩ reference = table.next? reference := by
  show earlier none (table.next? reference) = table.next? reference
  cases table.next? reference <;> rfl

theorem untilNext_eq_neverFires_iff {now : Instant} :
    schedule.untilNext expression reference now = .error (.neverFires expression) ↔
      schedule.next? reference = none := by
  unfold untilNext
  cases schedule.next? reference <;> simp

/-- An expression of seven words is read as one timetable. -/
theorem exists_timetable_of_parse (seven : (words expression.toList).length = 7)
    (parsed : parse expression = .ok schedule) :
    ∃ table, Timetable.read? (line (words expression.toList)) = some table ∧
      schedule = ⟨[table]⟩ := by
  obtain ⟨written, readLines, read⟩ := exists_ok_of_bind (read_of_parse parsed)
  obtain ⟨tables, readTables, made⟩ := exists_ok_of_bind read
  obtain rfl := Except.ok.inj made
  have oneLine : lines (words expression.toList) = .ok [line (words expression.toList)] := by
    match words expression.toList, seven with
    | [_, _, _, _, _, _, _], _ => rfl
  obtain rfl := Except.ok.inj (oneLine.symm.trans readLines)
  have tables := forall₂_of_mapM readTables
  simp only [List.forall₂_cons_left_iff, List.forall₂_nil_left_iff] at tables
  obtain ⟨table, _, readOnly, rfl, rfl⟩ := tables
  exact ⟨table, readLine_eq_ok_iff.1 readOnly, rfl⟩

/-- What happens after a reference at whole seconds happens there for the first time. -/
theorem exists_first {happens : Instant → Prop} (after : ∀ time, happens time → reference < time)
    (whole : ∀ time, happens time → time = .ofSeconds time.seconds) (once : ∃ time, happens time) :
    ∃ time, happens time ∧ ∀ other, happens other → time ≤ other := by
  obtain ⟨time, here⟩ := once
  obtain ⟨first, happensFirst, least⟩ :=
    Int.exists_least_of_bdd (P := fun seconds => happens (.ofSeconds seconds))
      ⟨reference.nanos / 1000000000, fun seconds here => by
        have later : reference.nanos < seconds * 1000000000 := after _ here
        omega⟩ ⟨time.seconds, whole time here ▸ here⟩
  refine ⟨.ofSeconds first, happensFirst, fun other here => ?_⟩
  have ordered : first ≤ other.seconds := least _ (whole other here ▸ here)
  refine Instant.ofSeconds_le_iff.2 ?_
  show first * 1000000000 ≤ other.seconds * 1000000000
  omega

/-- The next time of a timetable is the first occurrence that the search reaches. -/
theorem next?_eq_some_iff_reachedFirst (orderly : table.IsOrderly) :
    table.next? reference = some time ↔ ReachedFirst table reference time := by
  constructor
  · intro found
    obtain ⟨after, whole, holds, reached⟩ := Timetable.next?_sound orderly found
    refine ⟨occurs_singleton_iff.2 ⟨whole, holds⟩, after, reached, ?_⟩
    intro other occurs afterToo reachedToo
    obtain ⟨wholeToo, holdsToo⟩ := occurs_singleton_iff.1 occurs
    obtain ⟨next, foundNext, upTo⟩ :=
      Timetable.exists_next?_le_of_reaches orderly wholeToo holdsToo afterToo reachedToo
    obtain rfl := Option.some.inj (found.symm.trans foundNext)
    exact upTo
  · intro first
    obtain ⟨whole, holds⟩ := occurs_singleton_iff.1 first.occurs
    obtain ⟨next, found, upTo⟩ :=
      Timetable.exists_next?_le_of_reaches orderly whole holds first.after first.reached
    obtain ⟨after, wholeNext, holdsNext, reached⟩ := Timetable.next?_sound orderly found
    have notBefore := first.least next (occurs_singleton_iff.2 ⟨wholeNext, holdsNext⟩) after reached
    rw [found, Instant.le_antisymm upTo notBefore]

theorem next?_eq_none_iff_unreached (orderly : table.IsOrderly) :
    table.next? reference = none ↔
      ¬ ∃ time, Occurs ⟨[table]⟩ time ∧ reference < time ∧ table.Reaches reference time := by
  constructor
  · rintro none ⟨time, occurs, after, reached⟩
    obtain ⟨whole, holds⟩ := occurs_singleton_iff.1 occurs
    obtain ⟨next, found, _⟩ :=
      Timetable.exists_next?_le_of_reaches orderly whole holds after reached
    rw [none] at found
    cases found
  · intro never
    refine Option.eq_none_iff_forall_ne_some.2 fun time found => never ⟨time, ?_⟩
    have first := (next?_eq_some_iff_reachedFirst orderly).1 found
    exact ⟨first.occurs, first.after, first.reached⟩

/-- Every expression of seven fields finds the first occurrence after every reference. -/
def YearsFindFirst : Prop :=
  ∀ (expression : String) (schedule : Schedule), (words expression.toList).length = 7 →
    parse expression = .ok schedule → ∀ reference, schedule.FindsFirst expression reference

/-- In June 2024, the first of January 2030 is not found. -/
theorem not_yearsFindFirst : ¬ YearsFindFirst := by
  intro finds
  have reads : ∃ schedule, parse "0 0 0 1 1 * 2030" = .ok schedule ∧
      schedule.next? (CivilTime.mk ⟨2024, 6, 15⟩ 12 0 0).instant = none ∧
      ∃ table ∈ schedule.timetables, table.Holds (CivilTime.mk ⟨2030, 1, 1⟩ 0 0 0) :=
    ⟨_, rfl, by decide +kernel, _, List.mem_cons_self, by decide, by decide, by decide, by decide,
      by decide, by decide, 2030, by decide, rfl⟩
  obtain ⟨schedule, parsed, none, table, among, holds⟩ := reads
  have occurs : schedule.Occurs (CivilTime.mk ⟨2030, 1, 1⟩ 0 0 0).instant :=
    ⟨by decide +kernel, table, among, by
      rwa [CivilTime.civil_instant ⟨by decide, by decide, by decide, by decide⟩]⟩
  obtain ⟨time, found, _⟩ := (finds _ schedule (by decide) parsed
    (CivilTime.mk ⟨2024, 6, 15⟩ 12 0 0).instant).finds ⟨_, occurs, by decide +kernel⟩
  rw [none] at found
  cases found

/-- The next time of an expression of seven fields is the first occurrence that the search
reaches, and it is said never to fire exactly if the search reaches none.  So the first occurrence
is found exactly if the search reaches it. -/
theorem findsFirst_iff_reaches (seven : (words expression.toList).length = 7)
    (parsed : parse expression = .ok schedule) :
    ∃ table, Timetable.read? (line (words expression.toList)) = some table ∧
      schedule = ⟨[table]⟩ ∧ ∀ reference,
        (∀ time, schedule.next? reference = some time ↔ ReachedFirst table reference time) ∧
        (∀ now, schedule.untilNext expression reference now = .error (.neverFires expression) ↔
          ¬ ∃ time, schedule.Occurs time ∧ reference < time ∧ table.Reaches reference time) ∧
        (schedule.FindsFirst expression reference ↔
          ∀ time, schedule.OccursFirst reference time → table.Reaches reference time) := by
  obtain ⟨table, read, rfl⟩ := exists_timetable_of_parse seven parsed
  have orderly := Timetable.isOrderly_of_read? read
  have found : ∀ {reference time}, next? ⟨[table]⟩ reference = some time ↔
      ReachedFirst table reference time := by
    intro reference time
    rw [next?_singleton, next?_eq_some_iff_reachedFirst orderly]
  have missing : ∀ {reference now}, untilNext ⟨[table]⟩ expression reference now =
      .error (.neverFires expression) ↔ ¬ ∃ time, Occurs ⟨[table]⟩ time ∧ reference < time ∧
        table.Reaches reference time := by
    intro reference now
    rw [untilNext_eq_neverFires_iff, next?_singleton, next?_eq_none_iff_unreached orderly]
  refine ⟨table, read, rfl, fun reference => ⟨fun time => found, fun now => missing, ?_, ?_⟩⟩
  · intro finds time first
    obtain ⟨next, foundNext, firstToo⟩ := finds.finds ⟨time, first.occurs, first.after⟩
    have upTo := first.least next firstToo.occurs firstToo.after
    have notBefore := firstToo.least time first.occurs first.after
    rw [Instant.le_antisymm upTo notBefore]
    exact (found.1 foundNext).reached
  · intro reaches
    have firstOf : (∃ time, Occurs ⟨[table]⟩ time ∧ reference < time) →
        ∃ time, OccursFirst ⟨[table]⟩ reference time := by
      intro once
      obtain ⟨time, ⟨occurs, after⟩, least⟩ := exists_first (fun time here => here.2)
        (fun time here => here.1.1) once
      exact ⟨time, occurs, after, fun other occurs after => least other ⟨occurs, after⟩⟩
    refine ⟨fun once => ?_, fun now fails once => ?_⟩
    · obtain ⟨time, first⟩ := firstOf once
      exact ⟨time, found.2 ⟨first.occurs, first.after, reaches time first,
        fun other occurs after _ => first.least other occurs after⟩, first⟩
    · obtain ⟨time, first⟩ := firstOf once
      exact missing.1 fails ⟨time, first.occurs, first.after, reaches time first⟩

/-- In June 2024, the first of the New Year's Days of 2030 and 2031 that is reached is the later
one. -/
theorem reachedFirst_laterNewYear : ∃ (schedule : Schedule) (table : Timetable),
    parse "0 0 0 1 1 * 2030-2031" = .ok schedule ∧
      (words "0 0 0 1 1 * 2030-2031".toList).length = 7 ∧ schedule = ⟨[table]⟩ ∧
      ReachedFirst table (CivilTime.mk ⟨2024, 6, 15⟩ 12 0 0).instant
        (CivilTime.mk ⟨2031, 1, 1⟩ 0 0 0).instant := by
  have found : ∃ schedule, parse "0 0 0 1 1 * 2030-2031" = .ok schedule ∧
      schedule.next? (CivilTime.mk ⟨2024, 6, 15⟩ 12 0 0).instant =
        some (CivilTime.mk ⟨2031, 1, 1⟩ 0 0 0).instant := ⟨_, rfl, by decide +kernel⟩
  obtain ⟨schedule, parsed, found⟩ := found
  obtain ⟨table, _, schedule_eq, all⟩ := findsFirst_iff_reaches (by decide) parsed
  exact ⟨schedule, table, parsed, by decide, schedule_eq, ((all _).1 _).1 found⟩

end Schedule

end NodeFleet.Cron
