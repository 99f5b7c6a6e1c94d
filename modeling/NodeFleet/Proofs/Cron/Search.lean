import NodeFleet.Cron.Search
import NodeFleet.Proofs.Calendar.Date

/-!
# The search finds times of the timetable

What the search for the next time finds is a time that the timetable names, and it is after
the reference.  The numbers of a unit are bounded by the start of the search only as long as
all greater units stand where the start has them.
-/

namespace NodeFleet.Cron

open Calendar

/-! ## Orderly timetables -/

/-- A timetable holds a civil time: every column names the number of its unit. -/
structure Timetable.Holds (table : Timetable) (time : CivilTime) : Prop where
  second : time.second ∈ table.seconds
  minute : time.minute ∈ table.minutes
  hour : time.hour ∈ table.hours
  day : time.date.day ∈ table.days
  month : time.date.month ∈ table.months
  weekday : time.date.weekday ∈ table.weekdays
  year : ∃ year ∈ table.years, time.date.year = (year : Int)

/-- The numbers of a column, without repetition and in increasing order. -/
abbrev Column.Lists (column : Column) (numbers : List Nat) : Prop :=
  numbers.Sublist column.all

/-- Every column of a timetable lists its numbers in order. -/
structure Timetable.IsOrderly (table : Timetable) : Prop where
  seconds : Column.second.Lists table.seconds
  minutes : Column.minute.Lists table.minutes
  hours : Column.hour.Lists table.hours
  days : Column.day.Lists table.days
  months : Column.month.Lists table.months
  weekdays : Column.weekday.Lists table.weekdays
  years : Column.year.Lists table.years

section Columns

variable {column : Column} {numbers : List Nat}

theorem Column.Lists.increasing (lists : column.Lists numbers) : numbers.Pairwise (· < ·) :=
  (List.pairwise_lt_range' (s := column.low) (n := column.high + 1 - column.low)).sublist lists

theorem Column.mem_all_iff {value : Nat} :
    value ∈ column.all ↔ column.low ≤ value ∧ value ≤ column.high := by
  rw [Column.all, List.mem_range'_1]
  omega

theorem Column.Lists.bounds (lists : column.Lists numbers) {value : Nat}
    (member : value ∈ numbers) : column.low ≤ value ∧ value ≤ column.high :=
  mem_all_iff.1 (lists.subset member)

/-- Of increasing numbers, the least that passes a test comes first. -/
theorem head?_filter_of_least {passes : Nat → Bool} {least : Nat}
    (increasing : numbers.Pairwise (· < ·)) (member : least ∈ numbers)
    (pass : passes least = true)
    (leastPass : ∀ value ∈ numbers, passes value = true → least ≤ value) :
    (numbers.filter passes).head? = some least := by
  induction numbers with
  | nil => cases member
  | cons first rest inductionHypothesis =>
      obtain ⟨smaller, increasing⟩ := List.pairwise_cons.1 increasing
      rcases List.mem_cons.1 member with rfl | later
      · simp [pass]
      · have fails : passes first = false := by
          refine Bool.eq_false_iff.2 fun passesFirst => ?_
          have below := smaller least later
          have above := leastPass first List.mem_cons_self passesFirst
          omega
        simp only [List.filter_cons, fails]
        exact inductionHypothesis increasing later fun value member =>
          leastPass value (List.mem_cons_of_mem _ member)

/-- Of increasing numbers, one that comes after the first is another one. -/
theorem head?_ne_of_mem_tail {first value : Nat}
    (increasing : (first :: numbers).Pairwise (· < ·)) (member : value ∈ numbers) :
    (first :: numbers).head? ≠ some value := by
  have below := (List.pairwise_cons.1 increasing).1 value member
  simp only [List.head?_cons, ne_eq, Option.some.injEq]
  omega

end Columns

theorem Timetable.IsOrderly.isValid {table : Timetable} (orderly : table.IsOrderly) {year : Int}
    {month day : Nat} (monthNamed : month ∈ table.months) (dayNamed : day ∈ table.days)
    (short : day ≤ monthLength year month) : (Date.mk year month day).isValid = true := by
  obtain ⟨firstMonth, lastMonth⟩ := orderly.months.bounds monthNamed
  exact Date.isValid_iff.2 ⟨firstMonth, lastMonth, (orderly.days.bounds dayNamed).1, short⟩

/-! ## The search within a day -/

/-- A timetable holds a time of a date, whatever it holds of dates. -/
structure Timetable.HoldsOn (table : Timetable) (date : Date) (time : CivilTime) : Prop where
  date_eq : time.date = date
  second : time.second ∈ table.seconds
  minute : time.minute ∈ table.minutes
  hour : time.hour ∈ table.hours
  weekday : date.weekday ∈ table.weekdays

section Search

variable {table : Timetable} {start time : CivilTime} {date : Date} {bounded left : Bounded}

theorem searchSeconds_sound {hour minute : Nat} (hourNamed : hour ∈ table.hours)
    (minuteNamed : minute ∈ table.minutes)
    (found : searchSeconds table start date hour minute bounded = (.time time, left)) :
    table.HoldsOn date time ∧ time.hour = hour ∧ time.minute = minute ∧
      (bounded.second = true → start.second ≤ time.second) := by
  unfold searchSeconds at found
  dsimp only at found
  split at found
  · cases found
  · rename_i second first
    split at found
    · rename_i named
      obtain rfl := Found.time.inj (Prod.mk.inj found).1
      have least := List.find?_some first
      refine ⟨⟨rfl, List.mem_of_find?_eq_some first, minuteNamed, hourNamed, by simpa using named⟩,
        rfl, rfl, fun held => ?_⟩
      simpa [held] using least
    · cases found

theorem searchMinutes_sound {hour : Nat} {minutes : List Nat} (hourNamed : hour ∈ table.hours)
    (named : minutes ⊆ table.minutes) (increasing : minutes.Pairwise (· < ·))
    (found : searchMinutes table start date hour minutes bounded = (.time time, left)) :
    table.HoldsOn date time ∧ time.hour = hour ∧ time.minute ∈ minutes ∧
      (bounded.second = true → minutes.head? = some time.minute →
        start.second ≤ time.second) := by
  induction minutes generalizing bounded with
  | nil => cases found
  | cons minute minutes inductionHypothesis =>
      obtain ⟨minuteNamed, restNamed⟩ := List.cons_subset.1 named
      rw [searchMinutes] at found
      split at found
      · obtain ⟨holds, inHour, later, _⟩ :=
          inductionHypothesis restNamed (List.pairwise_cons.1 increasing).2 found
        exact ⟨holds, inHour, List.mem_cons_of_mem _ later, fun _ first =>
          absurd first (head?_ne_of_mem_tail increasing later)⟩
      · obtain ⟨holds, inHour, inMinute, least⟩ := searchSeconds_sound hourNamed minuteNamed found
        exact ⟨holds, inHour, inMinute ▸ List.mem_cons_self, fun held _ => least held⟩

theorem searchHours_sound {hours : List Nat} (orderly : table.IsOrderly) (valid : start.IsValid)
    (named : hours ⊆ table.hours) (increasing : hours.Pairwise (· < ·))
    (found : searchHours table start date hours bounded = (.time time, left)) :
    table.HoldsOn date time ∧ time.hour ∈ hours ∧
      (bounded.minute = true → bounded.second = true → hours.head? = some time.hour →
        start.minute * 60 + start.second ≤ time.minute * 60 + time.second) := by
  have minutes := orderly.minutes.increasing
  induction hours generalizing bounded with
  | nil => cases found
  | cons hour hours inductionHypothesis =>
      obtain ⟨hourNamed, restNamed⟩ := List.cons_subset.1 named
      rw [searchHours] at found
      split at found
      · obtain ⟨holds, later, _⟩ :=
          inductionHypothesis restNamed (List.pairwise_cons.1 increasing).2 found
        exact ⟨holds, List.mem_cons_of_mem _ later, fun _ _ first =>
          absurd first (head?_ne_of_mem_tail increasing later)⟩
      · obtain ⟨holds, inHour, atLeast, least⟩ :=
          searchMinutes_sound hourNamed List.filter_sublist.subset (minutes.filter _) found
        refine ⟨holds, inHour ▸ List.mem_cons_self, fun heldMinute heldSecond _ => ?_⟩
        have late : start.minute ≤ time.minute := by
          simpa [heldMinute] using (List.mem_filter.1 atLeast).2
        rcases Nat.eq_or_lt_of_le late with same | later
        · have follows := least (by simp [heldMinute, same, holds.minute, heldSecond])
            (head?_filter_of_least minutes holds.minute (by simp [heldMinute, same])
              (by simp [heldMinute, same]))
          omega
        · have below := valid.second
          omega

/-! ## The search through the days -/

theorem searchDays_sound {year : Int} {month : Nat} {days : List Nat} (orderly : table.IsOrderly)
    (valid : start.IsValid) (increasing : days.Pairwise (· < ·))
    (found : searchDays table start year month days bounded = (some time, left)) :
    ∃ day ∈ days, table.HoldsOn ⟨year, month, day⟩ time ∧
      (bounded.hour = true → bounded.minute = true → bounded.second = true →
        days.head? = some day → start.ofDay ≤ time.ofDay) := by
  have hours := orderly.hours.increasing
  induction days generalizing bounded with
  | nil => cases found
  | cons day days inductionHypothesis =>
      have passesOn : ∀ {entered : Bounded},
          searchDays table start year month days entered = (some time, left) →
            ∃ later ∈ day :: days, table.HoldsOn ⟨year, month, later⟩ time ∧
              (day :: days).head? ≠ some later := by
        intro entered found
        obtain ⟨later, member, holds, _⟩ :=
          inductionHypothesis (List.pairwise_cons.1 increasing).2 found
        exact ⟨later, List.mem_cons_of_mem _ member, holds,
          head?_ne_of_mem_tail increasing member⟩
      rw [searchDays] at found
      split at found
      · rename_i foundInDay
        obtain rfl := (Option.some.inj (Prod.mk.inj found).1).symm
        obtain ⟨holds, atLeast, least⟩ := searchHours_sound orderly valid
          List.filter_sublist.subset (hours.filter _) foundInDay
        refine ⟨day, List.mem_cons_self, holds, fun heldHour heldMinute heldSecond _ => ?_⟩
        have late : start.hour ≤ time.hour := by
          simpa [heldHour] using (List.mem_filter.1 atLeast).2
        unfold CivilTime.ofDay
        rcases Nat.eq_or_lt_of_le late with same | later
        · have follows := least (by simp [heldHour, same, holds.hour, heldMinute])
            (by simp [heldHour, same, holds.hour, heldSecond])
            (head?_filter_of_least hours holds.hour (by simp [heldHour, same])
              (by simp [heldHour, same]))
          omega
        · have below := valid.minute
          have belowToo := valid.second
          omega
      · obtain ⟨later, member, holds, other⟩ := passesOn found
        exact ⟨later, member, holds, fun _ _ _ first => absurd first other⟩
      · obtain ⟨later, member, holds, other⟩ := passesOn found
        exact ⟨later, member, holds, fun _ _ _ first => absurd first other⟩

/-- A time in the month of the start is not before the start, if its day is not. -/
theorem seconds_le_of_day (valid : start.IsValid) (sameYear : time.date.year = start.date.year)
    (sameMonth : time.date.month = start.date.month) (late : start.date.day ≤ time.date.day)
    (lateOfDay : time.date.day = start.date.day → start.ofDay ≤ time.ofDay) :
    start.seconds ≤ time.seconds := by
  rw [CivilTime.seconds_eq, CivilTime.seconds_eq]
  rcases Nat.eq_or_lt_of_le late with same | later
  · have sameDate : start.date.dayNumber = time.date.dayNumber := by
      rw [Date.dayNumber, Date.dayNumber, sameYear, sameMonth, same]
    have follows := lateOfDay same.symm
    omega
  · have days := Date.dayNumber_lt_of_day sameYear.symm sameMonth.symm later
    have below := valid.ofDay_lt
    omega

/-- A time on a later date than the start is not before the start. -/
theorem seconds_le_of_date (valid : start.IsValid)
    (later : start.date.dayNumber < time.date.dayNumber) : start.seconds ≤ time.seconds := by
  have below := valid.ofDay_lt
  rw [CivilTime.seconds_eq, CivilTime.seconds_eq]
  omega

/-- Where the search enters a year: where the start stands in its own year.  In a year whose month
is too short for the start, that is the last day of the month, from the time of day of the start on
only if the table has the day of the start at all. -/
def Timetable.entry (table : Timetable) (start : CivilTime) (year : Int) : CivilTime :=
  let last := monthLength year start.date.month
  if start.date.day ≤ last then { start with date := { start.date with year } }
  else if start.date.day ∈ table.days then { start with date := ⟨year, start.date.month, last⟩ }
  else ⟨⟨year, start.date.month, last⟩, 0, 0, 0⟩

theorem Timetable.date_entry (table : Timetable) (start : CivilTime) (year : Int) :
    (table.entry start year).date =
      ⟨year, start.date.month, min start.date.day (monthLength year start.date.month)⟩ := by
  unfold entry
  dsimp only
  split
  · rename_i longEnough
    rw [Nat.min_eq_left longEnough]
  · rename_i short
    rw [Nat.min_eq_right (Nat.le_of_not_le short)]
    split <;> rfl

theorem Timetable.ofDay_entry_of_mem {year : Int} (named : start.date.day ∈ table.days) :
    (table.entry start year).ofDay = start.ofDay := by
  unfold entry
  dsimp only
  split
  · rfl
  · rfl

theorem Timetable.ofDay_entry_of_short {year : Int}
    (short : monthLength year start.date.month < start.date.day)
    (other : start.date.day ∉ table.days) : (table.entry start year).ofDay = 0 := by
  simp only [entry, if_neg (Nat.not_le.2 short), if_neg other, CivilTime.ofDay]

/-- The year of the start is entered at the start. -/
theorem Timetable.entry_eq_start (table : Timetable) (valid : start.IsValid) :
    table.entry start start.date.year = start := by
  unfold entry
  dsimp only
  rw [if_pos (Date.isValid_iff.1 valid.date).2.2.2]

theorem Timetable.isValid_entry (table : Timetable) (valid : start.IsValid) (year : Int) :
    (table.entry start year).IsValid := by
  obtain ⟨firstMonth, lastMonth, firstDay, _⟩ := Date.isValid_iff.1 valid.date
  have days : 1 ≤ monthLength year start.date.month := by
    unfold monthLength
    split
    · split <;> omega
    · split <;> omega
  have date : (table.entry start year).date.isValid = true := by
    rw [date_entry]
    exact Date.isValid_iff.2 ⟨firstMonth, lastMonth, Nat.le_min.2 ⟨firstDay, days⟩,
      Nat.min_le_right _ _⟩
  refine ⟨date, ?_, ?_, ?_⟩
  all_goals
    unfold entry
    dsimp only
    split
  · exact valid.hour
  · split
    · exact valid.hour
    · exact Nat.succ_pos 23
  · exact valid.minute
  · split
    · exact valid.minute
    · exact Nat.succ_pos 59
  · exact valid.second
  · split
    · exact valid.second
    · exact Nat.succ_pos 59

theorem searchMonths_sound {year : Int} {months : List Nat} (orderly : table.IsOrderly)
    (valid : start.IsValid) (increasing : months.Pairwise (· < ·))
    (found : searchMonths table start year months bounded = (some time, left)) :
    ∃ month ∈ months, ∃ day ∈ table.days, day ≤ monthLength year month ∧
      table.HoldsOn ⟨year, month, day⟩ time ∧
      (bounded.day = true → bounded.hour = true → bounded.minute = true →
        bounded.second = true → months.head? = some month → month = start.date.month →
          (table.entry start year).seconds ≤ time.seconds) := by
  have days := orderly.days.increasing
  induction months generalizing bounded with
  | nil => cases found
  | cons month months inductionHypothesis =>
      rw [searchMonths] at found
      split at found
      · obtain ⟨later, member, day, named, short, holds, _⟩ :=
          inductionHypothesis (List.pairwise_cons.1 increasing).2 found
        exact ⟨later, List.mem_cons_of_mem _ member, day, named, short, holds,
          fun _ _ _ _ first => absurd first (head?_ne_of_mem_tail increasing member)⟩
      · obtain ⟨day, member, holds, least⟩ :=
          searchDays_sound orderly valid (days.filter _) found
        obtain ⟨named, within⟩ := List.mem_filter.1 member
        simp only [Bool.and_eq_true, decide_eq_true_eq] at within
        refine ⟨month, List.mem_cons_self, day, named, within.2, holds, ?_⟩
        rintro heldDay heldHour heldMinute heldSecond _ rfl
        have date_eq := holds.date_eq
        have entered := table.date_entry start year
        have late : min start.date.day (monthLength year start.date.month) ≤ day := by
          simpa [heldDay] using within.1
        refine seconds_le_of_day (table.isValid_entry valid year) (by rw [date_eq, entered])
          (by rw [date_eq, entered]) (by rw [date_eq, entered]; exact late) fun same => ?_
        have same : day = min start.date.day (monthLength year start.date.month) := by
          rwa [date_eq, entered] at same
        by_cases starts : start.date.day ∈ table.days
        · rw [Timetable.ofDay_entry_of_mem starts]
          refine least (by simp [heldDay, starts, heldHour]) (by simp [heldDay, starts, heldMinute])
            (by simp [heldDay, starts, heldSecond])
            (head?_filter_of_least days named (by simp [heldDay, ← same, within.2]) ?_)
          intro value _ pass
          simp only [heldDay, if_pos, Bool.and_eq_true, decide_eq_true_eq] at pass
          rw [same]
          exact pass.1
        · -- The day of the start is none of the table, so that the month is too short for it.
          have short : monthLength year start.date.month < start.date.day := by
            refine Nat.not_le.1 fun longEnough => starts ?_
            rw [Nat.min_eq_left longEnough] at same
            exact same ▸ named
          rw [Timetable.ofDay_entry_of_short short starts]
          exact Nat.zero_le _

/-- What is found is a time of a valid date; the first year is searched from its entry on. -/
theorem searchYears_sound {years : List Nat} (orderly : table.IsOrderly) (valid : start.IsValid)
    (increasing : years.Pairwise (· < ·))
    (found : searchYears table start years bounded = some time) :
    ∃ year ∈ years, ∃ month ∈ table.months, ∃ day ∈ table.days, day ≤ monthLength year month ∧
      table.HoldsOn ⟨year, month, day⟩ time ∧
      (bounded = .everything → years.head? = some year →
        (table.entry start year).seconds ≤ time.seconds) := by
  have months := orderly.months.increasing
  induction years generalizing bounded with
  | nil => cases found
  | cons year years inductionHypothesis =>
      rw [searchYears] at found
      split at found
      · rename_i foundInYear
        obtain rfl := (Option.some.inj found).symm
        obtain ⟨month, member, day, named, short, holds, least⟩ :=
          searchMonths_sound orderly valid (months.filter _) foundInYear
        obtain ⟨monthNamed, atLeast⟩ := List.mem_filter.1 member
        refine ⟨year, List.mem_cons_self, month, monthNamed, day, named, short, holds, ?_⟩
        rintro rfl _
        have late : start.date.month ≤ month := by simpa [Bounded.everything] using atLeast
        rcases Nat.eq_or_lt_of_le late with same | later
        · refine least ?_ ?_ ?_ ?_ (head?_filter_of_least months monthNamed ?_ ?_) same.symm
          all_goals simp [Bounded.everything, same, monthNamed]
        · have validEntry := table.isValid_entry valid year
          have entered := table.date_entry start year
          refine seconds_le_of_date validEntry ?_
          rw [holds.date_eq]
          exact Date.dayNumber_lt_of_month validEntry.date (orderly.isValid monthNamed named short)
            (by rw [entered]) (by rw [entered]; exact later)
      · obtain ⟨later, member, month, monthNamed, day, named, short, holds, _⟩ :=
          inductionHypothesis (List.pairwise_cons.1 increasing).2 found
        exact ⟨later, List.mem_cons_of_mem _ member, month, monthNamed, day, named, short, holds,
          fun _ first => absurd first (head?_ne_of_mem_tail increasing member)⟩

end Search

/-! ## The next time -/

namespace Timetable

variable {table : Timetable} {reference instant : Instant}

theorem IsOrderly.isValid_of_holds (orderly : table.IsOrderly) {time : CivilTime}
    (holds : table.Holds time) (valid : time.date.isValid = true) : time.IsValid where
  date := valid
  hour := Nat.lt_succ_of_le (orderly.hours.bounds holds.hour).2
  minute := Nat.lt_succ_of_le (orderly.minutes.bounds holds.minute).2
  second := Nat.lt_succ_of_le (orderly.seconds.bounds holds.second).2

/-- The search after a reference reaches a time: it enters the year of the time no later than at
the time, or has been through one of its years before. -/
def Reaches (table : Timetable) (reference instant : Instant) : Prop :=
  (∃ year ∈ table.years, (reference.addSeconds 1).civil.date.year ≤ year ∧
      year < instant.civil.date.year) ∨
    (table.entry (reference.addSeconds 1).civil instant.civil.date.year).seconds ≤
      instant.civil.seconds

/-- The next time is a whole second that the timetable holds, after the reference, and one that
the search reaches. -/
theorem next?_sound (orderly : table.IsOrderly) (found : table.next? reference = some instant) :
    reference < instant ∧ instant = .ofSeconds instant.seconds ∧ table.Holds instant.civil ∧
      table.Reaches reference instant := by
  unfold next? at found
  obtain ⟨time, searched, rfl⟩ := Option.map_eq_some_iff.1 found
  have valid := (reference.addSeconds 1).isValid_civil
  have increasing := orderly.years.increasing
  obtain ⟨year, member, month, monthNamed, day, dayNamed, short, holds, least⟩ :=
    searchYears_sound orderly valid (increasing.filter _) searched
  obtain ⟨yearNamed, atLeast⟩ := List.mem_filter.1 member
  have date : (Date.mk year month day).isValid = true :=
    orderly.isValid monthNamed dayNamed short
  have date_eq := holds.date_eq
  have held : table.Holds time :=
    ⟨holds.second, holds.minute, holds.hour, by rw [date_eq]; exact dayNamed,
      by rw [date_eq]; exact monthNamed, by rw [date_eq]; exact holds.weekday,
      year, yearNamed, by rw [date_eq]⟩
  have validTime := orderly.isValid_of_holds held (by rw [date_eq]; exact date)
  have lateYear : (reference.addSeconds 1).civil.date.year ≤ year := of_decide_eq_true atLeast
  have late : (reference.addSeconds 1).civil.seconds ≤ time.seconds := by
    rcases Int.le_iff_eq_or_lt.1 lateYear with same | later
    · have entered := least rfl (head?_filter_of_least increasing yearNamed atLeast
        fun value _ pass => by
          have after : (reference.addSeconds 1).civil.date.year ≤ value := of_decide_eq_true pass
          omega)
      rwa [← same, table.entry_eq_start valid] at entered
    · refine seconds_le_of_date valid (Date.dayNumber_lt_of_year valid.date validTime.date ?_)
      rw [date_eq]
      exact later
  refine ⟨?_, by rw [CivilTime.instant, Instant.seconds_ofSeconds], ?_, ?_⟩
  · rw [Instant.seconds_civil] at late
    show reference.nanos < time.seconds * 1000000000
    have next : (reference.addSeconds 1).seconds =
        (reference.nanos + 1 * 1000000000) / 1000000000 :=
      rfl
    omega
  · rw [CivilTime.civil_instant validTime]
    exact held
  · rw [Reaches, CivilTime.civil_instant validTime, date_eq]
    by_cases earlier : ∃ year' ∈ table.years,
        (reference.addSeconds 1).civil.date.year ≤ year' ∧ (year' : Int) < year
    · exact Or.inl earlier
    · refine Or.inr (least rfl (head?_filter_of_least increasing yearNamed atLeast ?_))
      intro value named pass
      refine Nat.not_lt.1 fun before => earlier ⟨value, named, of_decide_eq_true pass, ?_⟩
      exact Int.ofNat_lt.2 before

end Timetable

end NodeFleet.Cron
