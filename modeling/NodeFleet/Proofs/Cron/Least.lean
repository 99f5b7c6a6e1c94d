import NodeFleet.Proofs.Cron.Search

/-!
# The search misses no time

No time of the timetable that is not before the start is passed over by the search.  Below a unit
either all numbers are still bounded by the start, or none is, and they are bounded only while
all greater units stand where the start has them.
-/

namespace NodeFleet.Cron

open Calendar

/-- Of increasing numbers, the first that passes a test is the least. -/
theorem le_of_find? {numbers : List Nat} {passes : Nat → Bool} {first value : Nat}
    (increasing : numbers.Pairwise (· < ·)) (found : numbers.find? passes = some first)
    (member : value ∈ numbers) (pass : passes value = true) : first ≤ value := by
  induction numbers with
  | nil => cases member
  | cons head rest inductionHypothesis =>
      obtain ⟨smaller, increasing⟩ := List.pairwise_cons.1 increasing
      rw [List.find?_cons] at found
      split at found
      · obtain rfl := Option.some.inj found
        rcases List.mem_cons.1 member with rfl | later
        · exact Nat.le_refl _
        · exact Nat.le_of_lt (smaller value later)
      · rename_i fails
        rcases List.mem_cons.1 member with rfl | later
        · rw [pass] at fails
          cases fails
        · exact inductionHypothesis increasing found later

/-! ## Bounds of the units -/

namespace Bounded

/-- No unit below the hour is bounded by the start. -/
structure FreeInHour (bounded : Bounded) : Prop where
  minute : bounded.minute = false
  second : bounded.second = false

structure FreeInDay (bounded : Bounded) : Prop extends bounded.FreeInHour where
  hour : bounded.hour = false

structure FreeInMonth (bounded : Bounded) : Prop extends bounded.FreeInDay where
  day : bounded.day = false

structure FreeInYear (bounded : Bounded) : Prop extends bounded.FreeInMonth where
  month : bounded.month = false

/-- All units below the hour are bounded by the start. -/
structure HeldInHour (bounded : Bounded) : Prop where
  minute : bounded.minute = true
  second : bounded.second = true

structure HeldInDay (bounded : Bounded) : Prop extends bounded.HeldInHour where
  hour : bounded.hour = true

structure HeldInMonth (bounded : Bounded) : Prop extends bounded.HeldInDay where
  day : bounded.day = true

end Bounded

/-! ## The search within a day -/

section Search

variable {table : Timetable} {start goal : CivilTime} {date : Date} {bounded left : Bounded}

theorem searchSeconds_least (orderly : table.IsOrderly) (holds : table.HoldsOn date goal)
    (hour minute : Nat) (late : bounded.second = true → start.second ≤ goal.second) :
    ∃ least left, searchSeconds table start date hour minute bounded =
      (.time ⟨date, hour, minute, least⟩, left) ∧ least ≤ goal.second := by
  have pass : decide ((if bounded.second then start.second else 0) ≤ goal.second) = true := by
    split
    · exact decide_eq_true (late ‹_›)
    · exact decide_eq_true (Nat.zero_le _)
  unfold searchSeconds
  cases found : table.seconds.find? ((if bounded.second then start.second else 0) ≤ ·) with
  | none => exact absurd pass (List.find?_eq_none.1 found _ holds.second)
  | some first =>
      simp only [found, List.contains_iff_mem.2 holds.weekday, if_pos]
      exact ⟨first, _, rfl, le_of_find? orderly.seconds.increasing found holds.second pass⟩

/-- The seconds of a minute are bounded once. -/
theorem searchSeconds_left {hour minute : Nat} {found : Found}
    (search : searchSeconds table start date hour minute bounded = (found, left)) :
    left = { bounded with second := false } := by
  unfold searchSeconds at search
  dsimp only at search
  split at search
  · exact (Prod.mk.inj search).2.symm
  · split at search
    · exact (Prod.mk.inj search).2.symm
    · exact (Prod.mk.inj search).2.symm

theorem searchSeconds_wrongWeekday {hour minute : Nat}
    (found : searchSeconds table start date hour minute bounded = (.wrongWeekday, left)) :
    date.weekday ∉ table.weekdays := by
  unfold searchSeconds at found
  dsimp only at found
  split at found
  · cases found
  · split at found
    · cases found
    · rename_i other
      simpa using other

theorem searchMinutes_least {hour : Nat} {minutes : List Nat} (orderly : table.IsOrderly)
    (holds : table.HoldsOn date goal) (hourNamed : hour ∈ table.hours)
    (named : minutes ⊆ table.minutes) (increasing : minutes.Pairwise (· < ·))
    (minute : goal.minute ∈ minutes)
    (late : bounded.second = true → minutes.head? = some goal.minute →
      start.second ≤ goal.second) :
    ∃ time left, searchMinutes table start date hour minutes bounded = (.time time, left) ∧
      time.minute * 60 + time.second ≤ goal.minute * 60 + goal.second := by
  induction minutes generalizing bounded with
  | nil => cases minute
  | cons first minutes inductionHypothesis =>
      obtain ⟨firstNamed, restNamed⟩ := List.cons_subset.1 named
      obtain ⟨smaller, increasing⟩ := List.pairwise_cons.1 increasing
      rcases List.mem_cons.1 minute with rfl | later
      · obtain ⟨least, left, found, upTo⟩ := searchSeconds_least orderly holds hour goal.minute
          fun held => late held rfl
        refine ⟨_, left, by simp only [searchMinutes, found]; rfl, ?_⟩
        exact Nat.add_le_add_left upTo _
      · rcases found : searchSeconds table start date hour first bounded with ⟨time | _ | _, left⟩
        · obtain ⟨foundHolds, _, inMinute, _⟩ := searchSeconds_sound hourNamed firstNamed found
          have below : time.second ≤ 59 := (orderly.seconds.bounds foundHolds.second).2
          have before := smaller goal.minute later
          refine ⟨time, left, by simp only [searchMinutes, found], ?_⟩
          omega
        · exact absurd holds.weekday (searchSeconds_wrongWeekday found)
        · have free : left.releaseMinute.second = true → minutes.head? = some goal.minute →
              start.second ≤ goal.second := fun held => by cases held
          obtain ⟨time, rest, foundLater, upTo⟩ :=
            inductionHypothesis restNamed increasing later free
          exact ⟨time, rest, by simp only [searchMinutes, found, foundLater], upTo⟩

/-- A day is given up for its weekday only, and then no unit below it is bounded any more. -/
theorem searchMinutes_wrongWeekday {hour : Nat} {minutes : List Nat}
    (found : searchMinutes table start date hour minutes bounded = (.wrongWeekday, left)) :
    date.weekday ∉ table.weekdays ∧
      (bounded.hour = false → bounded.minute = false → left.FreeInDay) := by
  induction minutes generalizing bounded with
  | nil => cases found
  | cons first minutes inductionHypothesis =>
      rw [searchMinutes] at found
      split at found
      · rename_i inMinute
        obtain ⟨other, free⟩ := inductionHypothesis found
        obtain rfl := searchSeconds_left inMinute
        exact ⟨other, fun hour _ => free hour rfl⟩
      · obtain rfl := searchSeconds_left found
        exact ⟨searchSeconds_wrongWeekday found, fun hour minute => ⟨⟨minute, rfl⟩, hour⟩⟩

/-- The numbers from a bound on start with the bound, if it is one of them. -/
theorem eq_of_head?_filter {numbers : List Nat} {least first : Nat}
    (increasing : numbers.Pairwise (· < ·)) (member : numbers.contains least = true)
    (head : (numbers.filter (least ≤ ·)).head? = some first) : first = least := by
  rw [head?_filter_of_least increasing (List.contains_iff_mem.1 member) (by simp) (by simp)] at head
  exact (Option.some.inj head).symm

/-- Entering the hour of the goal. -/
theorem enter_hour {least : Nat} {entered : Bounded} (orderly : table.IsOrderly)
    (holds : table.HoldsOn date goal)
    (late : bounded.HeldInHour ∧
        start.minute * 60 + start.second ≤ goal.minute * 60 + goal.second ∨ bounded.FreeInHour)
    (least_eq : (if bounded.minute then start.minute else 0) = least)
    (entered_eq : (if table.minutes.contains least then { bounded with minute := false }
      else Bounded.releaseMinute { bounded with minute := false }) = entered) :
    goal.minute ∈ table.minutes.filter (least ≤ ·) ∧
      (entered.second = true → (table.minutes.filter (least ≤ ·)).head? = some goal.minute →
        start.second ≤ goal.second) := by
  have second : goal.second ≤ 59 := (orderly.seconds.bounds holds.second).2
  rcases late with ⟨held, bound⟩ | free
  · obtain rfl : start.minute = least := by rwa [held.minute, if_pos rfl] at least_eq
    have reaches : start.minute ≤ goal.minute := by omega
    refine ⟨List.mem_filter.2 ⟨holds.minute, decide_eq_true reaches⟩, fun heldSecond head => ?_⟩
    split at entered_eq
    · rename_i starts
      have same := eq_of_head?_filter orderly.minutes.increasing starts head
      omega
    · subst entered_eq
      cases heldSecond
  · obtain rfl : 0 = least := by simpa [free.minute] using least_eq
    refine ⟨List.mem_filter.2 ⟨holds.minute, by simp⟩, fun heldSecond _ => ?_⟩
    have released : entered.second = false := by
      split at entered_eq
      · exact entered_eq ▸ free.second
      · exact entered_eq ▸ rfl
    cases released.symm.trans heldSecond

/-- All units below the hour are bounded by the start, which is not after the goal if the goal is
in the first hour, or none is. -/
theorem searchHours_least {hours : List Nat} (orderly : table.IsOrderly)
    (holds : table.HoldsOn date goal) (named : hours ⊆ table.hours)
    (increasing : hours.Pairwise (· < ·)) (hour : goal.hour ∈ hours)
    (late : bounded.HeldInHour ∧ (hours.head? = some goal.hour →
        start.minute * 60 + start.second ≤ goal.minute * 60 + goal.second) ∨
      bounded.FreeInHour) :
    ∃ time left, searchHours table start date hours bounded = (.time time, left) ∧
      time.ofDay ≤ goal.ofDay := by
  have minutes := orderly.minutes.increasing
  induction hours generalizing bounded with
  | nil => cases hour
  | cons first hours inductionHypothesis =>
      obtain ⟨firstNamed, restNamed⟩ := List.cons_subset.1 named
      obtain ⟨smaller, increasing⟩ := List.pairwise_cons.1 increasing
      rw [searchHours]
      generalize least_eq : (if bounded.minute then start.minute else 0) = least
      generalize entered_eq : (if table.minutes.contains least then _ else _) = entered
      rcases List.mem_cons.1 hour with rfl | later
      · obtain ⟨reaches, inMinute⟩ := enter_hour orderly holds
          (late.imp_left fun early => ⟨early.1, early.2 rfl⟩) least_eq entered_eq
        obtain ⟨time, left, found, upTo⟩ := searchMinutes_least orderly holds holds.hour
          List.filter_sublist.subset (minutes.filter _) reaches inMinute
        obtain ⟨_, sameHour, _⟩ :=
          searchMinutes_sound holds.hour List.filter_sublist.subset (minutes.filter _) found
        rw [found]
        refine ⟨time, left, rfl, ?_⟩
        unfold CivilTime.ofDay
        omega
      · rcases found : searchMinutes table start date first
          (table.minutes.filter (least ≤ ·)) entered with ⟨time | _ | _, left⟩
        · obtain ⟨foundHolds, sameHour, _⟩ :=
            searchMinutes_sound firstNamed List.filter_sublist.subset (minutes.filter _) found
          have before := smaller goal.hour later
          have minute : time.minute ≤ 59 := (orderly.minutes.bounds foundHolds.minute).2
          have second : time.second ≤ 59 := (orderly.seconds.bounds foundHolds.second).2
          refine ⟨time, left, rfl, ?_⟩
          unfold CivilTime.ofDay
          omega
        · exact absurd holds.weekday (searchMinutes_wrongWeekday found).1
        · have free : left.releaseHour.FreeInHour := ⟨rfl, rfl⟩
          exact inductionHypothesis restNamed increasing later (Or.inr free)

theorem searchHours_wrongWeekday {hours : List Nat} (hourFree : bounded.hour = false)
    (found : searchHours table start date hours bounded = (.wrongWeekday, left)) :
    date.weekday ∉ table.weekdays ∧ left.FreeInDay := by
  induction hours generalizing bounded with
  | nil => cases found
  | cons first hours inductionHypothesis =>
      rw [searchHours] at found
      generalize (if bounded.minute then start.minute else 0) = least at found
      generalize entered_eq : (if table.minutes.contains least then _ else _) = entered at found
      have free : entered.hour = false ∧ entered.minute = false := by
        split at entered_eq
        · subst entered_eq
          exact ⟨hourFree, rfl⟩
        · subst entered_eq
          exact ⟨hourFree, rfl⟩
      split at found
      · exact inductionHypothesis rfl found
      · obtain ⟨other, freeAfter⟩ := searchMinutes_wrongWeekday found
        exact ⟨other, freeAfter free.1 free.2⟩

/-! ## The search through the days -/

/-- A time on an earlier date is not after the goal. -/
theorem seconds_le_of_earlier {time : CivilTime} (orderly : table.IsOrderly)
    (holds : table.HoldsOn date time) (earlier : date.dayNumber < goal.date.dayNumber) :
    time.seconds ≤ goal.seconds := by
  have hour : time.hour ≤ 23 := (orderly.hours.bounds holds.hour).2
  have minute : time.minute ≤ 59 := (orderly.minutes.bounds holds.minute).2
  have second : time.second ≤ 59 := (orderly.seconds.bounds holds.second).2
  rw [CivilTime.seconds_eq, CivilTime.seconds_eq, holds.date_eq, CivilTime.ofDay]
  omega

/-- Entering the day of the goal. -/
theorem enter_day {least : Nat} {entered : Bounded} (orderly : table.IsOrderly)
    (holds : table.HoldsOn date goal)
    (late : bounded.HeldInDay ∧ start.ofDay ≤ goal.ofDay ∨ bounded.FreeInDay)
    (least_eq : (if bounded.hour then start.hour else 0) = least)
    (entered_eq : (if table.hours.contains least then { bounded with hour := false }
      else Bounded.releaseHour { bounded with hour := false }) = entered) :
    goal.hour ∈ table.hours.filter (least ≤ ·) ∧
      (entered.HeldInHour ∧ ((table.hours.filter (least ≤ ·)).head? = some goal.hour →
          start.minute * 60 + start.second ≤ goal.minute * 60 + goal.second) ∨
        entered.FreeInHour) := by
  have minute : goal.minute ≤ 59 := (orderly.minutes.bounds holds.minute).2
  have second : goal.second ≤ 59 := (orderly.seconds.bounds holds.second).2
  rcases late with ⟨held, bound⟩ | free
  · obtain rfl : start.hour = least := by rwa [held.hour, if_pos rfl] at least_eq
    unfold CivilTime.ofDay at bound
    have reaches : start.hour ≤ goal.hour := by omega
    refine ⟨List.mem_filter.2 ⟨holds.hour, decide_eq_true reaches⟩, ?_⟩
    split at entered_eq
    · rename_i starts
      subst entered_eq
      refine Or.inl ⟨⟨held.minute, held.second⟩, fun head => ?_⟩
      have same := eq_of_head?_filter orderly.hours.increasing starts head
      omega
    · subst entered_eq
      exact Or.inr ⟨rfl, rfl⟩
  · obtain rfl : 0 = least := by simpa [free.hour] using least_eq
    refine ⟨List.mem_filter.2 ⟨holds.hour, by simp⟩, Or.inr ?_⟩
    split at entered_eq
    · exact entered_eq ▸ ⟨free.minute, free.second⟩
    · exact entered_eq ▸ ⟨rfl, rfl⟩

theorem searchDays_least {days : List Nat} (orderly : table.IsOrderly) (valid : start.IsValid)
    (holds : table.HoldsOn goal.date goal) (increasing : days.Pairwise (· < ·))
    (day : goal.date.day ∈ days)
    (late : bounded.HeldInDay ∧ (days.head? = some goal.date.day → start.ofDay ≤ goal.ofDay) ∨
      bounded.FreeInDay) :
    ∃ time left, searchDays table start goal.date.year goal.date.month days bounded =
      (some time, left) ∧ time.seconds ≤ goal.seconds := by
  have hours := orderly.hours.increasing
  induction days generalizing bounded with
  | nil => cases day
  | cons first days inductionHypothesis =>
      obtain ⟨smaller, increasing⟩ := List.pairwise_cons.1 increasing
      rw [searchDays]
      generalize least_eq : (if bounded.hour then start.hour else 0) = least
      generalize entered_eq : (if table.hours.contains least then _ else _) = entered
      rcases List.mem_cons.1 day with rfl | later
      · obtain ⟨reaches, inHour⟩ := enter_day orderly holds
          (late.imp_left fun early => ⟨early.1, early.2 rfl⟩) least_eq entered_eq
        obtain ⟨time, left, found, upTo⟩ := searchHours_least orderly holds
          List.filter_sublist.subset (hours.filter _) reaches inHour
        have sameDate : time.date = goal.date := (searchHours_sound orderly valid
          List.filter_sublist.subset (hours.filter _) found).1.date_eq
        rw [found]
        refine ⟨time, left, rfl, ?_⟩
        rw [CivilTime.seconds_eq, CivilTime.seconds_eq, sameDate]
        omega
      · rcases found : searchHours table start ⟨goal.date.year, goal.date.month, first⟩
          (table.hours.filter (least ≤ ·)) entered with ⟨time | _ | _, left⟩
        · have foundHolds := (searchHours_sound orderly valid List.filter_sublist.subset
            (hours.filter _) found).1
          refine ⟨time, left, rfl, seconds_le_of_earlier orderly foundHolds ?_⟩
          exact Date.dayNumber_lt_of_day rfl rfl (smaller _ later)
        · have hourFree : entered.hour = false := by
            split at entered_eq
            · exact entered_eq ▸ rfl
            · exact entered_eq ▸ rfl
          exact inductionHypothesis increasing later
            (Or.inr (searchHours_wrongWeekday hourFree found).2)
        · have free : left.releaseDay.FreeInDay := ⟨⟨rfl, rfl⟩, rfl⟩
          exact inductionHypothesis increasing later (Or.inr free)

/-- Of two times of one month, the one that is not before the other has no lesser day. -/
theorem day_le_of_seconds_le (validGoal : goal.IsValid)
    (sameYear : goal.date.year = start.date.year) (sameMonth : goal.date.month = start.date.month)
    (late : start.seconds ≤ goal.seconds) : start.date.day ≤ goal.date.day := by
  refine Nat.not_lt.1 fun earlier => ?_
  have days := Date.dayNumber_lt_of_day sameYear sameMonth earlier
  have below := validGoal.ofDay_lt
  rw [CivilTime.seconds_eq, CivilTime.seconds_eq] at late
  omega

theorem ofDay_le_of_seconds_le (sameYear : goal.date.year = start.date.year)
    (sameMonth : goal.date.month = start.date.month) (sameDay : goal.date.day = start.date.day)
    (late : start.seconds ≤ goal.seconds) : start.ofDay ≤ goal.ofDay := by
  have sameDate : goal.date.dayNumber = start.date.dayNumber := by
    rw [Date.dayNumber, Date.dayNumber, sameYear, sameMonth, sameDay]
  rw [CivilTime.seconds_eq, CivilTime.seconds_eq] at late
  omega

/-- Entering the month of the goal; where the days are bounded, it is that of the entry. -/
theorem enter_month {least : Nat} {entered : Bounded} (orderly : table.IsOrderly)
    (validGoal : goal.IsValid) (dayNamed : goal.date.day ∈ table.days)
    (late : bounded.HeldInMonth ∧ goal.date.month = start.date.month ∧
        (table.entry start goal.date.year).seconds ≤ goal.seconds ∨ bounded.FreeInMonth)
    (least_eq : (if bounded.day then start.date.day else 1) = least)
    (entered_eq : (if table.days.contains least then { bounded with day := false }
      else Bounded.releaseDay { bounded with day := false }) = entered)
    {days : List Nat} (days_eq : (table.days.filter fun day =>
      min least (monthLength goal.date.year goal.date.month) ≤ day &&
        day ≤ monthLength goal.date.year goal.date.month) = days) :
    goal.date.day ∈ days ∧
      (entered.HeldInDay ∧ (days.head? = some goal.date.day → start.ofDay ≤ goal.ofDay) ∨
        entered.FreeInDay) := by
  obtain ⟨_, _, counted, short⟩ := Date.isValid_iff.1 validGoal.date
  subst days_eq
  rcases late with ⟨held, sameMonth, late⟩ | free
  · obtain rfl : start.date.day = least := by rwa [held.day, if_pos rfl] at least_eq
    have entered := table.date_entry start goal.date.year
    rw [← sameMonth] at entered
    have reaches := day_le_of_seconds_le validGoal (by rw [entered]) (by rw [entered]) late
    rw [entered] at reaches
    refine ⟨List.mem_filter.2 ⟨dayNamed, by simpa [short] using reaches⟩, ?_⟩
    split at entered_eq
    · rename_i starts
      subst entered_eq
      have starts := List.contains_iff_mem.1 starts
      refine Or.inl ⟨⟨⟨held.minute, held.second⟩, held.hour⟩, fun head => ?_⟩
      have sameDay : goal.date.day =
          min start.date.day (monthLength goal.date.year goal.date.month) := by
        rcases Nat.le_total start.date.day (monthLength goal.date.year goal.date.month)
          with longEnough | tooShort
        · rw [Nat.min_eq_left longEnough] at head ⊢
          rw [head?_filter_of_least orderly.days.increasing starts (by simp [longEnough])
            (by simp_all)] at head
          exact (Option.some.inj head).symm
        · rw [Nat.min_eq_right tooShort] at reaches ⊢
          exact Nat.le_antisymm short reaches
      have sameStart : (table.entry start goal.date.year).ofDay = start.ofDay :=
        Timetable.ofDay_entry_of_mem starts
      rw [← sameStart]
      exact ofDay_le_of_seconds_le (by rw [entered]) (by rw [entered])
        (by rw [entered]; exact sameDay) late
    · subst entered_eq
      exact Or.inr ⟨⟨rfl, rfl⟩, rfl⟩
  · obtain rfl : 1 = least := by simpa [free.day] using least_eq
    have reaches : min 1 (monthLength goal.date.year goal.date.month) ≤ goal.date.day :=
      Nat.le_trans (Nat.min_le_left 1 _) counted
    refine ⟨List.mem_filter.2 ⟨dayNamed, by simp [reaches, short]⟩, Or.inr ?_⟩
    split at entered_eq
    · exact entered_eq ▸ ⟨⟨free.minute, free.second⟩, free.hour⟩
    · exact entered_eq ▸ ⟨⟨rfl, rfl⟩, rfl⟩

/-- The months are bounded by the start only in the year that is entered first. -/
theorem searchMonths_least {months : List Nat} (orderly : table.IsOrderly) (valid : start.IsValid)
    (validGoal : goal.IsValid) (holds : table.HoldsOn goal.date goal)
    (dayNamed : goal.date.day ∈ table.days) (named : months ⊆ table.months)
    (increasing : months.Pairwise (· < ·)) (month : goal.date.month ∈ months)
    (late : bounded.HeldInMonth ∧ months.head? = some start.date.month ∧
        (table.entry start goal.date.year).seconds ≤ goal.seconds ∨ bounded.FreeInMonth) :
    ∃ time left, searchMonths table start goal.date.year months bounded = (some time, left) ∧
      time.seconds ≤ goal.seconds := by
  have days := orderly.days.increasing
  induction months generalizing bounded with
  | nil => cases month
  | cons first months inductionHypothesis =>
      obtain ⟨firstNamed, restNamed⟩ := List.cons_subset.1 named
      obtain ⟨smaller, increasing⟩ := List.pairwise_cons.1 increasing
      rw [searchMonths]
      generalize least_eq : (if bounded.day then start.date.day else 1) = least
      generalize entered_eq : (if table.days.contains least then _ else _) = entered
      rcases List.mem_cons.1 month with rfl | later
      · obtain ⟨reaches, inDay⟩ := enter_month orderly validGoal dayNamed
          (late.imp_left fun early => ⟨early.1, Option.some.inj early.2.1, early.2.2⟩)
          least_eq entered_eq rfl
        obtain ⟨time, left, found, upTo⟩ :=
          searchDays_least orderly valid holds (days.filter _) reaches inDay
        rw [found]
        exact ⟨time, left, rfl, upTo⟩
      · rcases found : searchDays table start goal.date.year first
          (table.days.filter fun day => min least (monthLength goal.date.year first) ≤ day &&
            day ≤ monthLength goal.date.year first) entered with ⟨_ | time, left⟩
        · have free : left.releaseMonth.FreeInMonth := ⟨⟨⟨rfl, rfl⟩, rfl⟩, rfl⟩
          exact inductionHypothesis restNamed increasing later (Or.inr free)
        · obtain ⟨day, member, foundHolds, _⟩ :=
            searchDays_sound orderly valid (days.filter _) found
          obtain ⟨foundNamed, within⟩ := List.mem_filter.1 member
          simp only [Bool.and_eq_true, decide_eq_true_eq] at within
          refine ⟨time, left, rfl, seconds_le_of_earlier orderly foundHolds ?_⟩
          exact Date.dayNumber_lt_of_month (orderly.isValid firstNamed foundNamed within.2)
            validGoal.date rfl (smaller _ later)

theorem searchMonths_none {year : Int} {months : List Nat}
    (free : months = [] → bounded.FreeInYear)
    (found : searchMonths table start year months bounded = (none, left)) : left.FreeInYear := by
  induction months generalizing bounded with
  | nil =>
      obtain rfl := (Prod.mk.inj found).2
      exact free rfl
  | cons first months inductionHypothesis =>
      rw [searchMonths] at found
      split at found
      · exact inductionHypothesis (fun _ => ⟨⟨⟨⟨rfl, rfl⟩, rfl⟩, rfl⟩, rfl⟩) found
      · rename_i other
        exact (other left found).elim

theorem month_le_of_seconds_le (valid : start.IsValid) (validGoal : goal.IsValid)
    (sameYear : goal.date.year = start.date.year) (late : start.seconds ≤ goal.seconds) :
    start.date.month ≤ goal.date.month := by
  refine Nat.not_lt.1 fun earlier => ?_
  have days := Date.dayNumber_lt_of_month validGoal.date valid.date sameYear earlier
  have below := validGoal.ofDay_lt
  rw [CivilTime.seconds_eq, CivilTime.seconds_eq] at late
  omega

theorem year_le_of_seconds_le (valid : start.IsValid) (validGoal : goal.IsValid)
    (late : start.seconds ≤ goal.seconds) : start.date.year ≤ goal.date.year := by
  refine Int.not_lt.1 fun earlier => ?_
  have days := Date.dayNumber_lt_of_year validGoal.date valid.date earlier
  have below := validGoal.ofDay_lt
  rw [CivilTime.seconds_eq, CivilTime.seconds_eq] at late
  omega

/-- Entering the year of the goal; where the months are bounded, it is the first year. -/
theorem enter_year {least : Nat} {entered : Bounded} (orderly : table.IsOrderly)
    (valid : start.IsValid) (validGoal : goal.IsValid)
    (monthNamed : goal.date.month ∈ table.months)
    (late : bounded = .everything ∧
        (table.entry start goal.date.year).seconds ≤ goal.seconds ∨ bounded.FreeInYear)
    (least_eq : (if bounded.month then start.date.month else 1) = least)
    (entered_eq : (if table.months.contains least then { bounded with month := false }
      else Bounded.releaseMonth { bounded with month := false }) = entered) :
    goal.date.month ∈ table.months.filter (least ≤ ·) ∧
      (entered.HeldInMonth ∧
          (table.months.filter (least ≤ ·)).head? = some start.date.month ∧
            (table.entry start goal.date.year).seconds ≤ goal.seconds ∨
        entered.FreeInMonth) := by
  rcases late with ⟨rfl, late⟩ | free
  · obtain rfl : start.date.month = least := least_eq
    have entered := table.date_entry start goal.date.year
    have reaches : start.date.month ≤ goal.date.month := by
      have ordered := month_le_of_seconds_le (table.isValid_entry valid goal.date.year) validGoal
        (by rw [entered]) late
      rwa [entered] at ordered
    refine ⟨List.mem_filter.2 ⟨monthNamed, decide_eq_true reaches⟩, ?_⟩
    split at entered_eq
    · rename_i starts
      subst entered_eq
      exact Or.inl ⟨⟨⟨⟨rfl, rfl⟩, rfl⟩, rfl⟩, head?_filter_of_least orderly.months.increasing
        (List.contains_iff_mem.1 starts) (by simp) (by simp), late⟩
    · subst entered_eq
      exact Or.inr ⟨⟨⟨rfl, rfl⟩, rfl⟩, rfl⟩
  · obtain rfl : 1 = least := by simpa [free.month] using least_eq
    have counted := (Date.isValid_iff.1 validGoal.date).1
    refine ⟨List.mem_filter.2 ⟨monthNamed, decide_eq_true counted⟩, Or.inr ?_⟩
    split at entered_eq
    · exact entered_eq ▸ ⟨⟨⟨free.minute, free.second⟩, free.hour⟩, free.day⟩
    · exact entered_eq ▸ ⟨⟨⟨rfl, rfl⟩, rfl⟩, rfl⟩

/-- If the goal is in the first year, it is not before the entry of that year. -/
theorem searchYears_least {years : List Nat} (orderly : table.IsOrderly) (valid : start.IsValid)
    (validGoal : goal.IsValid) (holds : table.HoldsOn goal.date goal)
    (dayNamed : goal.date.day ∈ table.days) (monthNamed : goal.date.month ∈ table.months)
    (increasing : years.Pairwise (· < ·)) {goalYear : Nat} (year : goalYear ∈ years)
    (year_eq : goal.date.year = goalYear)
    (late : bounded = .everything ∧ (years.head? = some goalYear →
        (table.entry start goal.date.year).seconds ≤ goal.seconds) ∨ bounded.FreeInYear) :
    ∃ time, searchYears table start years bounded = some time ∧ time.seconds ≤ goal.seconds := by
  have months := orderly.months.increasing
  induction years generalizing bounded with
  | nil => cases year
  | cons first years inductionHypothesis =>
      obtain ⟨smaller, increasing⟩ := List.pairwise_cons.1 increasing
      rw [searchYears]
      generalize least_eq : (if bounded.month then start.date.month else 1) = least
      generalize entered_eq : (if table.months.contains least then _ else _) = entered
      rcases List.mem_cons.1 year with rfl | later
      · obtain ⟨reaches, inMonth⟩ := enter_year orderly valid validGoal monthNamed
          (late.imp_left fun early => ⟨early.1, early.2 rfl⟩) least_eq entered_eq
        obtain ⟨time, left, found, upTo⟩ := searchMonths_least orderly valid validGoal holds
          dayNamed List.filter_sublist.subset (months.filter _) reaches inMonth
        rw [← year_eq, found]
        exact ⟨time, rfl, upTo⟩
      · rcases found : searchMonths table start first (table.months.filter (least ≤ ·)) entered
          with ⟨_ | time, left⟩
        · have free : table.months.filter (least ≤ ·) = [] → entered.FreeInYear := by
            intro empty
            split at entered_eq
            · rename_i starts
              refine absurd (decide_eq_true (Nat.le_refl least)) ?_
              exact List.filter_eq_nil_iff.1 empty least (List.contains_iff_mem.1 starts)
            · exact entered_eq ▸ ⟨⟨⟨⟨rfl, rfl⟩, rfl⟩, rfl⟩, rfl⟩
          exact inductionHypothesis increasing later (Or.inr (searchMonths_none free found))
        · obtain ⟨month, member, day, named, short, foundHolds, _⟩ :=
            searchMonths_sound orderly valid (months.filter _) found
          refine ⟨time, rfl, seconds_le_of_earlier orderly foundHolds ?_⟩
          have before : (first : Int) < goal.date.year := by
            rw [year_eq]
            exact Int.ofNat_lt.2 (smaller goalYear later)
          exact Date.dayNumber_lt_of_year
            (orderly.isValid (List.mem_filter.1 member).1 named short) validGoal.date before

end Search

/-! ## The next time -/

/-- No civil time from 1970 on has an earlier year. -/
theorem year_ge_of_seconds_nonneg {time : CivilTime} (valid : time.IsValid)
    (modern : 0 ≤ time.seconds) : 1970 ≤ time.date.year := by
  refine Int.not_lt.1 fun before => ?_
  have within := Date.dayNumber_lt_nextYear valid.date
  have years : daysBeforeYear (time.date.year + 1) ≤ daysBeforeYear 1970 :=
    daysBeforeYear_mono before
  have epoch : daysBeforeYear 1970 = daysBeforeEpoch := by decide
  have below := valid.ofDay_lt
  rw [CivilTime.seconds_eq] at modern
  omega

namespace Timetable

variable {table : Timetable} {reference other : Instant}

/-- A whole second after a reference is not before the start of the search. -/
theorem start_le_of_lt (whole : other = .ofSeconds other.seconds) (after : reference < other) :
    (reference.addSeconds 1).civil.seconds ≤ other.civil.seconds := by
  have start : (reference.addSeconds 1).seconds = (reference.nanos + 1 * 1000000000) / 1000000000 :=
    rfl
  have nanos : other.nanos = other.seconds * 1000000000 := congrArg Instant.nanos whole
  have after : reference.nanos < other.nanos := after
  rw [Instant.seconds_civil, Instant.seconds_civil]
  omega

/-- A timetable has no time after a reference that the search reaches and that is before its next
time. -/
theorem exists_next?_le_of_reaches (orderly : table.IsOrderly)
    (whole : other = .ofSeconds other.seconds) (holds : table.Holds other.civil)
    (after : reference < other) (reaches : table.Reaches reference other) :
    ∃ time, table.next? reference = some time ∧ time ≤ other := by
  have valid := (reference.addSeconds 1).isValid_civil
  have validGoal := other.isValid_civil
  have ordered := year_le_of_seconds_le valid validGoal (start_le_of_lt whole after)
  have increasing := orderly.years.increasing
  obtain ⟨year, yearNamed, year_eq⟩ := holds.year
  have late : (table.years.filter fun (year : Nat) =>
      (reference.addSeconds 1).civil.date.year ≤ year).head? = some year →
        (table.entry (reference.addSeconds 1).civil other.civil.date.year).seconds ≤
          other.civil.seconds := by
    intro first
    refine reaches.resolve_left fun ⟨earlier, named, from', before⟩ => ?_
    obtain ⟨rest, years_eq⟩ := List.head?_eq_some_iff.1 first
    have member : earlier ∈ year :: rest :=
      years_eq ▸ List.mem_filter.2 ⟨named, decide_eq_true from'⟩
    have sorted : (year :: rest).Pairwise (· < ·) := years_eq ▸ increasing.filter _
    rcases List.mem_cons.1 member with rfl | later
    · omega
    · have above := (List.pairwise_cons.1 sorted).1 earlier later
      omega
  obtain ⟨time, found, upTo⟩ := searchYears_least orderly valid validGoal
    ⟨rfl, holds.second, holds.minute, holds.hour, holds.weekday⟩ holds.day holds.month
    (increasing.filter _) (List.mem_filter.2 ⟨yearNamed, decide_eq_true (year_eq ▸ ordered)⟩)
    year_eq (Or.inl ⟨rfl, late⟩)
  refine ⟨time.instant, by rw [next?, found]; rfl, ?_⟩
  have nanos : other.nanos = other.seconds * 1000000000 := congrArg Instant.nanos whole
  rw [Instant.seconds_civil] at upTo
  show time.seconds * 1000000000 ≤ other.nanos
  omega

/-- The search that begins in one of the years reaches every time after the reference. -/
theorem reaches_of_mem_years {startYear : Nat} (named : startYear ∈ table.years)
    (start_eq : (reference.addSeconds 1).civil.date.year = startYear)
    (whole : other = .ofSeconds other.seconds) (after : reference < other) :
    table.Reaches reference other := by
  have valid := (reference.addSeconds 1).isValid_civil
  have late := start_le_of_lt whole after
  rcases Int.le_iff_eq_or_lt.1 (year_le_of_seconds_le valid other.isValid_civil late)
    with same | before
  · refine Or.inr ?_
    rw [← same, table.entry_eq_start valid]
    exact late
  · exact Or.inl ⟨startYear, named, Int.le_of_eq start_eq, start_eq ▸ before⟩

/-- A timetable of all years has no time after a reference from 1970 on that is before its next
time. -/
theorem exists_next?_le (orderly : table.IsOrderly) (everyYear : table.years = Column.year.all)
    (modern : 0 ≤ reference.nanos) (whole : other = .ofSeconds other.seconds)
    (holds : table.Holds other.civil) (after : reference < other) :
    ∃ time, table.next? reference = some time ∧ time ≤ other := by
  have valid := (reference.addSeconds 1).isValid_civil
  have start : (reference.addSeconds 1).seconds = (reference.nanos + 1 * 1000000000) / 1000000000 :=
    rfl
  have modernStart : 1970 ≤ (reference.addSeconds 1).civil.date.year :=
    year_ge_of_seconds_nonneg valid (by rw [Instant.seconds_civil]; omega)
  have ordered := year_le_of_seconds_le valid other.isValid_civil (start_le_of_lt whole after)
  obtain ⟨year, yearNamed, year_eq⟩ := holds.year
  have last : year ≤ 2100 := (orderly.years.bounds yearNamed).2
  have named : (reference.addSeconds 1).civil.date.year.toNat ∈ table.years := by
    rw [everyYear]
    exact Column.mem_all_iff.2 ⟨show 1970 ≤ _ by omega, show _ ≤ 2100 by omega⟩
  exact exists_next?_le_of_reaches orderly whole holds after
    (reaches_of_mem_years named (by omega) whole after)

end Timetable

end NodeFleet.Cron
