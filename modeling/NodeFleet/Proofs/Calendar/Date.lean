import NodeFleet.Calendar.Instant

/-!
# Dates and day numbers

Days are numbered in the order of their dates: every number is that of one valid date, and
every instant has one civil time.
-/

namespace NodeFleet.Calendar

/-! ## The lengths of years and months -/

variable {year later : Int} {month last : Nat}

theorem daysBeforeYear_succ (year : Int) :
    daysBeforeYear (year + 1) = daysBeforeYear year + (if isLeapYear year then 366 else 365) := by
  simp only [daysBeforeYear, isLeapYear, Bool.and_eq_true, Bool.or_eq_true, decide_eq_true_eq]
  split <;> omega

theorem daysBeforeYear_mono (ordered : year ≤ later) :
    daysBeforeYear year ≤ daysBeforeYear later := by
  simp only [daysBeforeYear]
  omega

theorem daysBeforeMonth_next (year : Int) (counted : 1 ≤ month) :
    daysBeforeMonth year (month + 1) = daysBeforeMonth year month + monthLength year month := by
  obtain ⟨before, rfl⟩ := Nat.exists_eq_add_of_le' counted
  simp [daysBeforeMonth, List.range'_concat, Nat.add_comm]

theorem daysBeforeMonth_mono (year : Int) (counted : 1 ≤ month) (ordered : month ≤ last) :
    daysBeforeMonth year month ≤ daysBeforeMonth year last := by
  induction ordered with
  | refl => exact Nat.le_refl _
  | step earlier inductionHypothesis =>
      rw [daysBeforeMonth_next year (Nat.le_trans counted earlier)]
      exact Nat.le_add_right_of_le inductionHypothesis

/-- A year is over when its twelve months are. -/
theorem daysBeforeYear_next (year : Int) :
    daysBeforeYear (year + 1) = daysBeforeYear year + daysBeforeMonth year 13 := by
  have months : daysBeforeMonth year 13 = if isLeapYear year then 366 else 365 := by
    cases leap : isLeapYear year <;> simp [daysBeforeMonth, monthLength, leap, List.range']
  rw [daysBeforeYear_succ, months]
  split <;> simp

namespace Date

variable {date other : Date}

theorem isValid_iff : date.isValid = true ↔
    1 ≤ date.month ∧ date.month ≤ 12 ∧ 1 ≤ date.day ∧
      date.day ≤ monthLength date.year date.month := by
  simp [isValid, and_assoc]

/-! ## The order of dates -/

/-- The days of a valid date lie within its month. -/
theorem dayNumber_lt_nextMonth (valid : date.isValid = true) :
    date.dayNumber + daysBeforeEpoch <
      daysBeforeYear date.year + daysBeforeMonth date.year (date.month + 1) := by
  obtain ⟨counted, _, _, last⟩ := isValid_iff.1 valid
  have next := daysBeforeMonth_next date.year counted
  unfold dayNumber
  omega

theorem dayNumber_lt_nextYear (valid : date.isValid = true) :
    date.dayNumber + daysBeforeEpoch < daysBeforeYear (date.year + 1) := by
  have within := dayNumber_lt_nextMonth valid
  have counted := isValid_iff.1 valid
  have months : daysBeforeMonth date.year (date.month + 1) ≤ daysBeforeMonth date.year 13 :=
    daysBeforeMonth_mono date.year (by omega) (by omega)
  rw [daysBeforeYear_next]
  omega

theorem le_dayNumber (valid : date.isValid = true) :
    daysBeforeYear date.year + daysBeforeMonth date.year date.month ≤
      date.dayNumber + daysBeforeEpoch := by
  have first := (isValid_iff.1 valid).2.2.1
  unfold dayNumber
  omega

theorem dayNumber_lt_of_year (valid : date.isValid = true) (validOther : other.isValid = true)
    (earlier : date.year < other.year) : date.dayNumber < other.dayNumber := by
  have within := dayNumber_lt_nextYear valid
  have years : daysBeforeYear (date.year + 1) ≤ daysBeforeYear other.year :=
    daysBeforeYear_mono earlier
  have start := le_dayNumber validOther
  omega

theorem dayNumber_lt_of_month (valid : date.isValid = true) (validOther : other.isValid = true)
    (sameYear : date.year = other.year) (earlier : date.month < other.month) :
    date.dayNumber < other.dayNumber := by
  have within := dayNumber_lt_nextMonth valid
  have months : daysBeforeMonth date.year (date.month + 1) ≤
      daysBeforeMonth date.year other.month :=
    daysBeforeMonth_mono date.year (by omega) earlier
  have start := le_dayNumber validOther
  rw [← sameYear] at start
  omega

theorem dayNumber_lt_of_day (sameYear : date.year = other.year)
    (sameMonth : date.month = other.month) (earlier : date.day < other.day) :
    date.dayNumber < other.dayNumber := by
  unfold dayNumber
  rw [sameYear, sameMonth]
  omega

/-- Valid dates with the same number are the same. -/
theorem eq_of_dayNumber_eq (valid : date.isValid = true) (validOther : other.isValid = true)
    (same : date.dayNumber = other.dayNumber) : date = other := by
  have sameYear : date.year = other.year := by
    rcases Int.lt_trichotomy date.year other.year with less | equal | greater
    · exact absurd same (Int.ne_of_lt (dayNumber_lt_of_year valid validOther less))
    · exact equal
    · exact absurd same.symm (Int.ne_of_lt (dayNumber_lt_of_year validOther valid greater))
  have sameMonth : date.month = other.month := by
    rcases Nat.lt_trichotomy date.month other.month with less | equal | greater
    · exact absurd same (Int.ne_of_lt (dayNumber_lt_of_month valid validOther sameYear less))
    · exact equal
    · exact absurd same.symm
        (Int.ne_of_lt (dayNumber_lt_of_month validOther valid sameYear.symm greater))
  have sameDay : date.day = other.day := by
    rcases Nat.lt_trichotomy date.day other.day with less | equal | greater
    · exact absurd same (Int.ne_of_lt (dayNumber_lt_of_day sameYear sameMonth less))
    · exact equal
    · exact absurd same.symm
        (Int.ne_of_lt (dayNumber_lt_of_day sameYear.symm sameMonth.symm greater))
  cases date
  cases other
  simp_all

/-! ## The date of a day number -/

/-- The year of a day is the one in which it lies. -/
theorem yearOf_bounds (days : Int) :
    daysBeforeYear (yearOf days) ≤ days ∧ days < daysBeforeYear (yearOf days + 1) := by
  unfold yearOf
  dsimp only
  split
  · rename_i before
    refine ⟨?_, by simpa using before⟩
    simp only [daysBeforeYear]
    omega
  · split
    · rename_i after
      refine ⟨after, ?_⟩
      simp only [daysBeforeYear]
      omega
    · omega

/-- The place of a day that follows others in the months from a first one on. -/
theorem placeInYear_spec (year : Int) (months : Nat) {first days : Nat} (counted : 1 ≤ first)
    (within : daysBeforeMonth year first + days < daysBeforeMonth year (first + months + 1)) :
    first ≤ (placeInYear year first months days).1 ∧
      (placeInYear year first months days).1 ≤ first + months ∧
      1 ≤ (placeInYear year first months days).2 ∧
      (placeInYear year first months days).2 ≤
        monthLength year (placeInYear year first months days).1 ∧
      daysBeforeMonth year (placeInYear year first months days).1 +
        (placeInYear year first months days).2 = daysBeforeMonth year first + days + 1 := by
  have next := daysBeforeMonth_next year counted
  induction months generalizing first days with
  | zero =>
      rw [Nat.add_zero] at within
      refine ⟨Nat.le_refl _, Nat.le_refl _, Nat.le_add_left 1 days, ?_, rfl⟩
      simp only [placeInYear]
      omega
  | succ months inductionHypothesis =>
      rw [placeInYear]
      split
      · rename_i inside
        exact ⟨Nat.le_refl _, Nat.le_add_right _ _, Nat.le_add_left 1 days, inside, rfl⟩
      · have rest : daysBeforeMonth year (first + 1) + (days - monthLength year first) <
            daysBeforeMonth year (first + 1 + months + 1) := by
          rw [Nat.add_right_comm first 1 months, Nat.add_assoc first months 1]
          omega
        have later := inductionHypothesis (Nat.le_add_left 1 first) rest
          (daysBeforeMonth_next year (Nat.le_add_left 1 first))
        omega

theorem ofDayNumber_spec (number : Int) :
    (ofDayNumber number).isValid = true ∧ (ofDayNumber number).dayNumber = number := by
  obtain ⟨low, high⟩ := yearOf_bounds (number + daysBeforeEpoch)
  have year_eq : (ofDayNumber number).year = yearOf (number + daysBeforeEpoch) := rfl
  rw [← year_eq] at low high
  rw [daysBeforeYear_next] at high
  have start : daysBeforeMonth (ofDayNumber number).year 1 = 0 := rfl
  have within : daysBeforeMonth (ofDayNumber number).year 1 +
      (number + daysBeforeEpoch - daysBeforeYear (ofDayNumber number).year).toNat <
        daysBeforeMonth (ofDayNumber number).year 13 := by
    omega
  obtain ⟨first, last, firstDay, lastDay, sum⟩ :=
    placeInYear_spec (ofDayNumber number).year 11 (Nat.le_refl 1) within
  have place_eq : placeInYear (ofDayNumber number).year 1 11
      (number + daysBeforeEpoch - daysBeforeYear (ofDayNumber number).year).toNat =
        ((ofDayNumber number).month, (ofDayNumber number).day) := rfl
  simp only [place_eq] at first last firstDay lastDay sum
  refine ⟨isValid_iff.2 ⟨first, last, firstDay, lastDay⟩, ?_⟩
  unfold dayNumber
  omega

@[simp] theorem isValid_ofDayNumber (number : Int) : (ofDayNumber number).isValid = true :=
  (ofDayNumber_spec number).1

@[simp] theorem dayNumber_ofDayNumber (number : Int) : (ofDayNumber number).dayNumber = number :=
  (ofDayNumber_spec number).2

theorem ofDayNumber_dayNumber (valid : date.isValid = true) :
    ofDayNumber date.dayNumber = date :=
  eq_of_dayNumber_eq (isValid_ofDayNumber _) valid (dayNumber_ofDayNumber _)

/-- The year of a day number lies between two years when the number does. -/
theorem year_ofDayNumber_bounds {number first last : Int}
    (low : daysBeforeYear first ≤ number + daysBeforeEpoch)
    (high : number + daysBeforeEpoch < daysBeforeYear (last + 1)) :
    first ≤ (ofDayNumber number).year ∧ (ofDayNumber number).year ≤ last := by
  obtain ⟨start, finish⟩ := yearOf_bounds (number + daysBeforeEpoch)
  have year_eq : (ofDayNumber number).year = yearOf (number + daysBeforeEpoch) := rfl
  constructor
  · refine Int.not_lt.1 fun before => ?_
    have years : daysBeforeYear (yearOf (number + daysBeforeEpoch) + 1) ≤ daysBeforeYear first :=
      daysBeforeYear_mono (by omega)
    omega
  · refine Int.not_lt.1 fun after => ?_
    have years : daysBeforeYear (last + 1) ≤ daysBeforeYear (yearOf (number + daysBeforeEpoch)) :=
      daysBeforeYear_mono (by omega)
    omega

end Date

/-! ## Civil times -/

namespace CivilTime

variable {time other : CivilTime}

/-- A time of a day of the calendar, without leap seconds. -/
structure IsValid (time : CivilTime) : Prop where
  date : time.date.isValid = true
  hour : time.hour < 24
  minute : time.minute < 60
  second : time.second < 60

/-- The second of its day in which a time lies. -/
def ofDay (time : CivilTime) : Nat := time.hour * 3600 + time.minute * 60 + time.second

theorem seconds_eq (time : CivilTime) :
    time.seconds = time.date.dayNumber * 86400 + (time.ofDay : Int) := rfl

theorem IsValid.ofDay_lt (valid : time.IsValid) : time.ofDay < 86400 := by
  obtain ⟨_, hour, minute, second⟩ := valid
  unfold ofDay
  omega

end CivilTime

namespace Instant

theorem isValid_civil (instant : Instant) : instant.civil.IsValid where
  date := Date.isValid_ofDayNumber _
  hour := by
    simp only [civil]
    omega
  minute := by
    simp only [civil]
    omega
  second := by
    simp only [civil]
    omega

@[simp] theorem seconds_civil (instant : Instant) : instant.civil.seconds = instant.seconds := by
  simp only [civil, CivilTime.seconds, Date.dayNumber_ofDayNumber]
  omega

@[simp] theorem seconds_ofSeconds (seconds : Int) : (ofSeconds seconds).seconds = seconds := by
  simp only [ofSeconds, Instant.seconds]
  omega

/-- A second has begun at an instant exactly if it has at the start of the second that holds
the instant. -/
theorem ofSeconds_le_iff {seconds : Int} {instant : Instant} :
    ofSeconds seconds ≤ instant ↔ ofSeconds seconds ≤ ofSeconds instant.seconds := by
  show seconds * 1000000000 ≤ instant.nanos ↔
    seconds * 1000000000 ≤ instant.nanos / 1000000000 * 1000000000
  omega

theorem lt_of_lt_of_le {first second third : Instant} (before : first < second)
    (upTo : second ≤ third) : first < third :=
  Int.lt_of_lt_of_le before upTo

theorem lt_of_le_of_lt {first second third : Instant} (upTo : first ≤ second)
    (before : second < third) : first < third :=
  Int.lt_of_le_of_lt upTo before

theorem le_trans {first second third : Instant} (left : first ≤ second)
    (right : second ≤ third) : first ≤ third :=
  Int.le_trans left right

theorem le_antisymm {first second : Instant} (left : first ≤ second) (right : second ≤ first) :
    first = second :=
  congrArg Instant.mk (Int.le_antisymm left right)

end Instant

/-- The civil time of the instant of a valid time is that time. -/
theorem CivilTime.civil_instant {time : CivilTime} (valid : time.IsValid) :
    time.instant.civil = time := by
  have below := valid.ofDay_lt
  have seconds : time.instant.seconds = time.date.dayNumber * 86400 + (time.ofDay : Int) :=
    Instant.seconds_ofSeconds _
  have ofDay : (time.instant.seconds % 86400).toNat = time.ofDay := by omega
  have day : time.instant.seconds / 86400 = time.date.dayNumber := by omega
  obtain ⟨_, hour, minute, second⟩ := valid
  unfold Instant.civil
  rw [ofDay, day, Date.ofDayNumber_dayNumber ‹_›]
  unfold CivilTime.ofDay
  cases time
  simp only [CivilTime.mk.injEq, true_and] at *
  omega

end NodeFleet.Calendar
