import Mathlib.Algebra.Ring.Nat
import NodeFleet.Proofs.Calendar.Rfc3339
import NodeFleet.Proofs.Text.ByteOrder

/-!
# Stamps of civil times

A stamp writes a civil time in fourteen digits, the greatest unit first.  Of years with four digits
a stamp belongs to one second only, and the byte order of stamps is the order of their seconds.
-/

namespace NodeFleet.Calendar

open Text

/-! ## Numbers of fixed widths -/

/-- The digits of some numbers, each with its width. -/
def fixedDigits (units : List (Nat × Nat)) : List Char :=
  units.flatMap fun unit => (padded unit.1 unit.2).toList

/-- A number has a width, and is not wider. -/
def FitsWidth (unit : Nat × Nat) : Prop := 0 < unit.1 ∧ unit.2 < 10 ^ unit.1

section FixedDigits

variable {units : List (Nat × Nat)}

theorem isDigit_of_mem_fixedDigits {digit : Char} (member : digit ∈ fixedDigits units) :
    digit.isDigit = true := by
  obtain ⟨unit, _, inUnit⟩ := List.mem_flatMap.1 member
  exact isDigit_of_mem_padded inUnit

theorem length_fixedDigits (fit : ∀ unit ∈ units, FitsWidth unit) :
    (fixedDigits units).length = (units.map Prod.fst).sum := by
  rw [fixedDigits, List.length_flatMap]
  refine congrArg List.sum (List.map_congr_left fun unit member => ?_)
  exact length_padded (fit unit member).1 (fit unit member).2

/-- The digits make one number, in which every unit counts by the widths after it. -/
theorem ofDigitChars_fixedDigits (fit : ∀ unit ∈ units, FitsWidth unit) (start : Nat) :
    Nat.ofDigitChars 10 (fixedDigits units) start =
      units.foldl (fun number unit => 10 ^ unit.1 * number + unit.2) start := by
  induction units generalizing start with
  | nil => rfl
  | cons unit units inductionHypothesis =>
      rw [List.forall_mem_cons] at fit
      have first : Nat.ofDigitChars 10 (padded unit.1 unit.2).toList start =
          10 ^ unit.1 * start + unit.2 := by
        rw [Nat.ofDigitChars_eq_ofDigitChars_zero, ofDigitChars_padded,
          length_padded fit.1.1 fit.1.2]
      rw [List.foldl_cons, ← inductionHypothesis fit.2, ← first, ← Nat.ofDigitChars_append]
      rfl

end FixedDigits

/-! ## Stamps -/

namespace CivilTime

/-- The units of a civil time, each with the digits that a stamp gives it. -/
def units (time : CivilTime) : List (Nat × Nat) :=
  [(4, time.date.year.toNat), (2, time.date.month), (2, time.date.day), (2, time.hour),
    (2, time.minute), (2, time.second)]

def stamp (time : CivilTime) : List Char := fixedDigits time.units

/-- The number that the digits of a stamp make. -/
def number (time : CivilTime) : Nat :=
  time.units.foldl (fun number unit => 10 ^ unit.1 * number + unit.2) 0

/-- A valid civil time of a year that has four digits. -/
structure IsStamped (time : CivilTime) : Prop where
  valid : time.IsValid
  year : Rfc3339.HasFourDigits time.date.year

variable {time other : CivilTime}

theorem isDigit_of_mem_stamp {digit : Char} (member : digit ∈ time.stamp) :
    digit.isDigit = true :=
  isDigit_of_mem_fixedDigits member

theorem seconds_lt_of_dayNumber_lt (valid : time.IsValid)
    (earlier : time.date.dayNumber < other.date.dayNumber) : time.seconds < other.seconds := by
  have below := valid.ofDay_lt
  rw [seconds_eq, seconds_eq]
  omega

namespace IsStamped

theorem bounds (stamped : time.IsStamped) :
    time.date.month ≤ 12 ∧ time.date.day ≤ 31 ∧ time.hour < 24 ∧ time.minute < 60 ∧
      time.second < 60 := by
  obtain ⟨date, hour, minute, second⟩ := stamped.valid
  obtain ⟨_, lastMonth, _, lastDay⟩ := Date.isValid_iff.1 date
  have short := Rfc3339.monthLength_le time.date.year time.date.month
  exact ⟨lastMonth, Nat.le_trans lastDay short, hour, minute, second⟩

theorem fitsWidth (stamped : time.IsStamped) : ∀ unit ∈ time.units, FitsWidth unit := by
  obtain ⟨month, day, hour, minute, second⟩ := stamped.bounds
  have year := stamped.year
  simp only [units, List.forall_mem_cons, FitsWidth]
  refine ⟨⟨by decide, ?_⟩, ⟨by decide, ?_⟩, ⟨by decide, ?_⟩, ⟨by decide, ?_⟩, ⟨by decide, ?_⟩,
    ⟨by decide, ?_⟩, nofun⟩
  all_goals omega

theorem length_stamp (stamped : time.IsStamped) : time.stamp.length = 14 :=
  length_fixedDigits stamped.fitsWidth

theorem ofDigitChars_stamp (stamped : time.IsStamped) :
    Nat.ofDigitChars 10 time.stamp 0 = time.number :=
  ofDigitChars_fixedDigits stamped.fitsWidth 0

/-- Civil times with the same number are the same. -/
theorem eq_of_number_eq (stamped : time.IsStamped) (stampedToo : other.IsStamped)
    (same : time.number = other.number) : time = other := by
  have bounds := stamped.bounds
  have boundsToo := stampedToo.bounds
  have year := stamped.year
  have yearToo := stampedToo.year
  obtain ⟨⟨year, month, day⟩, hour, minute, second⟩ := time
  obtain ⟨⟨year', month', day'⟩, hour', minute', second'⟩ := other
  simp only [number, units, List.foldl_cons, List.foldl_nil] at *
  simp only [CivilTime.mk.injEq, Date.mk.injEq]
  omega

/-- The units of civil times decide in which order they come, the greatest first. -/
theorem seconds_lt_of_number_lt (stamped : time.IsStamped) (stampedToo : other.IsStamped)
    (less : time.number < other.number) : time.seconds < other.seconds := by
  have bounds := stamped.bounds
  have boundsToo := stampedToo.bounds
  have year := stamped.year
  have yearToo := stampedToo.year
  simp only [number, units, List.foldl_cons, List.foldl_nil] at less
  rcases Int.lt_trichotomy time.date.year other.date.year with earlier | sameYear | later
  · exact seconds_lt_of_dayNumber_lt stamped.valid
      (Date.dayNumber_lt_of_year stamped.valid.date stampedToo.valid.date earlier)
  rcases Nat.lt_trichotomy time.date.month other.date.month with earlier | sameMonth | later
  · exact seconds_lt_of_dayNumber_lt stamped.valid
      (Date.dayNumber_lt_of_month stamped.valid.date stampedToo.valid.date sameYear earlier)
  rcases Nat.lt_trichotomy time.date.day other.date.day with earlier | sameDay | later
  · exact seconds_lt_of_dayNumber_lt stamped.valid
      (Date.dayNumber_lt_of_day sameYear sameMonth earlier)
  · have sameDate : time.date.dayNumber = other.date.dayNumber := by
      unfold Date.dayNumber
      rw [sameYear, sameMonth, sameDay]
    rw [seconds_eq, seconds_eq, sameDate, ofDay, ofDay]
    omega
  all_goals omega

/-- The numbers of civil times are in the order of their seconds. -/
theorem number_lt_iff (stamped : time.IsStamped) (stampedToo : other.IsStamped) :
    time.number < other.number ↔ time.seconds < other.seconds := by
  refine ⟨seconds_lt_of_number_lt stamped stampedToo, fun earlier => ?_⟩
  rcases Nat.lt_trichotomy time.number other.number with less | same | greater
  · exact less
  · rw [eq_of_number_eq stamped stampedToo same] at earlier
    exact absurd earlier (Int.lt_irrefl _)
  · have later := seconds_lt_of_number_lt stampedToo stamped greater
    omega

/-- The byte order of stamps is the order of their seconds. -/
theorem stamp_lt_iff (stamped : time.IsStamped) (stampedToo : other.IsStamped) :
    time.stamp.flatMap String.utf8EncodeChar < other.stamp.flatMap String.utf8EncodeChar ↔
      time.seconds < other.seconds := by
  have sameLength : time.stamp.length = other.stamp.length := by
    rw [stamped.length_stamp, stampedToo.length_stamp]
  rw [digits_lt_iff (fun _ => isDigit_of_mem_stamp) (fun _ => isDigit_of_mem_stamp) sameLength,
    stamped.ofDigitChars_stamp, stampedToo.ofDigitChars_stamp, number_lt_iff stamped stampedToo]

/-- A stamp belongs to one civil time. -/
theorem eq_of_stamp_eq (stamped : time.IsStamped) (stampedToo : other.IsStamped)
    (same : time.stamp = other.stamp) : time = other := by
  refine eq_of_number_eq stamped stampedToo ?_
  rw [← stamped.ofDigitChars_stamp, ← stampedToo.ofDigitChars_stamp, same]

end IsStamped

end CivilTime

namespace Instant

variable {instant other : Instant}

/-- The civil time of an instant is that of its second. -/
theorem civil_eq_iff : instant.civil = other.civil ↔ instant.seconds = other.seconds := by
  constructor
  · intro same
    rw [← seconds_civil instant, ← seconds_civil other, same]
  · intro same
    unfold civil
    rw [same]

end Instant

end NodeFleet.Calendar
