import Mathlib.Algebra.Group.Nat.Defs
import NodeFleet.Proofs.Calendar.Rfc3339

/-!
# Spellings of instants

RFC 3339 spells an instant as a local date and time, a fraction of any number of digits and the
offset of local time from UTC.  Every spelling with at most nine digits is read, and a timestamp
keeps the second that holds its instant.  It is printed in UTC and read back as the same second,
which is never after the instant.
-/

namespace NodeFleet.Calendar

open Text

namespace Rfc3339

/-! ## Spellings -/

/-- How local time differs from UTC: not at all, or by hours and minutes. -/
inductive Zone
  | utc (mark : Char) (isMark : mark = 'Z' ∨ mark = 'z')
  | offset (sign : Char) (isSign : sign = '+' ∨ sign = '-') (hour minute : Nat)
      (inDay : hour < 24) (inHour : minute < 60)

namespace Zone

/-- The seconds by which local time is ahead of UTC. -/
def seconds : Zone → Int
  | .utc _ _ => 0
  | .offset sign _ hour minute _ _ =>
      if sign = '-' then -(hour * 3600 + minute * 60 : Nat) else (hour * 3600 + minute * 60 : Nat)

def text : Zone → List Char
  | .utc mark _ => [mark]
  | .offset sign _ hour minute _ _ =>
      sign :: ((padded 2 hour).toList ++ ':' :: (padded 2 minute).toList)

end Zone

/-- The digits of a fraction follow a point, which is left out if there are none. -/
def fractionText (digits : List Char) : List Char := if digits = [] then [] else '.' :: digits

/-- A fraction of a second in nanoseconds, whatever number of digits it has. -/
def fractionNanos (digits : List Char) : Nat :=
  Nat.ofDigitChars 10 digits 0 * 1000000000 / 10 ^ digits.length

/-- A date and time in the form of RFC 3339. -/
structure Spelling where
  time : CivilTime
  mark : Char
  fraction : List Char
  zone : Zone
  valid : time.IsValid
  fourDigits : HasFourDigits time.date.year
  isMark : mark = 'T' ∨ mark = 't' ∨ mark = ' '
  allDigits : ∀ digit ∈ fraction, digit.isDigit = true

namespace Spelling

def text (spelling : Spelling) : String :=
  String.ofList ((printDate spelling.time.date).toList ++ spelling.mark ::
    ((printClock spelling.time).toList ++ (fractionText spelling.fraction ++ spelling.zone.text)))

/-- The instant that a spelling stands for. -/
def instant (spelling : Spelling) : Instant :=
  ⟨(spelling.time.seconds - spelling.zone.seconds) * 1000000000 + fractionNanos spelling.fraction⟩

end Spelling

/-! ## Reading fractions and offsets -/

section Reading

variable {digits rest : List Char} {zone : Zone}

/-- The text of a zone starts with no digit, and with no mark of a fraction. -/
theorem Zone.exists_head (zone : Zone) : ∃ first rest, zone.text = first :: rest ∧
    first.isDigit = false ∧ first ≠ '.' ∧ first ≠ ',' := by
  cases zone with
  | utc mark isMark => rcases isMark with rfl | rfl <;> exact ⟨_, _, rfl, by decide⟩
  | offset sign isSign => rcases isSign with rfl | rfl <;> exact ⟨_, _, rfl, by decide⟩

theorem Zone.endsDigits (zone : Zone) : EndsDigits zone.text := by
  obtain ⟨first, rest, text, noDigit, _⟩ := zone.exists_head
  rw [text]
  intro next isNext
  rwa [← Option.some.inj isNext]

theorem fractionNanos_nil : fractionNanos [] = 0 := rfl

/-- A fraction of at most nine digits is a whole number of nanoseconds. -/
theorem fractionNanos_eq (short : digits.length ≤ 9) :
    fractionNanos digits = Nat.ofDigitChars 10 digits 0 * 10 ^ (9 - digits.length) := by
  have scale : (1000000000 : Nat) = 10 ^ (9 - digits.length) * 10 ^ digits.length := by
    rw [← Nat.pow_add, Nat.sub_add_cancel short]
  rw [fractionNanos, scale, ← Nat.mul_assoc, Nat.mul_div_cancel _ (Nat.pow_pos (by decide))]

theorem readFraction_fractionText (allDigits : ∀ digit ∈ digits, digit.isDigit = true)
    (zone : Zone) :
    readFraction (fractionText digits ++ zone.text) =
      if digits.length ≤ 9 then some (fractionNanos digits, zone.text) else none := by
  obtain ⟨first, rest, text, noDigit, noPoint, noComma⟩ := zone.exists_head
  by_cases none : digits = []
  · subst none
    rw [text]
    simp [fractionText, readFraction, noPoint, noComma, fractionNanos_nil]
  · have filled : 1 ≤ digits.length := List.length_pos_iff.2 none
    have taken := takeWhile_run allDigits zone.endsDigits
    have reads := readDigits_append rfl allDigits []
    rw [List.append_nil] at reads
    rw [fractionText, if_neg none, List.cons_append, readFraction]
    simp only [true_or, if_true, taken, filled, true_and, List.drop_left]
    split
    · rename_i short
      rw [reads, fractionNanos_eq short]
      rfl
    · rfl

/-- The offset of a spelling is read. -/
theorem readOffset_text (zone : Zone) : readOffset zone.text = some (zone.seconds, []) := by
  cases zone with
  | utc mark isMark => rcases isMark with rfl | rfl <;> rfl
  | offset sign isSign hour minute inDay inHour =>
    have readHour := fun rest => readDigits_two (show hour < 100 by omega) rest
    have readMinute := readDigits_two (show minute < 100 by omega) []
    rw [List.append_nil] at readMinute
    have clock : readClock ((padded 2 hour).toList ++ ':' :: (padded 2 minute).toList) =
        some (⟨hour, minute, 0, 0⟩, []) := by
      simp [readClock, readUnit?, readHour, readMinute]
    have within : hour ≤ 25 ∧ minute ≤ 59 := by omega
    rcases isSign with rfl | rfl <;> simp [readOffset, Zone.text, Zone.seconds, clock, within]

end Reading

namespace Spelling

/-- A spelling is read exactly if its fraction has at most nine digits, and it is read as the
instant that it stands for. -/
theorem read_text (spelling : Spelling) :
    read spelling.text =
      if spelling.fraction.length ≤ 9 then some spelling.instant else none := by
  obtain ⟨time, mark, fraction, zone, valid, fourDigits, isMark, allDigits⟩ := spelling
  obtain ⟨_, hour, minute, second⟩ := id valid
  have within : time.hour ≤ 23 ∧ time.minute ≤ 59 ∧ time.second ≤ 60 := by omega
  have noLeap : time.second ≠ 60 := by omega
  have whole : min time.second 59 = time.second := by omega
  have marked : ∀ rest, readOneOf ['T', 't', ' '] (mark :: rest) = some rest := by
    rcases isMark with rfl | rfl | rfl <;> intro rest <;> rfl
  unfold read text
  rw [String.toList_ofList, readDate_printDate valid.date fourDigits]
  simp only [Option.bind_eq_bind, Option.bind_some, marked, readClock_printClock valid,
    readFraction_fractionText allDigits]
  split
  · simp [readOffset_text, within, noLeap, whole, instant]
  · rfl

/-- The spelling of a second in UTC. -/
def ofCivil (time : CivilTime) (valid : time.IsValid) (fourDigits : HasFourDigits time.date.year) :
    Spelling where
  time := time
  mark := 'T'
  fraction := []
  zone := .utc 'Z' (Or.inl rfl)
  valid := valid
  fourDigits := fourDigits
  isMark := Or.inl rfl
  allDigits := by simp

/-- A spelling in UTC with a capital T and Z, and without a fraction. -/
structure IsCanonical (spelling : Spelling) : Prop where
  mark : spelling.mark = 'T'
  fraction : spelling.fraction = []
  zone : spelling.zone.text = ['Z']

theorem isCanonical_ofCivil {time : CivilTime} (valid : time.IsValid)
    (fourDigits : HasFourDigits time.date.year) : (ofCivil time valid fourDigits).IsCanonical :=
  ⟨rfl, rfl, rfl⟩

variable {instant : Instant}

theorem text_ofCivil (fourDigits : HasFourDigits instant.civil.date.year) :
    (ofCivil instant.civil instant.isValid_civil fourDigits).text = printSeconds instant := by
  rw [← String.toList_inj, toList_printSeconds, text, String.toList_ofList]
  rfl

theorem instant_ofCivil (fourDigits : HasFourDigits instant.civil.date.year) :
    (ofCivil instant.civil instant.isValid_civil fourDigits).instant =
      .ofSeconds instant.seconds := by
  simp [Spelling.instant, ofCivil, Zone.seconds, fractionNanos_nil, Instant.ofSeconds]

end Spelling

end Rfc3339

/-! ## The second of an instant -/

namespace Instant

variable {instant whole : Instant}

/-- An instant from the year 1 to the last year of which every second is a timestamp. -/
def InCommonEra (instant : Instant) : Prop :=
  1 ≤ instant.civil.date.year ∧ instant.civil.date.year ≤ 9998

instance (instant : Instant) : Decidable instant.InCommonEra :=
  inferInstanceAs (Decidable (1 ≤ instant.civil.date.year ∧ instant.civil.date.year ≤ 9998))

/-- The last whole second that has begun at an instant. -/
structure IsRoundedDown (instant whole : Instant) : Prop where
  isWhole : ∃ seconds, whole = .ofSeconds seconds
  begun : whole ≤ instant
  notOver : instant < whole.addSeconds 1

theorem isRoundedDown_ofSeconds (instant : Instant) :
    instant.IsRoundedDown (.ofSeconds instant.seconds) where
  isWhole := ⟨_, rfl⟩
  begun := by
    show instant.nanos / 1000000000 * 1000000000 ≤ instant.nanos
    omega
  notOver := by
    show instant.nanos < instant.nanos / 1000000000 * 1000000000 + 1 * 1000000000
    omega

theorem civil_ofSeconds (instant : Instant) : (ofSeconds instant.seconds).civil = instant.civil := by
  unfold civil
  rw [seconds_ofSeconds]

theorem InCommonEra.fourDigits (inEra : instant.InCommonEra) :
    Rfc3339.HasFourDigits instant.civil.date.year := by
  obtain ⟨first, last⟩ := inEra
  exact ⟨by omega, by omega⟩

theorem inCommonEra_iff : instant.InCommonEra ↔ (⟨instant.seconds⟩ : Timestamp).InCommonEra := by
  rw [InCommonEra, Timestamp.InCommonEra, civil_ofSeconds]

theorem ofSeconds_seconds_le {earlier later : Instant} (ordered : earlier ≤ later) :
    ofSeconds earlier.seconds ≤ ofSeconds later.seconds := by
  have nanos : earlier.nanos ≤ later.nanos := ordered
  show earlier.nanos / 1000000000 * 1000000000 ≤ later.nanos / 1000000000 * 1000000000
  omega

end Instant

namespace Timestamp

variable {timestamp : Timestamp} {instant : Instant}

theorem text_eq (instant : Instant) : text ⟨instant.seconds⟩ = Rfc3339.printSeconds instant := by
  unfold text Rfc3339.printSeconds
  rw [Instant.civil_ofSeconds]

/-- The timestamp of an instant is that of its second. -/
theorem ofInstant?_of_inCommonEra (inEra : instant.InCommonEra) :
    ofInstant? instant = some ⟨instant.seconds⟩ := by
  rw [ofInstant?, ← text_eq]
  exact (Instant.inCommonEra_iff.1 inEra).read_text

theorem instant?_of_inCommonEra (inEra : timestamp.InCommonEra) :
    timestamp.instant? = some (.ofSeconds timestamp.seconds) := by
  have sameEra : (Instant.ofSeconds timestamp.seconds).InCommonEra := inEra
  rw [instant?, text, Rfc3339.read_printSeconds, if_pos sameEra.fourDigits,
    Instant.seconds_ofSeconds]

/-- What is left of an instant that is kept as a timestamp. -/
def kept? (instant : Instant) : Option Instant := (ofInstant? instant).bind instant?

theorem kept?_eq (inEra : instant.InCommonEra) :
    kept? instant = some (.ofSeconds instant.seconds) := by
  rw [kept?, ofInstant?_of_inCommonEra inEra, Option.bind_some]
  exact instant?_of_inCommonEra (Instant.inCommonEra_iff.1 inEra)

/-- A spelling is read, and printed as the spelling in UTC of the second that holds its instant. -/
def RoundsDown (spelling : Rfc3339.Spelling) : Prop :=
  ∃ (timestamp : Timestamp) (printed : Rfc3339.Spelling), read spelling.text = some timestamp ∧
    timestamp.text = printed.text ∧ printed.IsCanonical ∧
    spelling.instant.IsRoundedDown printed.instant

variable {spelling : Rfc3339.Spelling}

theorem roundsDown_of_short (inEra : spelling.instant.InCommonEra)
    (short : spelling.fraction.length ≤ 9) : RoundsDown spelling := by
  have inBounds := (Instant.inCommonEra_iff.1 inEra).admits
  have valid := spelling.instant.isValid_civil
  refine ⟨⟨spelling.instant.seconds⟩,
    Rfc3339.Spelling.ofCivil spelling.instant.civil valid inEra.fourDigits, ?_, ?_,
    Rfc3339.Spelling.isCanonical_ofCivil valid inEra.fourDigits, ?_⟩
  · rw [read, spelling.read_text, if_pos short]
    simp [inBounds]
  · rw [text_eq, Rfc3339.Spelling.text_ofCivil]
  · rw [Rfc3339.Spelling.instant_ofCivil]
    exact spelling.instant.isRoundedDown_ofSeconds

theorem read_eq_none_of_long (long : 9 < spelling.fraction.length) : read spelling.text = none := by
  rw [read, spelling.read_text, if_neg (Nat.not_le.2 long)]
  rfl

/-- From the year 1 to the year 9998, an instant that is kept as a timestamp is rounded down to a
whole second, so that of two instants the earlier one stays so, and a timestamp is kept as it is.
A spelling with at most nine digits of a fraction is read, and printed as the whole second in UTC
to which it is rounded down; one with more digits is not read. -/
theorem timestamps_round_down :
    (∀ instant : Instant, instant.InCommonEra →
      ∃ whole, kept? instant = some whole ∧ instant.IsRoundedDown whole) ∧
    (∀ earlier later : Instant, earlier.InCommonEra → later.InCommonEra → earlier ≤ later →
      ∃ whole whole', kept? earlier = some whole ∧ kept? later = some whole' ∧ whole ≤ whole') ∧
    (∀ timestamp : Timestamp, timestamp.InCommonEra →
      timestamp.instant?.bind ofInstant? = some timestamp) ∧
    (∀ spelling : Rfc3339.Spelling, spelling.instant.InCommonEra → spelling.fraction.length ≤ 9 →
      RoundsDown spelling) ∧
    ∀ spelling : Rfc3339.Spelling, 9 < spelling.fraction.length →
      read spelling.text = none := by
  refine ⟨fun instant inEra => ?rounded, fun earlier later inEra inEraToo ordered => ?ordered,
    fun timestamp inEra => ?stays, fun spelling => roundsDown_of_short,
    fun spelling => read_eq_none_of_long⟩
  case rounded => exact ⟨_, kept?_eq inEra, instant.isRoundedDown_ofSeconds⟩
  case ordered =>
    exact ⟨_, _, kept?_eq inEra, kept?_eq inEraToo, Instant.ofSeconds_seconds_le ordered⟩
  case stays =>
    have sameEra : (Instant.ofSeconds timestamp.seconds).InCommonEra := inEra
    rw [instant?_of_inCommonEra inEra, Option.bind_some, ofInstant?_of_inCommonEra sameEra,
      Instant.seconds_ofSeconds]

/-- The first instants of the year 1, in a local time of the year before. -/
def newYearSpelling : Rfc3339.Spelling where
  time := ⟨⟨0, 12, 31⟩, 23, 30, 0⟩
  mark := ' '
  fraction := .replicate 9 '9'
  zone := .offset '-' (Or.inr rfl) 0 30 (by decide) (by decide)
  valid := ⟨by decide, by decide, by decide, by decide⟩
  fourDigits := by decide
  isMark := Or.inr (Or.inr rfl)
  allDigits := List.all_eq_true.1 rfl

/-- Half a second past noon, with a digit too many. -/
def longSpelling : Rfc3339.Spelling where
  time := ⟨⟨2024, 3, 1⟩, 12, 0, 0⟩
  mark := 'T'
  fraction := '5' :: .replicate 9 '0'
  zone := .utc 'Z' (Or.inl rfl)
  valid := ⟨by decide, by decide, by decide, by decide⟩
  fourDigits := by decide
  isMark := Or.inl rfl
  allDigits := List.all_eq_true.1 rfl

example : newYearSpelling.text = "0000-12-31 23:30:00.999999999-00:30" := by decide

example : longSpelling.text = "2024-03-01T12:00:00.5000000000Z" := by decide

/-- Half a second before 1970 is rounded down, and the last nanosecond of a second belongs to it. -/
theorem timestamps_round_down_of_newYear :
    (Instant.mk (-500000000)).InCommonEra ∧
      (∃ whole, kept? ⟨-500000000⟩ = some whole ∧
        (Instant.mk (-500000000)).IsRoundedDown whole) ∧
      newYearSpelling.instant.InCommonEra ∧ newYearSpelling.fraction.length ≤ 9 ∧
      RoundsDown newYearSpelling ∧
      9 < longSpelling.fraction.length ∧ read longSpelling.text = none := by
  obtain ⟨rounded, _, _, reads, refuses⟩ := timestamps_round_down
  have beforeEpoch : (Instant.mk (-500000000)).InCommonEra := by decide
  have newYear : newYearSpelling.instant.InCommonEra := by decide
  exact ⟨beforeEpoch, rounded _ beforeEpoch, newYear, by decide, reads _ newYear (by decide),
    by decide, refuses _ (by decide)⟩

/-- Not every spelling of an instant is read: its fraction may have ten digits. -/
theorem not_readsAnyFraction :
    ¬ ∀ spelling : Rfc3339.Spelling, spelling.instant.InCommonEra → RoundsDown spelling := by
  intro readsAny
  obtain ⟨_, _, reads, _⟩ := readsAny longSpelling (by decide)
  rw [read_eq_none_of_long (by decide)] at reads
  cases reads

end Timestamp

end NodeFleet.Calendar
