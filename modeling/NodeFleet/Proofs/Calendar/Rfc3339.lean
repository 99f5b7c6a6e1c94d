import NodeFleet.Calendar.Timestamp
import NodeFleet.Proofs.Calendar.Date
import NodeFleet.Proofs.Text.Decimal

/-!
# Timestamps are read back

What is printed of an instant is read back as the second that holds it, if its year has four
digits.  Other years are printed with a sign, and their timestamps cannot be read.
-/

namespace NodeFleet.Calendar

namespace Rfc3339

variable {rest : List Char} {date : Date} {time : CivilTime}

/-! ## Digits -/

theorem readDigits_append {digits : List Char} {count : Nat} (length : digits.length = count)
    (allDigits : ∀ digit ∈ digits, digit.isDigit = true) (rest : List Char) :
    readDigits count (digits ++ rest) = some (Nat.ofDigitChars 10 digits 0, rest) := by
  subst length
  have all : digits.all Char.isDigit = true := by simpa using allDigits
  simp [readDigits, all, Nat.ofDigitChars_eq_foldl, Nat.mul_comm]

theorem readDigits_padded {width value : Nat} (filled : 0 < width) (fits : value < Nat.pow 10 width)
    (rest : List Char) :
    readDigits width ((Text.padded width value).toList ++ rest) = some (value, rest) := by
  rw [readDigits_append (Text.length_padded filled fits)
    (fun digit member => Text.isDigit_of_mem_padded member), Text.ofDigitChars_padded]

theorem readDigits_of_sign {count : Nat} {sign : Char} (filled : 0 < count)
    (noDigit : sign.isDigit = false) (rest : List Char) :
    readDigits count (sign :: rest) = none := by
  obtain ⟨less, rfl⟩ := Nat.exists_eq_add_of_le' filled
  simp [readDigits, noDigit]

/-! ## Dates and times -/

/-- The years that are printed without a sign. -/
abbrev HasFourDigits (year : Int) : Prop := 0 ≤ year ∧ year ≤ 9999

theorem printYear_of_signed {year : Int} (signed : ¬ HasFourDigits year) :
    ∃ sign digits, sign.isDigit = false ∧ (printYear year).toList = sign :: digits := by
  unfold printYear
  rw [if_neg signed]
  split
  · exact ⟨'-', _, rfl, String.toList_append⟩
  · exact ⟨'+', _, rfl, String.toList_append⟩

theorem toList_printDate (date : Date) :
    (printDate date).toList = (printYear date.year).toList ++ '-' ::
      ((Text.padded 2 date.month).toList ++ '-' :: (Text.padded 2 date.day).toList) := by
  have text : printDate date = printYear date.year ++ "-" ++ Text.padded 2 date.month ++ "-" ++
      Text.padded 2 date.day := rfl
  simp [text]

theorem toList_printClock (time : CivilTime) :
    (printClock time).toList = (Text.padded 2 time.hour).toList ++ ':' ::
      ((Text.padded 2 time.minute).toList ++ ':' :: (Text.padded 2 time.second).toList) := by
  have text : printClock time = Text.padded 2 time.hour ++ ":" ++ Text.padded 2 time.minute ++
      ":" ++ Text.padded 2 time.second := rfl
  simp [text]

theorem toList_printSeconds (instant : Instant) :
    (printSeconds instant).toList = (printDate instant.civil.date).toList ++ 'T' ::
      ((printClock instant.civil).toList ++ ['Z']) := by
  have text : printSeconds instant =
      printDate instant.civil.date ++ "T" ++ printClock instant.civil ++ "Z" := rfl
  simp [text]

theorem monthLength_le (year : Int) (month : Nat) : monthLength year month ≤ 31 := by
  unfold monthLength
  split <;> split <;> omega

theorem readDigits_two {value : Nat} (fits : value < 100) (rest : List Char) :
    readDigits 2 ((Text.padded 2 value).toList ++ rest) = some (value, rest) :=
  readDigits_padded (by decide) fits rest

theorem readDate_printDate (valid : date.isValid = true) (fourDigits : HasFourDigits date.year)
    (rest : List Char) : readDate ((printDate date).toList ++ rest) = some (date, rest) := by
  obtain ⟨year, month, day⟩ := date
  obtain ⟨_, lastMonth, _, lastDay⟩ := Date.isValid_iff.1 valid
  dsimp only at fourDigits lastMonth lastDay
  obtain ⟨number, rfl⟩ := Int.eq_ofNat_of_zero_le fourDigits.1
  have short := monthLength_le number month
  have printed : printYear number = Text.padded 4 number := if_pos fourDigits
  have readYear := fun rest => readDigits_padded (show 0 < 4 by decide)
    (show number < 10000 by omega) rest
  have readMonth := fun rest => readDigits_two (show month < 100 by omega) rest
  have readDay := fun rest => readDigits_two (show day < 100 by omega) rest
  rw [toList_printDate, printed]
  simp [readDate, readYear, readMonth, readDay, readOneOf, valid]

theorem readDate_of_signed (signed : ¬ HasFourDigits date.year) (rest : List Char) :
    readDate ((printDate date).toList ++ rest) = none := by
  obtain ⟨sign, digits, noDigit, printed⟩ := printYear_of_signed signed
  rw [toList_printDate, printed, List.cons_append, List.cons_append]
  simp [readDate, readDigits_of_sign (show 0 < 4 by decide) noDigit]

/-- A printed time is read back, and with it the fraction that follows. -/
theorem readClock_printClock (valid : time.IsValid) (rest : List Char) :
    readClock ((printClock time).toList ++ rest) =
      (readFraction rest).map fun (nanos, rest) =>
        (⟨time.hour, time.minute, time.second, nanos⟩, rest) := by
  obtain ⟨_, hour, minute, second⟩ := valid
  have readHour := fun rest => readDigits_two (show time.hour < 100 by omega) rest
  have readMinute := fun rest => readDigits_two (show time.minute < 100 by omega) rest
  have readSecond := fun rest => readDigits_two (show time.second < 100 by omega) rest
  rw [toList_printClock]
  simp [readClock, readUnit?, readHour, readMinute, readSecond]
  cases readFraction rest <;> rfl

/-- A timestamp is read back as the second that holds its instant, if the year has four
digits, and otherwise cannot be read. -/
theorem read_printSeconds (instant : Instant) :
    read (printSeconds instant) =
      if HasFourDigits instant.civil.date.year then some (.ofSeconds instant.seconds)
      else none := by
  unfold read
  rw [toList_printSeconds]
  split
  · rename_i fourDigits
    have valid := instant.isValid_civil
    have ends : readFraction ['Z'] = some (0, ['Z']) := by decide
    obtain ⟨_, hour, minute, second⟩ := id valid
    have within : instant.civil.hour ≤ 23 ∧ instant.civil.minute ≤ 59 ∧
        instant.civil.second ≤ 60 := by
      omega
    have noLeap : instant.civil.second ≠ 60 := by omega
    have whole : min instant.civil.second 59 = instant.civil.second := by omega
    have same : (⟨instant.civil.date, instant.civil.hour, instant.civil.minute,
        instant.civil.second⟩ : CivilTime).seconds = instant.seconds := instant.seconds_civil
    rw [readDate_printDate valid.date fourDigits]
    simp [readOneOf, readClock_printClock valid, ends, readOffset, within, noLeap, whole, same,
      Instant.ofSeconds]
  · rename_i signed
    simp [readDate_of_signed signed]

end Rfc3339

namespace Timestamp

/-- The instant of a timestamp, if it has one, is the start of its second. -/
theorem eq_of_instant? {timestamp : Timestamp} {instant : Instant}
    (known : timestamp.instant? = some instant) : instant = .ofSeconds timestamp.seconds := by
  unfold instant? text at known
  rw [Rfc3339.read_printSeconds, Instant.seconds_ofSeconds] at known
  split at known
  · exact (Option.some.inj known).symm
  · cases known

/-- From 1970 to the last timestamp, the years have four digits. -/
theorem hasFourDigits_of_le_high {instant : Instant} (low : 0 ≤ instant.seconds)
    (high : instant.seconds ≤ bounds.high) : Rfc3339.HasFourDigits instant.civil.date.year := by
  have start : daysBeforeYear 0 ≤ instant.seconds / 86400 + daysBeforeEpoch := by
    have before : daysBeforeYear 0 ≤ 0 := by decide
    have epoch : 0 ≤ daysBeforeEpoch := by decide
    omega
  have finish : instant.seconds / 86400 + daysBeforeEpoch < daysBeforeYear (9999 + 1) := by
    have last : 253402207200 / 86400 + daysBeforeEpoch < daysBeforeYear (9999 + 1) := by decide
    have below : instant.seconds ≤ 253402207200 := high
    omega
  exact Date.year_ofDayNumber_bounds start finish

/-- The timestamp of an instant, up to the last timestamp, is that of its second. -/
theorem ofInstant?_eq {instant : Instant} (low : 0 ≤ instant.seconds)
    (high : instant.seconds ≤ bounds.high) : ofInstant? instant = some ⟨instant.seconds⟩ := by
  have within : bounds.admits instant.seconds = true := by
    simp only [Text.Bounds.admits, Bool.and_eq_true, decide_eq_true_eq]
    exact ⟨Int.le_trans (by decide) low, high⟩
  unfold ofInstant? read
  rw [Rfc3339.read_printSeconds, if_pos (hasFourDigits_of_le_high low high)]
  simp [within]

theorem instant?_eq {timestamp : Timestamp} (low : 0 ≤ timestamp.seconds)
    (high : timestamp.seconds ≤ bounds.high) :
    timestamp.instant? = some (.ofSeconds timestamp.seconds) := by
  have same := Instant.seconds_ofSeconds timestamp.seconds
  unfold instant? text
  rw [Rfc3339.read_printSeconds, if_pos (hasFourDigits_of_le_high (by rwa [same]) (by rwa [same])),
    same]

/-- A timestamp from the year 1 to the last year of which every second is within the bounds. -/
def InCommonEra (timestamp : Timestamp) : Prop :=
  1 ≤ (Instant.ofSeconds timestamp.seconds).civil.date.year ∧
    (Instant.ofSeconds timestamp.seconds).civil.date.year ≤ 9998

theorem InCommonEra.admits {timestamp : Timestamp} (inEra : timestamp.InCommonEra) :
    bounds.admits timestamp.seconds = true := by
  obtain ⟨first, last⟩ := inEra
  have day : (Instant.ofSeconds timestamp.seconds).civil.date =
      Date.ofDayNumber (timestamp.seconds / 86400) := by
    rw [Instant.civil, Instant.seconds_ofSeconds]
  rw [day] at first last
  have valid := Date.isValid_ofDayNumber (timestamp.seconds / 86400)
  have start := Date.le_dayNumber valid
  have finish := Date.dayNumber_lt_nextYear valid
  rw [Date.dayNumber_ofDayNumber] at start finish
  have low := daysBeforeYear_mono first
  have high := daysBeforeYear_mono (Int.add_le_add_right last 1)
  have firstDay : daysBeforeYear 1 = 0 := by decide
  have lastDay : daysBeforeYear (9998 + 1) = 3651694 := by decide
  have epoch : daysBeforeEpoch = 719162 := rfl
  have lowest : bounds.low = -377705023201 := rfl
  have highest : bounds.high = 253402207200 := rfl
  simp only [Text.Bounds.admits, Bool.and_eq_true, decide_eq_true_eq]
  omega

/-- A timestamp of the common era is read back. -/
theorem InCommonEra.read_text {timestamp : Timestamp} (inEra : timestamp.InCommonEra) :
    read timestamp.text = some timestamp := by
  have fourDigits : Rfc3339.HasFourDigits
      (Instant.ofSeconds timestamp.seconds).civil.date.year := by
    obtain ⟨first, last⟩ := inEra
    exact ⟨by omega, by omega⟩
  unfold read text
  rw [Rfc3339.read_printSeconds, if_pos fourDigits]
  simp [inEra.admits]

end Timestamp

end NodeFleet.Calendar
