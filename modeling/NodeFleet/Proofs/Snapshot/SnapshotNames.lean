import NodeFleet.Proofs.Calendar.Stamps
import NodeFleet.Proofs.Snapshot.Interleaving
import NodeFleet.Proofs.Text.Cutting

/-!
# Names of snapshots

A snapshot is named for its scheduler and the second in which it is taken.  The name tells both,
and the names that one scheduler gives are in the order of their seconds.
-/

namespace NodeFleet.Snapshot.Round

open Calendar Resource Text

variable {round other : Round}

theorem toList_snapshotName (fourDigits : Rfc3339.HasFourDigits round.now.civil.date.year) :
    round.snapshotName.toList =
      round.scheduler.name.toList ++ '-' :: round.now.civil.stamp := by
  have year : Rfc3339.printYear round.now.civil.date.year =
      padded 4 round.now.civil.date.year.toNat := if_pos fourDigits
  have text : round.snapshotName = round.scheduler.name ++ "-" ++
      (Rfc3339.printYear round.now.civil.date.year ++ padded 2 round.now.civil.date.month ++
        padded 2 round.now.civil.date.day) ++ padded 2 round.now.civil.hour ++
      padded 2 round.now.civil.minute ++ padded 2 round.now.civil.second := rfl
  rw [text, year]
  simp [CivilTime.stamp, CivilTime.units, fixedDigits]

theorem isStamped_now (fourDigits : Rfc3339.HasFourDigits round.now.civil.date.year) :
    round.now.civil.IsStamped :=
  ⟨round.now.isValid_civil, fourDigits⟩

theorem utf8_snapshotName (fourDigits : Rfc3339.HasFourDigits round.now.civil.date.year) :
    utf8 round.snapshotName = (round.scheduler.name.toList ++ ['-']).flatMap String.utf8EncodeChar ++
      round.now.civil.stamp.flatMap String.utf8EncodeChar := by
  rw [utf8_eq, toList_snapshotName fourDigits, ← List.flatMap_append, List.append_assoc,
    List.singleton_append]

/-- The names of two snapshots are the same exactly if one scheduler takes both in one second.  The
names that one scheduler gives are, by their bytes, in the order of the seconds. -/
theorem snapshotName_tells (round other : Round) (candidate candidate' : Candidate)
    (fourDigits : Rfc3339.HasFourDigits round.now.civil.date.year)
    (fourDigitsToo : Rfc3339.HasFourDigits other.now.civil.date.year) :
    ((round.newSnapshot candidate).metadata.name = (other.newSnapshot candidate').metadata.name ↔
      round.scheduler.name = other.scheduler.name ∧ round.now.seconds = other.now.seconds) ∧
    (round.scheduler.name = other.scheduler.name →
      (utf8 round.snapshotName < utf8 other.snapshotName ↔
        round.now.seconds < other.now.seconds)) := by
  have stamped := isStamped_now fourDigits
  have stampedToo := isStamped_now fourDigitsToo
  have noDash : ∀ time : CivilTime, '-' ∉ time.stamp := fun time member =>
    absurd (CivilTime.isDigit_of_mem_stamp member) (by decide)
  refine ⟨?same, fun sameScheduler => ?ordered⟩
  case same =>
    have named : (round.newSnapshot candidate).metadata.name =
        (other.newSnapshot candidate').metadata.name ↔ round.snapshotName = other.snapshotName :=
      Option.some_inj
    rw [named, ← String.toList_inj, toList_snapshotName fourDigits,
      toList_snapshotName fourDigitsToo, ← String.toList_inj, ← Instant.civil_eq_iff]
    constructor
    · intro sameText
      -- The last hyphen is the one before the stamp.
      obtain ⟨schedulers, stamps⟩ :=
        append_cons_injective_of_notMem (noDash _) (noDash _) sameText
      exact ⟨schedulers, stamped.eq_of_stamp_eq stampedToo stamps⟩
    · rintro ⟨schedulers, times⟩
      rw [schedulers, times]
  case ordered =>
    rw [utf8_snapshotName fourDigits, utf8_snapshotName fourDigitsToo, sameScheduler,
      append_lt_append_iff, stamped.stamp_lt_iff stampedToo, Instant.seconds_civil,
      Instant.seconds_civil]

/-- A round of a scheduler by its name, at the end of a leap day or some seconds later. -/
def leapDayRound (name : String) (later : Int) : Round where
  scheduler := { hourly with metadata := { hourly.metadata with name := some name } }
  space := "default"
  now := .ofSeconds (1709251199 + later)
  settings := .standard

def leapDayCandidate : Candidate := ⟨"cosmoshub-0", "pvc-cosmoshub-0", .empty⟩

/-- A second ends both the day and the month, and the name of a scheduler ends like a stamp. -/
theorem snapshotName_tells_of_leapDay :
    Rfc3339.HasFourDigits (leapDayRound "hourly" 0).now.civil.date.year ∧
      Rfc3339.HasFourDigits (leapDayRound "hourly" 1).now.civil.date.year ∧
      utf8 (leapDayRound "hourly" 0).snapshotName < utf8 (leapDayRound "hourly" 1).snapshotName ∧
      ((leapDayRound "hourly" 0).newSnapshot leapDayCandidate).metadata.name ≠
        ((leapDayRound "hourly-20240229235959" 1).newSnapshot leapDayCandidate).metadata.name := by
  have evening : Rfc3339.HasFourDigits (leapDayRound "hourly" 0).now.civil.date.year := by decide
  have morning : Rfc3339.HasFourDigits (leapDayRound "hourly" 1).now.civil.date.year := by decide
  have ordered := (snapshotName_tells (leapDayRound "hourly" 0) (leapDayRound "hourly" 1)
    leapDayCandidate leapDayCandidate evening morning).2 rfl
  have apart := (snapshotName_tells (leapDayRound "hourly" 0)
    (leapDayRound "hourly-20240229235959" 1) leapDayCandidate leapDayCandidate evening morning).1
  refine ⟨evening, morning, ordered.2 (by decide), fun same => ?_⟩
  exact absurd (apart.1 same).1 (by decide)

end NodeFleet.Snapshot.Round
