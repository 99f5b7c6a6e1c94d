import NodeFleet.Proofs.Cron.Printed
import NodeFleet.Proofs.Text.Padding

/-!
# The days of a weekday field

A weekday field counts the days from Sunday as 0 and takes 7 for Sunday too.  Shifting it to the
count that starts with 1 keeps the days that its items mean, in every form an item can have.
-/

namespace NodeFleet.Cron

open Schedule Text

/-! ## What a field means -/

/-- The names of the days of the week, from Sunday on. -/
def dayNames : List (List String) :=
  [["sun", "sunday"], ["mon", "monday"], ["tue", "tues", "tuesday"], ["wed", "wednesday"],
    ["thu", "thurs", "thursday"], ["fri", "friday"], ["sat", "saturday"]]

/-- A name of a day, in any case.  Sunday is day 0. -/
structure DayName where
  text : List Char
  day : Nat
  named : ∃ names, dayNames[day]? = some names ∧ String.ofList (text.map Char.toLower) ∈ names

/-- The days that an item starts from; digits may count Sunday as 0 or as 7. -/
inductive DaySpan
  | star
  | questionMark
  | single (day : Nat) (atMost : day ≤ 7)
  | range (first last : Nat) (ordered : first ≤ last) (digit : last ≤ 9)
  | names (first last : DayName)

structure Step where
  digits : List Char
  filled : digits ≠ []
  allDigits : ∀ digit ∈ digits, digit.isDigit = true
  positive : 1 ≤ Nat.ofDigitChars 10 digits 0

inductive DayItem
  | days (span : DaySpan) (step : Option Step)
  | named (name : DayName)

namespace DaySpan

def text : DaySpan → List Char
  | star => ['*']
  | questionMark => ['?']
  | single day _ => [day.digitChar]
  | range first last _ _ => [first.digitChar, '-', last.digitChar]
  | names first last => first.text ++ '-' :: last.text

/-- The day from which a step counts. -/
def first (stepped : Bool) : DaySpan → Nat
  | star => 0
  | questionMark => 0
  | single day _ => if stepped then day % 7 else day
  | range first _ _ _ => first
  | names first _ => first.day

/-- The last day; steps from a single day run through Saturday. -/
def last (stepped : Bool) : DaySpan → Nat
  | star => 6
  | questionMark => 6
  | single day _ => if stepped then 6 else day
  | range _ last _ _ => last
  | names _ last => last.day

/-- A day of the week is one that steps from the first day reach; day 7 is day 0. -/
def Reaches (span : DaySpan) (stepped : Bool) (step day : Nat) : Prop :=
  ∃ value, span.first stepped ≤ value ∧ value ≤ span.last stepped ∧
    step ∣ value - span.first stepped ∧ value % 7 = day

end DaySpan

def Step.value (step : Step) : Nat := Nat.ofDigitChars 10 step.digits 0

namespace DayItem

def text : DayItem → List Char
  | days span none => span.text
  | days span (some step) => span.text ++ '/' :: step.digits
  | named name => name.text

def Names (day : Nat) : DayItem → Prop
  | days span none => span.Reaches false 1 day
  | days span (some step) => span.Reaches true step.value day
  | named name => name.day = day

end DayItem

def weekdayText (items : List DayItem) : List Char := joinWith [','] (items.map DayItem.text)

/-- A weekday field is accepted, and the column of the weekdays takes these numbers from it. -/
def NamesWeekdays (field : List Char) (numbers : List Nat) : Prop :=
  ∃ shifted, shiftWeekdayField field = .ok shifted ∧ Column.weekday.HasField shifted numbers

/-! ## Names -/

namespace DayName

theorem day_lt (name : DayName) : name.day < 7 := by
  obtain ⟨names, found, _⟩ := name.named
  exact (List.getElem?_eq_some_iff.1 found).1

theorem numberOf?_eq (name : DayName) :
    Column.weekday.numberOf? name.text = some (name.day + 1) := by
  have listed : ∀ day : Fin 7, ∀ known ∈ dayNames[day], Column.weekdayNames.lookup known =
      some (day.val + 1) := by
    decide
  obtain ⟨names, found, member⟩ := name.named
  obtain ⟨inRange, rfl⟩ := List.getElem?_eq_some_iff.1 found
  exact listed ⟨name.day, inRange⟩ _ member

theorem isAlpha_of_toLower {letter : Char} (isAlpha : letter.toLower.isAlpha = true) :
    letter.isAlpha = true := by
  unfold Char.toLower at isAlpha
  split at isAlpha
  · rename_i upper
    exact Bool.or_eq_true_iff.2 (Or.inl (decide_eq_true upper))
  · exact isAlpha

theorem letters (name : DayName) : ∀ letter ∈ name.text, letter.isAlpha = true := by
  have listed : ∀ day : Fin 7, ∀ known ∈ dayNames[day], known.toList.all Char.isAlpha = true := by
    decide
  obtain ⟨names, found, member⟩ := name.named
  obtain ⟨inRange, rfl⟩ := List.getElem?_eq_some_iff.1 found
  intro letter inText
  refine isAlpha_of_toLower
    (List.all_eq_true.1 (listed ⟨name.day, inRange⟩ _ member) letter.toLower ?_)
  rw [String.toList_ofList]
  exact List.mem_map_of_mem inText

theorem filled (name : DayName) : name.text ≠ [] := by
  intro none
  have unknown := name.numberOf?_eq
  rw [none] at unknown
  cases unknown

end DayName

/-! ## The numbers of an item -/

section Numbers

variable {column : Column} {span : Span} {item : Item} {numbers base : List Nat}
  {first last step wait count number : Nat}

/-- Every `step`-th number from a first one is one that steps reach. -/
theorem mem_everyNth_iff (positive : 1 ≤ step) :
    number ∈ everyNth step wait (List.range' first count) ↔
      first + wait ≤ number ∧ number < first + count ∧ step ∣ number - (first + wait) := by
  induction count generalizing first wait with
  | zero =>
      simp only [List.range'_zero, everyNth, List.not_mem_nil, false_iff]
      omega
  | succ count inductionHypothesis =>
      rw [List.range'_succ]
      cases wait with
      | succ wait =>
          rw [everyNth, inductionHypothesis]
          have shifted : first + 1 + wait = first + (wait + 1) := by omega
          rw [shifted]
          exact and_congr_right fun _ => and_congr_left fun _ => by omega
      | zero =>
          have next : first + 1 + (step - 1) = first + step := by omega
          simp only [everyNth, List.mem_cons, inductionHypothesis, next, Nat.add_zero]
          constructor
          · rintro (rfl | ⟨above, below, reached⟩)
            · exact ⟨Nat.le_refl _, by omega, by simp⟩
            · refine ⟨by omega, by omega, ?_⟩
              have split : number - first = number - (first + step) + step := by omega
              rw [split]
              exact Nat.dvd_add reached (Nat.dvd_refl step)
          · rintro ⟨above, below, reached⟩
            rcases Nat.eq_or_lt_of_le above with rfl | later
            · exact Or.inl rfl
            · have far : step ≤ number - first := Nat.le_of_dvd (by omega) reached
              refine Or.inr ⟨by omega, by omega, ?_⟩
              have less : number - (first + step) = number - first - step := by omega
              rw [less]
              exact Nat.dvd_sub reached (Nat.dvd_refl step)

theorem eq_range'_of_between? (stands : column.between? first last = some numbers) :
    numbers = List.range' first (last + 1 - first) ∧ first ≤ last := by
  unfold Column.between? at stands
  rw [Option.ite_none_right_eq_some] at stands
  obtain ⟨⟨_, _, ordered⟩, made⟩ := stands
  exact ⟨(Option.some.inj made).symm, ordered⟩

/-- The bounds of the weekdays, from Sunday as 1, that an item starts from. -/
def spanBounds? (stepped : Bool) : Span → Option (Nat × Nat)
  | .all => some (1, 7)
  | .single value => some (value, if stepped then 7 else value)
  | .range first last => some (first, last)
  | .namedRange first last => do
      return (← Column.weekday.numberOf? first, ← Column.weekday.numberOf? last)

theorem spanned?_eq (span : Span) : Column.weekday.spanned? span =
    (spanBounds? false span).bind fun bounds => Column.weekday.between? bounds.1 bounds.2 := by
  cases span with
  | all => rfl
  | single value => rfl
  | range first last => rfl
  | namedRange first last =>
      simp only [Column.spanned?, spanBounds?, Option.bind_eq_bind, Option.bind_assoc,
        Option.pure_def, Option.bind_some]

theorem stepBase?_eq (span : Span) : Column.weekday.stepBase? span =
    (spanBounds? true span).bind fun bounds => Column.weekday.between? bounds.1 bounds.2 := by
  cases span with
  | all => rfl
  | single value => rfl
  | range first last => rfl
  | namedRange first last => exact spanned?_eq (.namedRange first last)

theorem mem_plain_iff (bounds : spanBounds? false span = some (first, last))
    (stands : Column.weekday.itemNumbers? (.plain span) = some numbers) :
    number ∈ numbers ↔ first ≤ number ∧ number ≤ last ∧ 1 ∣ number - first := by
  have spanned : Column.weekday.spanned? span = some numbers := stands
  rw [spanned?_eq, bounds] at spanned
  obtain ⟨rfl, ordered⟩ := eq_range'_of_between? spanned
  rw [List.mem_range'_1]
  simp only [Nat.one_dvd, and_true]
  omega

theorem mem_stepped_iff (bounds : spanBounds? true span = some (first, last))
    (stands : Column.weekday.itemNumbers? (.stepped span step) = some numbers) :
    number ∈ numbers ↔ first ≤ number ∧ number ≤ last ∧ step ∣ number - first := by
  unfold Column.itemNumbers? at stands
  rw [Option.ite_none_left_eq_some, stepBase?_eq, bounds] at stands
  obtain ⟨positive, stands⟩ := stands
  obtain ⟨base, between, rfl⟩ := Option.map_eq_some_iff.1 stands
  obtain ⟨rfl, ordered⟩ := eq_range'_of_between? between
  rw [mem_everyNth_iff (by omega), Nat.add_zero]
  exact and_congr_right fun _ => and_congr_left fun _ => by omega

theorem map_eq_of_mapM {α β : Type} {read : α → Option β} {given : List α} {made : List β}
    (all : given.mapM read = some made) : given.map read = made.map some := by
  induction given generalizing made with
  | nil =>
      obtain rfl := Option.some.inj all
      rfl
  | cons source given inductionHypothesis =>
      rw [List.mapM_cons] at all
      obtain ⟨first, readFirst, all⟩ := Option.bind_eq_some_iff.1 all
      obtain ⟨others, readOthers, all⟩ := Option.bind_eq_some_iff.1 all
      obtain rfl := Option.some.inj all
      rw [List.map_cons, List.map_cons, readFirst, inductionHypothesis readOthers]

/-- A field stands for the numbers of all its items. -/
theorem mem_fieldNumbers?_iff {items : List Item}
    (stands : column.fieldNumbers? items = some numbers) :
    (∀ item ∈ items, ∃ given, column.itemNumbers? item = some given) ∧
      ∀ number, number ∈ numbers ↔ number ∈ column.all ∧
        ∃ item ∈ items, ∃ given, column.itemNumbers? item = some given ∧ number ∈ given := by
  obtain ⟨all, readAll, made⟩ := Option.bind_eq_some_iff.1 stands
  obtain rfl := Option.some.inj made
  have same := map_eq_of_mapM readAll
  refine ⟨fun item member => ?_, fun number => ?_⟩
  · have inAll : column.itemNumbers? item ∈ all.map some := same ▸ List.mem_map_of_mem member
    obtain ⟨given, _, stands⟩ := List.mem_map.1 inAll
    exact ⟨given, stands.symm⟩
  · have given_iff : ∀ given, given ∈ all ↔
        ∃ item ∈ items, column.itemNumbers? item = some given := by
      intro given
      rw [← List.mem_map, same, List.mem_map]
      simp
    simp only [List.mem_filter, List.any_eq_true, List.contains_iff_mem, given_iff]
    refine and_congr_right fun _ => ?_
    constructor
    · rintro ⟨given, ⟨item, member, stands⟩, inGiven⟩
      exact ⟨item, member, given, stands, inGiven⟩
    · rintro ⟨item, member, given, stands, inGiven⟩
      exact ⟨given, ⟨item, member, stands⟩, inGiven⟩

end Numbers

/-! ## Shifted items -/

section Shifting

variable {stepped : Bool} {span : DaySpan} {shifted : List Char} {item : DayItem}

theorem shiftRange_star : shiftRange ['*'] stepped = .ok ['*'] := by cases stepped <;> rfl

theorem shiftRange_questionMark : shiftRange ['?'] stepped = .ok ['?'] := by cases stepped <;> rfl

theorem shiftRange_single {day : Nat} (atMost : day ≤ 7) :
    shiftRange [day.digitChar] stepped = .ok [(day % 7 + 1).digitChar] := by
  have shifts : ∀ stepped : Bool, ∀ day < 8,
      shiftRange [day.digitChar] stepped = .ok [(day % 7 + 1).digitChar] := by
    decide
  exact shifts stepped day (by omega)

theorem shiftRange_within {first last : Nat} (ordered : first ≤ last) (within : last ≤ 6) :
    shiftRange [first.digitChar, '-', last.digitChar] stepped =
      .ok [(first + 1).digitChar, '-', (last + 1).digitChar] := by
  have shifts : ∀ stepped : Bool, ∀ first < 7, ∀ last < 7,
      shiftRange [first.digitChar, '-', last.digitChar] stepped =
        .ok [(first + 1).digitChar, '-', (last + 1).digitChar] := by
    decide
  exact shifts stepped first (by omega) last (by omega)

/-- A range to 7 is shifted if it starts before and has no step. -/
theorem shiftRange_toSunday {first : Nat} (digit : first ≤ 7)
    (shift : shiftRange [first.digitChar, '-', '7'] stepped = .ok shifted) :
    stepped = false ∧ (first = 0 ∧ shifted = ['1', '-', '7'] ∨
      1 ≤ first ∧ first ≤ 6 ∧ shifted = [(first + 1).digitChar, '-', '7', ',', '1']) := by
  have shifts : ∀ stepped : Bool, ∀ first < 8,
      shiftRange [first.digitChar, '-', '7'] stepped =
        if stepped = true ∨ first = 7 then .error .steppedSunday
        else if first = 0 then .ok ['1', '-', '7']
        else .ok [(first + 1).digitChar, '-', '7', ',', '1'] := by
    decide
  rw [shifts stepped first (by omega)] at shift
  split at shift
  · cases shift
  · rename_i allowed
    rw [not_or, Bool.not_eq_true] at allowed
    refine ⟨allowed.1, ?_⟩
    split at shift
    · rename_i zero
      exact Or.inl ⟨zero, (Except.ok.inj shift).symm⟩
    · exact Or.inr ⟨by omega, by omega, (Except.ok.inj shift).symm⟩

theorem shiftRange_beyond {first last : Nat} (ordered : first ≤ last) (beyond : 8 ≤ last)
    (digit : last ≤ 9) :
    shiftRange [first.digitChar, '-', last.digitChar] stepped ≠ .ok shifted := by
  have shifts : ∀ stepped : Bool, ∀ first < 10, ∀ last < 10, 8 ≤ last →
      (shiftRange [first.digitChar, '-', last.digitChar] stepped).toOption = none := by
    decide
  intro shift
  have none := shifts stepped first (by omega) last (by omega) beyond
  rw [shift] at none
  cases none

theorem shiftWeekday_letters {letters : List Char} (filled : letters ≠ [])
    (allLetters : ∀ letter ∈ letters, letter.isAlpha = true) :
    shiftWeekday letters = .ok letters := by
  cases letters with
  | nil => exact absurd rfl filled
  | cons first rest =>
      have isAlpha := allLetters first List.mem_cons_self
      have noDigit : first.isDigit = false :=
        Bool.eq_false_iff.2 fun digit => by simp [isAlpha_of_isDigit digit] at isAlpha
      have noPlus : first ≠ '+' := by
        rintro rfl
        cases isAlpha
      rw [shiftWeekday, readWhole_sign rfl noDigit noPlus]

theorem notMem_of_letters {letters : List Char} (mark : Char) (other : mark.isAlpha = false)
    (allLetters : ∀ letter ∈ letters, letter.isAlpha = true) : mark ∉ letters :=
  fun member => Bool.false_ne_true (other.symm.trans (allLetters mark member))

theorem shiftRange_names (first last : DayName) :
    shiftRange (first.text ++ '-' :: last.text) stepped = .ok (first.text ++ '-' :: last.text) := by
  have noSunday : last.text ≠ ['7'] := by
    intro seven
    have isAlpha := last.letters '7' (by simp [seven])
    cases isAlpha
  simp only [shiftRange, splitFirst?_append (notMem_of_letters '-' rfl first.letters),
    if_neg noSunday, shiftWeekday_letters first.filled first.letters,
    shiftWeekday_letters last.filled last.letters]
  rfl

theorem shiftRange_name (name : DayName) : shiftRange name.text stepped = .ok name.text := by
  have noSign : ¬ (name.text = ['*'] ∨ name.text = ['?']) := by
    rintro (sign | sign)
    · cases name.letters '*' (by simp [sign])
    · cases name.letters '?' (by simp [sign])
  simp only [shiftRange, splitFirst?_eq_none (notMem_of_letters '-' rfl name.letters),
    if_neg noSign]
  exact shiftWeekday_letters name.filled name.letters

/-- A span of weekdays, shifted to a span of the grammar that bounds the same days. -/
structure Shifts (span : DaySpan) (stepped : Bool) (shifted : List Char) (target : Span) :
    Prop where
  spells : Spells shifted target
  means : ∃ first last, spanBounds? stepped target = some (first, last) ∧ ∀ step number,
    (∃ day, span.Reaches stepped step day ∧ number = day + 1) ↔
      first ≤ number ∧ number ≤ last ∧ step ∣ number - first

/-- Days up to Saturday are counted on by one. -/
theorem DaySpan.reaches_iff (within : span.last stepped ≤ 6) (step number : Nat) :
    (∃ day, span.Reaches stepped step day ∧ number = day + 1) ↔
      span.first stepped + 1 ≤ number ∧ number ≤ span.last stepped + 1 ∧
        step ∣ number - (span.first stepped + 1) := by
  constructor
  · rintro ⟨_, ⟨value, above, below, reached, rfl⟩, rfl⟩
    rw [Nat.mod_eq_of_lt (by omega), Nat.add_sub_add_right]
    exact ⟨by omega, by omega, reached⟩
  · rintro ⟨above, below, reached⟩
    obtain ⟨value, rfl⟩ : ∃ value, number = value + 1 := ⟨number - 1, by omega⟩
    rw [Nat.add_sub_add_right] at reached
    exact ⟨value, ⟨value, by omega, by omega, reached, Nat.mod_eq_of_lt (by omega)⟩, rfl⟩

theorem reaches_sunday (atMost : 7 ≤ 7) (step number : Nat) :
    (∃ day, (DaySpan.single 7 atMost).Reaches false step day ∧ number = day + 1) ↔
      1 ≤ number ∧ number ≤ 1 ∧ step ∣ number - 1 := by
  constructor
  · rintro ⟨_, ⟨value, above, below, _, rfl⟩, rfl⟩
    obtain rfl : value = 7 := Nat.le_antisymm below above
    simp
  · rintro ⟨above, below, _⟩
    obtain rfl : number = 1 := Nat.le_antisymm below above
    exact ⟨0, ⟨7, Nat.le_refl 7, Nat.le_refl 7, by simp [DaySpan.first], rfl⟩, rfl⟩

theorem reaches_wholeWeek (ordered : 0 ≤ 7) (digit : 7 ≤ 9) (step number : Nat) :
    (∃ day, (DaySpan.range 0 7 ordered digit).Reaches false step day ∧ number = day + 1) ↔
      1 ≤ number ∧ number ≤ 7 ∧ step ∣ number - 1 := by
  constructor
  · rintro ⟨_, ⟨value, _, below, reached, rfl⟩, rfl⟩
    have atMost : value ≤ 7 := below
    rcases Nat.lt_or_eq_of_le atMost with within | rfl
    · rw [Nat.mod_eq_of_lt within]
      exact ⟨by omega, within, reached⟩
    · simp
  · rintro ⟨above, below, reached⟩
    have atMost : number - 1 ≤ 7 := by omega
    exact ⟨number - 1, ⟨number - 1, Nat.zero_le _, atMost, reached,
      Nat.mod_eq_of_lt (by omega)⟩, by omega⟩

/-- What a span is shifted to, or the range to 7 that is cut in two. -/
theorem shiftRange_cases (shift : shiftRange span.text stepped = .ok shifted) :
    (∃ target, Shifts span stepped shifted target) ∨
      stepped = false ∧ ∃ first, 1 ≤ first ∧ first ≤ 6 ∧ span.first false = first ∧
        span.last false = 7 ∧ shifted = [(first + 1).digitChar, '-', '7', ',', '1'] := by
  cases span with
  | star =>
      obtain rfl := Except.ok.inj (shiftRange_star.symm.trans shift)
      exact Or.inl ⟨.all, .sign (Or.inl rfl), 1, 7, rfl, DaySpan.reaches_iff (Nat.le_refl 6)⟩
  | questionMark =>
      obtain rfl := Except.ok.inj (shiftRange_questionMark.symm.trans shift)
      exact Or.inl ⟨.all, .sign (Or.inr rfl), 1, 7, rfl, DaySpan.reaches_iff (Nat.le_refl 6)⟩
  | single day atMost =>
      obtain rfl := Except.ok.inj ((shiftRange_single atMost).symm.trans shift)
      refine Or.inl ⟨.single (day % 7 + 1), .single (by omega), day % 7 + 1, _, rfl, ?_⟩
      cases stepped with
      | true => exact DaySpan.reaches_iff (Nat.le_refl 6)
      | false =>
          rcases Nat.lt_or_eq_of_le atMost with within | rfl
          · rw [Nat.mod_eq_of_lt within]
            exact DaySpan.reaches_iff (Nat.le_of_lt_succ within)
          · exact reaches_sunday atMost
  | range first last ordered digit =>
      rcases Nat.lt_trichotomy last 7 with within | rfl | beyond
      · have shifts : shiftRange [first.digitChar, '-', last.digitChar] stepped =
            .ok [(first + 1).digitChar, '-', (last + 1).digitChar] :=
          shiftRange_within ordered (Nat.le_of_lt_succ within)
        obtain rfl := Except.ok.inj (shifts.symm.trans shift)
        exact Or.inl ⟨.range (first + 1) (last + 1), .range (by omega) (by omega), first + 1,
          last + 1, rfl, DaySpan.reaches_iff (Nat.le_of_lt_succ within)⟩
      · obtain ⟨rfl, ⟨rfl, rfl⟩ | ⟨above, below, rfl⟩⟩ := shiftRange_toSunday ordered shift
        · have spells : Spells ['1', '-', '7'] (.range 1 7) :=
            @Spells.range 1 7 (by decide) (by decide)
          exact Or.inl ⟨.range 1 7, spells, 1, 7, rfl, reaches_wholeWeek ordered digit⟩
        · exact Or.inr ⟨rfl, first, above, below, rfl, rfl, rfl⟩
      · exact absurd shift (shiftRange_beyond ordered beyond digit)
  | names first last =>
      obtain rfl := Except.ok.inj ((shiftRange_names first last).symm.trans shift)
      refine Or.inl ⟨.namedRange first.text last.text, .names first.filled last.filled first.letters
        last.letters, first.day + 1, last.day + 1, ?_, DaySpan.reaches_iff
          (Nat.le_of_lt_succ last.day_lt)⟩
      simp [spanBounds?, first.numberOf?_eq, last.numberOf?_eq]

end Shifting

/-! ## Pieces of items -/

section Pieces

variable {item : DayItem} {shifted : List Char} {number : Nat}

/-- A read item of the weekday column names a day, from Sunday as 1. -/
def Gives (item : Item) (number : Nat) : Prop :=
  ∃ given, Column.weekday.itemNumbers? item = some given ∧ number ∈ given

/-- The pieces to which an item is shifted name the days of the item, if they are read as they
are written and accepted. -/
structure Renders (item : DayItem) (pieces : List Piece) : Prop where
  filled : pieces ≠ []
  means : (∀ piece ∈ pieces, piece.left = []) →
    (∀ piece ∈ pieces, ∃ given, Column.weekday.itemNumbers? piece.item = some given) →
      ∀ number, (∃ piece ∈ pieces, Gives piece.item number) ↔
        ∃ day, item.Names day ∧ number = day + 1

theorem Renders.single {piece : Piece} (means : piece.left = [] → ∀ given,
      Column.weekday.itemNumbers? piece.item = some given →
        ∀ number, number ∈ given ↔ ∃ day, item.Names day ∧ number = day + 1) :
    Renders item [piece] where
  filled := List.cons_ne_nil piece []
  means := by
    intro noneLeft accepted number
    rw [List.forall_mem_singleton] at noneLeft accepted
    obtain ⟨given, stands⟩ := accepted
    simp [Gives, stands, means noneLeft given stands]

/-- The commas and slashes of a field are those between its items and before their steps. -/
theorem DaySpan.notMem_text (mark : Char) (noDigit : mark.isDigit = false)
    (noAlpha : mark.isAlpha = false) (noSign : mark ≠ '*' ∧ mark ≠ '?' ∧ mark ≠ '-')
    (span : DaySpan) : mark ∉ span.text := by
  have notDigit : ∀ value < 10, mark ≠ value.digitChar := by
    rintro value digit rfl
    exact Bool.false_ne_true (noDigit.symm.trans (isDigit_digitChar digit))
  cases span with
  | star => simp [text, noSign]
  | questionMark => simp [text, noSign]
  | single day atMost => simp [text, notDigit day (by omega)]
  | range first last ordered digit =>
      simp [text, notDigit first (by omega), notDigit last (by omega), noSign]
  | names first last =>
      simp [text, notMem_of_letters mark noAlpha first.letters,
        notMem_of_letters mark noAlpha last.letters, noSign]

theorem DayItem.comma_notMem_text (item : DayItem) : ',' ∉ item.text := by
  cases item with
  | named name => exact notMem_of_letters ',' rfl name.letters
  | days span step =>
      have inSpan := DaySpan.notMem_text ',' rfl rfl (by decide) span
      cases step with
      | none => exact inSpan
      | some step =>
          have inStep : ',' ∉ step.digits := fun member => by cases step.allDigits ',' member
          simp [text, inSpan, inStep]

theorem Step.value_eq {step : Step} {value : Int}
    (read : readWhole .word32 step.digits = .ok value) : value = (step.value : Int) := by
  rw [readWhole_digits step.filled step.allDigits] at read
  exact ((@readUp_eq_ok_iff Bounds.word32.high value step.digits 0 (by decide)).1 read).2.1

/-- The two pieces of a range that starts within the week and ends with the Sunday after it. -/
def toSaturday {first : Nat} (below : first ≤ 6) : Piece :=
  ⟨[(first + 1).digitChar, '-', '7'], .plain (.range (first + 1) 7), [],
    .plain (@Spells.range (first + 1) 7 (by omega) (by decide))⟩

def sunday : Piece := ⟨['1'], .plain (.single 1), [], .plain (@Spells.single 1 (by decide))⟩

theorem renders_toSunday {span : DaySpan} {first : Nat} (above : 1 ≤ first) (below : first ≤ 6)
    (starts : span.first false = first) (ends : span.last false = 7) :
    Renders (.days span none) [toSaturday below, sunday] where
  filled := List.cons_ne_nil _ _
  means := by
    intro _ accepted number
    have reaches : (∃ day, span.Reaches false 1 day ∧ number = day + 1) ↔
        first + 1 ≤ number ∧ number ≤ 7 ∨ number = 1 := by
      simp only [DaySpan.Reaches, starts, ends, Nat.one_dvd, true_and]
      constructor
      · rintro ⟨_, ⟨value, least, greatest, rfl⟩, rfl⟩
        omega
      · rintro (⟨least, greatest⟩ | rfl)
        · exact ⟨number - 1, ⟨number - 1, by omega⟩, by omega⟩
        · exact ⟨0, ⟨7, by omega⟩, rfl⟩
    obtain ⟨days, daysStand⟩ := accepted (toSaturday below) (by simp)
    obtain ⟨last, lastStands⟩ := accepted sunday (by simp)
    have inDays : number ∈ days ↔ first + 1 ≤ number ∧ number ≤ 7 ∧ 1 ∣ number - (first + 1) :=
      mem_plain_iff rfl daysStand
    have inLast : number ∈ last ↔ 1 ≤ number ∧ number ≤ 1 ∧ 1 ∣ number - 1 :=
      mem_plain_iff rfl lastStands
    refine Iff.trans ?_ reaches.symm
    simp only [List.mem_cons, List.not_mem_nil, or_false, exists_eq_or_imp, exists_eq_left, Gives,
      daysStand, lastStands, Option.some.injEq, exists_eq_left', inDays, inLast, Nat.one_dvd,
      and_true]
    omega

/-- An item is shifted to pieces that name its days. -/
theorem exists_renders (shift : shiftItem item.text = .ok shifted) :
    ∃ pieces, Renders item pieces ∧ shifted = joinWith [','] (pieces.map (·.text)) := by
  cases item with
  | named name =>
      have whole := splitFirst?_eq_none (notMem_of_letters '/' rfl name.letters)
      simp only [DayItem.text, shiftItem, whole, shiftRange_name] at shift
      obtain rfl := Except.ok.inj shift
      refine ⟨[⟨name.text, .named name.text, [], .named name.filled name.letters⟩],
        .single fun _ given stands number => ?_, rfl⟩
      simp only [Column.itemNumbers?, name.numberOf?_eq, Option.map_some, Option.some.injEq]
        at stands
      simp [← stands, DayItem.Names]
  | days span step =>
      have clean := DaySpan.notMem_text '/' rfl rfl (by decide) span
      cases step with
      | none =>
          simp only [DayItem.text, shiftItem, splitFirst?_eq_none clean] at shift
          rcases shiftRange_cases shift with ⟨target, shifts⟩ | ⟨_, first, above, below, starts,
            ends, rfl⟩
          · obtain ⟨least, greatest, bounds, reaches⟩ := shifts.means
            exact ⟨[⟨shifted, .plain target, [], .plain shifts.spells⟩],
              .single fun _ given stands number => (mem_plain_iff bounds stands).trans
                (reaches 1 number).symm, rfl⟩
          · exact ⟨[toSaturday below, sunday], renders_toSunday above below starts ends, rfl⟩
      | some step =>
          simp only [DayItem.text, shiftItem, splitFirst?_append clean] at shift
          cases shiftSpan : shiftRange span.text true with
          | error fault =>
              rw [shiftSpan] at shift
              cases shift
          | ok shiftedSpan =>
              rw [shiftSpan] at shift
              obtain rfl := Except.ok.inj shift
              rcases shiftRange_cases shiftSpan with ⟨target, shifts⟩ | ⟨noStep, _⟩
              · obtain ⟨least, greatest, bounds, reaches⟩ := shifts.means
                cases read : readWhole .word32 step.digits with
                | ok value =>
                    obtain rfl := step.value_eq read
                    exact ⟨[⟨_, .stepped target step.value, [], .stepped shifts.spells step.filled
                      step.allDigits read⟩], .single fun _ given stands number =>
                        (mem_stepped_iff bounds stands).trans (reaches step.value number).symm, rfl⟩
                | error fault =>
                    exact ⟨[⟨_, .plain target, '/' :: step.digits, .tooLarge shifts.spells
                      step.filled step.allDigits read⟩], .single fun noneLeft =>
                        absurd noneLeft (List.cons_ne_nil _ _), rfl⟩
              · cases noStep

theorem DayItem.lt_of_names {day : Nat} (names : item.Names day) : day < 7 := by
  cases item with
  | named name => exact names ▸ name.day_lt
  | days span step =>
      cases step with
      | none =>
          obtain ⟨value, _, _, _, rfl⟩ := names
          exact Nat.mod_lt _ (by decide)
      | some step =>
          obtain ⟨value, _, _, _, rfl⟩ := names
          exact Nat.mod_lt _ (by decide)

/-- The items of a field are shifted to groups of pieces. -/
theorem exists_groups {items : List DayItem} {shiftedItems : List (List Char)}
    (shift : List.Forall₂ (fun text shifted => shiftItem text = .ok shifted)
      (items.map DayItem.text) shiftedItems) :
    ∃ groups, List.Forall₂ Renders items groups ∧
      shiftedItems = groups.map fun pieces => joinWith [','] (pieces.map (·.text)) := by
  induction items generalizing shiftedItems with
  | nil =>
      cases shift
      exact ⟨[], .nil, rfl⟩
  | cons item items inductionHypothesis =>
      cases shift with
      | cons shiftFirst shiftRest =>
          obtain ⟨pieces, renders, rfl⟩ := exists_renders shiftFirst
          obtain ⟨groups, rendersRest, rfl⟩ := inductionHypothesis shiftRest
          exact ⟨pieces :: groups, .cons renders rendersRest, rfl⟩

/-- The pieces of a field name the days of its items. -/
theorem exists_piece_iff {items : List DayItem} {groups : List (List Piece)}
    (renders : List.Forall₂ Renders items groups)
    (noneLeft : ∀ piece ∈ groups.flatten, piece.left = [])
    (accepted : ∀ piece ∈ groups.flatten,
      ∃ given, Column.weekday.itemNumbers? piece.item = some given) (number : Nat) :
    (∃ piece ∈ groups.flatten, Gives piece.item number) ↔
      ∃ item ∈ items, ∃ day, item.Names day ∧ number = day + 1 := by
  induction renders with
  | nil => simp
  | cons rendersFirst rendersRest inductionHypothesis =>
      rw [List.flatten_cons, List.forall_mem_append] at noneLeft accepted
      rw [List.exists_mem_cons_iff, ← rendersFirst.means noneLeft.1 accepted.1 number,
        ← inductionHypothesis noneLeft.2 accepted.2]
      simp only [List.flatten_cons, List.mem_append, or_and_right, exists_or]

theorem filled_of_renders {items : List DayItem} {groups : List (List Piece)}
    (renders : List.Forall₂ Renders items groups) : ∀ pieces ∈ groups, pieces ≠ [] := by
  induction renders with
  | nil => simp
  | cons rendersFirst _ inductionHypothesis =>
      exact List.forall_mem_cons.2 ⟨rendersFirst.filled, inductionHypothesis⟩

theorem flatten_ne_nil {items : List DayItem} {groups : List (List Piece)} (filled : items ≠ [])
    (renders : List.Forall₂ Renders items groups) : groups.flatten ≠ [] := by
  cases renders with
  | nil => exact absurd rfl filled
  | cons rendersFirst _ => simp [rendersFirst.filled]

theorem joinWith_groups {items : List DayItem} {groups : List (List Piece)}
    (renders : List.Forall₂ Renders items groups) :
    joinWith [','] (groups.map fun pieces => joinWith [','] (pieces.map (·.text))) =
      joinWith [','] (groups.flatten.map (·.text)) := by
  have filled : ∀ group ∈ groups.map (List.map Piece.text), group ≠ [] := by
    intro group member
    obtain ⟨pieces, inGroups, rfl⟩ := List.mem_map.1 member
    simpa using filled_of_renders renders pieces inGroups
  rw [List.map_flatten, joinWith_flatten filled, List.map_map]
  rfl

end Pieces

/-- A weekday field that is accepted names exactly the days that its items mean. -/
theorem mem_weekdays_iff {items : List DayItem} (filled : items ≠ []) {numbers : List Nat}
    (names : NamesWeekdays (weekdayText items) numbers) (number : Nat) :
    number ∈ numbers ↔ ∃ item ∈ items, ∃ day, item.Names day ∧ number = day + 1 := by
  obtain ⟨shifted, shift, field⟩ := names
  have clean : ∀ text ∈ items.map DayItem.text, ',' ∉ text := by
    intro text member
    obtain ⟨item, _, rfl⟩ := List.mem_map.1 member
    exact item.comma_notMem_text
  unfold shiftWeekdayField weekdayText at shift
  rw [splitAt_joinWith (by simpa using filled) clean] at shift
  cases shiftItems : (items.map DayItem.text).mapM shiftItem with
  | error fault =>
      rw [shiftItems] at shift
      cases shift
  | ok shiftedItems =>
      rw [shiftItems] at shift
      obtain rfl := Except.ok.inj shift
      obtain ⟨groups, renders, rfl⟩ := exists_groups (forall₂_of_mapM shiftItems)
      obtain ⟨⟨items', rest⟩, readItems, accepted⟩ := Option.bind_eq_some_iff.1 field.whole
      obtain ⟨found, stands, made⟩ := Option.bind_eq_some_iff.1 accepted
      obtain ⟨rfl, rfl⟩ := Prod.mk.inj (Option.some.inj made)
      rw [joinWith_groups renders] at readItems
      obtain ⟨noneLeft, rfl⟩ := items_eq_of_readItems? rfl (flatten_ne_nil filled renders) readItems
      obtain ⟨allStand, mem_iff⟩ := mem_fieldNumbers?_iff stands
      have accepted : ∀ piece ∈ groups.flatten,
          ∃ given, Column.weekday.itemNumbers? piece.item = some given :=
        fun piece member => allStand _ (List.mem_map_of_mem member)
      rw [mem_iff, ← exists_piece_iff renders noneLeft accepted number]
      constructor
      · rintro ⟨_, item, member, gives⟩
        obtain ⟨piece, inFlatten, rfl⟩ := List.mem_map.1 member
        exact ⟨piece, inFlatten, gives⟩
      · rintro ⟨piece, inFlatten, gives⟩
        obtain ⟨item, _, day, names, rfl⟩ :=
          (exists_piece_iff renders noneLeft accepted number).1 ⟨piece, inFlatten, gives⟩
        have below := item.lt_of_names names
        exact ⟨Column.mem_all_iff.2 ⟨Nat.le_add_left 1 day, below⟩, piece.item,
          List.mem_map_of_mem inFlatten, gives⟩

section Example

def monday : DayName := ⟨"Mon".toList, 1, ["mon", "monday"], rfl, by decide⟩

def tuesday : DayName := ⟨"tues".toList, 2, ["tue", "tues", "tuesday"], rfl, by decide⟩

def wednesday : DayName := ⟨"WED".toList, 3, ["wed", "wednesday"], rfl, by decide⟩

def everySecond : Step :=
  ⟨['0', '2'], List.cons_ne_nil _ _, List.all_eq_true.1 rfl, by decide⟩

/-- The field "1-3/02,5-7,Mon,tues-WED/02". -/
def mixedItems : List DayItem :=
  [.days (.range 1 3 (by decide) (by decide)) (some everySecond),
    .days (.range 5 7 (by decide) (by decide)) none, .named monday,
    .days (.names tuesday wednesday) (some everySecond)]

/-- All days but Thursday are named by items of several forms. -/
theorem mem_weekdays_mixed : mixedItems ≠ [] ∧
    NamesWeekdays (weekdayText mixedItems) [1, 2, 3, 4, 6, 7] ∧
    ∀ number, number ∈ [1, 2, 3, 4, 6, 7] ↔
      ∃ item ∈ mixedItems, ∃ day, item.Names day ∧ number = day + 1 := by
  have filled : mixedItems ≠ [] := List.cons_ne_nil _ _
  have names : NamesWeekdays (weekdayText mixedItems) [1, 2, 3, 4, 6, 7] := ⟨_, rfl, ⟨rfl⟩⟩
  exact ⟨filled, names, mem_weekdays_iff filled names⟩

end Example

end NodeFleet.Cron
