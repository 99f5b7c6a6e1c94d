import NodeFleet.Proofs.Cron.Columns
import NodeFleet.Proofs.Text.Numeral

/-!
# Reading what is written

Items that are written one after the other, with commas between them, are read back one by one.
A step that is too large is not read, and then the rest of the field is left.
-/

namespace NodeFleet.Cron

open Text

variable {kind : Char → Bool} {run rest digits letters text left : List Char}
  {span : Span} {item : Item} {items : List Item}

/-! ## Numbers and names -/

/-- What may follow a number or a name within a field. -/
def Marked (text : List Char) : Prop :=
  ∀ first ∈ text.head?, first = ',' ∨ first = '-' ∨ first = '/'

theorem Marked.stops (marked : Marked rest) (comma : kind ',' = false) (dash : kind '-' = false)
    (slash : kind '/' = false) : ∀ first ∈ rest.head?, kind first = false := by
  intro first member
  rcases marked first member with rfl | rfl | rfl
  · exact comma
  · exact dash
  · exact slash

theorem Marked.cons {mark : Char} (isMark : mark = ',' ∨ mark = '-' ∨ mark = '/')
    (rest : List Char) : Marked (mark :: rest) := by
  intro first member
  rwa [← Option.some.inj member]

theorem skipGaps_append (filled : run ≠ []) (edges : ∀ character ∈ run, isEdge character = true)
    (rest : List Char) : skipGaps (run ++ rest) = run ++ rest := by
  refine skipGaps_eq_self fun first member => ?_
  rw [List.head?_append_of_ne_nil _ filled] at member
  exact isGap_of_isEdge (edges first (List.mem_of_mem_head? member))

theorem readNumber?_append (filled : digits ≠ [])
    (allDigits : ∀ digit ∈ digits, digit.isDigit = true) (marked : Marked rest) :
    readNumber? (digits ++ rest) =
      (readWhole .word32 digits).toOption.map fun value => (value.toNat, rest) := by
  have stops : ∀ first ∈ rest.head?, first.isDigit = false := marked.stops rfl rfl rfl
  have ends : skipGaps rest = rest := skipGaps_eq_self (marked.stops rfl rfl rfl)
  unfold readNumber?
  dsimp only
  rw [skipGaps_append filled fun digit member => isEdge_of_isDigit (allDigits digit member),
    takeWhile_run allDigits stops, dropWhile_run allDigits stops, ends,
    if_neg (by simpa using filled)]
  cases readWhole .word32 digits <;> rfl

theorem readName?_append (filled : letters ≠ [])
    (allLetters : ∀ letter ∈ letters, letter.isAlpha = true) (marked : Marked rest) :
    readName? (letters ++ rest) = some (letters, rest) := by
  have stops : ∀ first ∈ rest.head?, first.isAlpha = false := marked.stops rfl rfl rfl
  have ends : skipGaps rest = rest := skipGaps_eq_self (marked.stops rfl rfl rfl)
  unfold readName?
  dsimp only
  rw [skipGaps_append filled fun letter member => isEdge_of_isAlpha (allLetters letter member),
    takeWhile_run allLetters stops, dropWhile_run allLetters stops, ends,
    if_neg (by simpa using filled)]

theorem readNumber?_letters (filled : letters ≠ [])
    (allLetters : ∀ letter ∈ letters, letter.isAlpha = true) (rest : List Char) :
    readNumber? (letters ++ rest) = none := by
  have noDigits : (letters ++ rest).takeWhile Char.isDigit = [] := by
    cases letters with
    | nil => exact absurd rfl filled
    | cons letter letters =>
        refine List.takeWhile_cons_of_neg fun digit => ?_
        simpa [isAlpha_of_isDigit digit] using allLetters letter List.mem_cons_self
  unfold readNumber?
  dsimp only
  rw [skipGaps_append filled fun letter member => isEdge_of_isAlpha (allLetters letter member),
    noDigits]
  rfl

theorem readNumber?_digit {value : Nat} (digit : value < 10) (marked : Marked rest) :
    readNumber? (value.digitChar :: rest) = some (value, rest) := by
  have reads : ∀ value : Nat, value < 10 →
      readWhole .word32 [value.digitChar] = .ok (value : Int) := by
    decide
  have read := readNumber?_append (List.cons_ne_nil value.digitChar [])
    (List.forall_mem_singleton.2 (isDigit_digitChar digit)) marked
  rwa [reads value digit] at read

/-! ## Spans -/

/-- What may follow the numbers of an item within a field. -/
def Followed (text : List Char) : Prop := ∀ first ∈ text.head?, first = ',' ∨ first = '/'

theorem Followed.marked (followed : Followed rest) : Marked rest := by
  intro first member
  rcases followed first member with rfl | rfl
  · exact Or.inl rfl
  · exact Or.inr (Or.inr rfl)

theorem Followed.readDash? (followed : Followed rest) : readMark? '-' rest = none := by
  cases rest with
  | nil => rfl
  | cons first rest =>
      rcases followed first rfl with rfl | rfl <;> rfl

/-- The spans of a column that takes a question mark, as they are written with single digits. -/
inductive Spells : List Char → Span → Prop
  | sign {sign : Char} (isSign : sign = '*' ∨ sign = '?') : Spells [sign] .all
  | single {value : Nat} (digit : value < 10) : Spells [value.digitChar] (.single value)
  | range {first last : Nat} (firstDigit : first < 10) (lastDigit : last < 10) :
      Spells [first.digitChar, '-', last.digitChar] (.range first last)
  | names {first last : List Char} (filled : first ≠ []) (filledLast : last ≠ [])
      (letters : ∀ letter ∈ first, letter.isAlpha = true)
      (lettersLast : ∀ letter ∈ last, letter.isAlpha = true) :
      Spells (first ++ '-' :: last) (.namedRange first last)

theorem Spells.skipGaps_append (spells : Spells text span) (rest : List Char) :
    skipGaps (text ++ rest) = text ++ rest := by
  cases spells with
  | sign isSign => rcases isSign with rfl | rfl <;> rfl
  | single valueDigit =>
      exact Cron.skipGaps_append (List.cons_ne_nil _ _) (List.forall_mem_singleton.2
        (isEdge_of_isDigit (isDigit_digitChar valueDigit))) rest
  | @range first last firstDigit =>
      exact Cron.skipGaps_append (List.cons_ne_nil first.digitChar []) (List.forall_mem_singleton.2
        (isEdge_of_isDigit (isDigit_digitChar firstDigit))) ('-' :: last.digitChar :: rest)
  | names filled _ letters _ =>
      rw [List.append_assoc]
      exact Cron.skipGaps_append filled (fun letter member =>
        isEdge_of_isAlpha (letters letter member)) _

theorem readAll?_eq_none {first : Char} (noStar : first ≠ '*') (noMark : first ≠ '?') :
    readAll? true (first :: rest) = none := by
  rw [readAll?_cons, if_neg (by simp [noStar, noMark])]

theorem readAll?_digit {value : Nat} (digit : value < 10) (rest : List Char) :
    readAll? true (value.digitChar :: rest) = none := by
  have noSign : ∀ value < 10, value.digitChar ≠ '*' ∧ value.digitChar ≠ '?' := by decide
  exact readAll?_eq_none (noSign value digit).1 (noSign value digit).2

theorem readAll?_letters (filled : letters ≠ [])
    (allLetters : ∀ letter ∈ letters, letter.isAlpha = true) (rest : List Char) :
    readAll? true (letters ++ rest) = none := by
  cases letters with
  | nil => exact absurd rfl filled
  | cons letter letters =>
      have isAlpha := allLetters letter List.mem_cons_self
      refine readAll?_eq_none ?_ ?_
      · rintro rfl
        cases isAlpha
      · rintro rfl
        cases isAlpha

theorem readMark?_self (mark : Char) (rest : List Char) :
    readMark? mark (mark :: rest) = some rest := by
  rw [readMark?, if_pos rfl]

/-- A span is read back where a comma or a step follows. -/
theorem Spells.readSpan?_append (spells : Spells text span) (followed : Followed rest) :
    readSpan? true (text ++ rest) = some (span, rest) := by
  have dash : ∀ rest, Marked ('-' :: rest) := Marked.cons (Or.inr (Or.inl rfl))
  cases spells with
  | sign isSign => rcases isSign with rfl | rfl <;> rfl
  | @single value digit =>
      have read := readNumber?_digit digit followed.marked
      simp [readSpan?, readAll?_digit digit, readRange?, readSingle?, read, followed.readDash?]
  | @range first last firstDigit lastDigit =>
      have read := readNumber?_digit firstDigit (dash (last.digitChar :: rest))
      have readLast := readNumber?_digit lastDigit followed.marked
      simp [readSpan?, readAll?_digit firstDigit, readRange?, read, readMark?_self, readLast]
  | @names first last filled filledLast letters lettersLast =>
      have read := readName?_append filled letters (dash (last ++ rest))
      have readLast := readName?_append filledLast lettersLast followed.marked
      rw [List.append_assoc, List.cons_append]
      simp [readSpan?, readAll?_letters filled letters, readRange?, readSingle?,
        readNumber?_letters filled letters, readNamedRange?, read, readMark?_self, readLast]

/-- A name that no dash follows is no span. -/
theorem readSpan?_letters (filled : letters ≠ [])
    (allLetters : ∀ letter ∈ letters, letter.isAlpha = true) (followed : Followed rest) :
    readSpan? true (letters ++ rest) = none := by
  have read := readName?_append filled allLetters followed.marked
  simp [readSpan?, readAll?_letters filled allLetters, readRange?, readSingle?,
    readNumber?_letters filled allLetters, readNamedRange?, read, followed.readDash?]

/-! ## Items -/

/-- A text that is written as an item: what is read of it, and what of it is left. -/
inductive Written : List Char → Item → List Char → Prop
  | plain {text : List Char} {span : Span} (spells : Spells text span) :
      Written text (.plain span) []
  | stepped {text digits : List Char} {span : Span} {step : Nat} (spells : Spells text span)
      (filled : digits ≠ []) (allDigits : ∀ digit ∈ digits, digit.isDigit = true)
      (fits : readWhole .word32 digits = .ok (step : Int)) :
      Written (text ++ '/' :: digits) (.stepped span step) []
  | tooLarge {text digits : List Char} {span : Span} {fault : WholeFault}
      (spells : Spells text span) (filled : digits ≠ [])
      (allDigits : ∀ digit ∈ digits, digit.isDigit = true)
      (unfit : readWhole .word32 digits = .error fault) :
      Written (text ++ '/' :: digits) (.plain span) ('/' :: digits)
  | named {letters : List Char} (filled : letters ≠ [])
      (allLetters : ∀ letter ∈ letters, letter.isAlpha = true) :
      Written letters (.named letters) []

/-- What may follow an item within a field. -/
def Ended (text : List Char) : Prop := ∀ first ∈ text.head?, first = ','

theorem Ended.followed (ended : Ended rest) : Followed rest :=
  fun first member => Or.inl (ended first member)

theorem Ended.readSlash? (ended : Ended rest) : readMark? '/' rest = none := by
  cases rest with
  | nil => rfl
  | cons first rest =>
      obtain rfl := ended first rfl
      rfl

theorem Written.readItem?_append (written : Written text item left) (ended : Ended rest) :
    readItem? true (text ++ rest) = some (item, left ++ rest) := by
  have slash : ∀ rest, Followed ('/' :: rest) := by
    intro rest first member
    exact Or.inr (Option.some.inj member).symm
  cases written with
  | plain spells =>
      have read := spells.readSpan?_append ended.followed
      simp [readItem?, readStepped?, read, ended.readSlash?, readPlain?]
  | @stepped text digits span step spells filled allDigits fits =>
      have read := spells.readSpan?_append (slash (digits ++ rest))
      have readStep := readNumber?_append filled allDigits ended.followed.marked
      rw [fits] at readStep
      rw [List.append_assoc, List.cons_append]
      simp [readItem?, readStepped?, read, readMark?_self, readStep, Except.toOption]
  | @tooLarge text digits span fault spells filled allDigits unfit =>
      have read := spells.readSpan?_append (slash (digits ++ rest))
      have readStep := readNumber?_append filled allDigits ended.followed.marked
      rw [unfit] at readStep
      rw [List.append_assoc, List.cons_append]
      simp [readItem?, readStepped?, read, readMark?_self, readStep, Except.toOption, readPlain?]
  | named filled allLetters =>
      have read := readName?_append filled allLetters ended.followed.marked
      have noSpan := readSpan?_letters filled allLetters ended.followed
      simp [readItem?, readStepped?, readPlain?, noSpan, readNamed?, read]

theorem Written.left_cases (written : Written text item left) :
    left = [] ∨ ∃ digits, left = '/' :: digits := by
  cases written with
  | plain => exact Or.inl rfl
  | stepped => exact Or.inl rfl
  | @tooLarge _ digits => exact Or.inr ⟨digits, rfl⟩
  | named => exact Or.inl rfl

/-- No blank stands before an item. -/
theorem Written.skipGaps_append (written : Written text item left) (rest : List Char) :
    skipGaps (text ++ rest) = text ++ rest := by
  cases written with
  | plain spells => exact spells.skipGaps_append rest
  | stepped spells => rw [List.append_assoc, spells.skipGaps_append]
  | tooLarge spells => rw [List.append_assoc, spells.skipGaps_append]
  | named filled allLetters =>
      exact Cron.skipGaps_append filled (fun letter member =>
        isEdge_of_isAlpha (allLetters letter member)) rest

/-! ## Fields -/

/-- A part of a field that is written as an item. -/
structure Piece where
  text : List Char
  item : Item
  left : List Char
  written : Written text item left

/-- The items of a field after the first one, with the commas before them. -/
def listed (pieces : List Piece) : List Char := pieces.flatMap fun piece => ',' :: piece.text

theorem joinWith_pieces (piece : Piece) (pieces : List Piece) :
    joinWith [','] ((piece :: pieces).map (·.text)) = piece.text ++ listed pieces := by
  induction pieces generalizing piece with
  | nil => simp [joinWith, listed]
  | cons next pieces inductionHypothesis =>
      have later := inductionHypothesis next
      simp only [List.map_cons] at later ⊢
      rw [joinWith, later]
      simp [listed]

theorem ended_listed (pieces : List Piece) : Ended (listed pieces) := by
  intro first member
  cases pieces with
  | nil => cases member
  | cons piece pieces => exact (Option.some.inj member).symm

theorem readItem?_listed (piece : Piece) (pieces : List Piece) :
    readItem? true (piece.text ++ listed pieces) = some (piece.item, piece.left ++ listed pieces) :=
  piece.written.readItem?_append (ended_listed pieces)

/-- Where nothing is left of a field, nothing is left of its items. -/
theorem Piece.left_eq_nil {piece : Piece} {count : Nat}
    (read : readMoreItems true count (piece.left ++ text) = (items, rest))
    (whole : skipGaps rest = []) : piece.left = [] := by
  rcases piece.written.left_cases with none | ⟨digits, some⟩
  · exact none
  · have noComma : (readMark? ',' (piece.left ++ text)).bind (readItem? true) = none := by
      rw [some]
      rfl
    rw [readMoreItems_of_none count noComma] at read
    obtain ⟨_, rfl⟩ := Prod.mk.inj read
    rw [some, List.cons_append, skipGaps_eq_self fun first member => by
      rw [← Option.some.inj member]
      rfl] at whole
    cases whole

/-- Where nothing is left of a field, its items have been read as they are written. -/
theorem items_eq_of_readMoreItems {piece : Piece} {pieces : List Piece} {count : Nat}
    (enough : (piece.left ++ listed pieces).length ≤ count)
    (read : readMoreItems true count (piece.left ++ listed pieces) = (items, rest))
    (whole : skipGaps rest = []) :
    (∀ other ∈ piece :: pieces, other.left = []) ∧ items = pieces.map (·.item) := by
  induction pieces generalizing piece count items with
  | nil =>
      have noLeft := piece.left_eq_nil read whole
      rw [noLeft, readMoreItems_of_none count rfl] at read
      exact ⟨List.forall_mem_singleton.2 noLeft, (Prod.mk.inj read).1.symm⟩
  | cons next pieces inductionHypothesis =>
      have noLeft := piece.left_eq_nil read whole
      have listed_eq : listed (next :: pieces) = ',' :: (next.text ++ listed pieces) := rfl
      rw [noLeft, List.nil_append, listed_eq] at read enough
      have found : (readMark? ',' (',' :: (next.text ++ listed pieces))).bind (readItem? true) =
          some (next.item, next.left ++ listed pieces) := by
        rw [readMark?_self]
        exact readItem?_listed next pieces
      have shorter := ((reads_readItem? true).takes (readItem?_listed next pieces)).length_lt
      rw [List.length_cons] at enough
      obtain ⟨count, rfl⟩ : ∃ fewer, count = fewer + 1 := ⟨count - 1, by omega⟩
      rw [readMoreItems_of_some found] at read
      obtain ⟨rfl, rfl⟩ := Prod.mk.inj read
      obtain ⟨noneLeft, later⟩ := inductionHypothesis (by omega) rfl
      exact ⟨List.forall_mem_cons.2 ⟨noLeft, noneLeft⟩, congrArg (next.item :: ·) later⟩

/-- A field that is read as a whole has the items that are written in it. -/
theorem items_eq_of_readItems? {column : Column} (takes : column.takesQuestionMark = true)
    {pieces : List Piece} (filled : pieces ≠ [])
    (read : readItems? column (joinWith [','] (pieces.map (·.text))) = some (items, [])) :
    (∀ piece ∈ pieces, piece.left = []) ∧ items = pieces.map (·.item) := by
  cases pieces with
  | nil => exact absurd rfl filled
  | cons piece pieces =>
      rw [joinWith_pieces, readItems?, takes, piece.written.skipGaps_append,
        readItem?_listed] at read
      obtain ⟨rfl, whole⟩ := Prod.mk.inj (Option.some.inj read)
      obtain ⟨noneLeft, later⟩ := items_eq_of_readMoreItems (Nat.le_refl _) rfl whole
      exact ⟨noneLeft, congrArg (piece.item :: ·) later⟩

end NodeFleet.Cron
