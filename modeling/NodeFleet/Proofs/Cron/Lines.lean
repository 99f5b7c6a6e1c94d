import NodeFleet.Cron.Schedule
import NodeFleet.Proofs.Cron.Readers

/-!
# Lines of a timetable

A line holds one token for each column of a timetable.  Where no token has a seam, a column takes
at least one whole token, so that a line with as many tokens as columns gives each column a token
of its own.
-/

namespace NodeFleet.Cron

open Schedule Text

/-! ## Cutting a line -/

/-- A token of a line is not empty and holds no blank. -/
structure IsWord (token : List Char) : Prop where
  filled : token ≠ []
  bare : Bare token

section Cutting

variable {token text before gaps rest : List Char} {tokens others : List (List Char)}
  {last : Char}

/-- The tokens of a line after the first one, with the blank before them. -/
def trail : List (List Char) → List Char
  | [] => []
  | token :: tokens => ' ' :: line (token :: tokens)

theorem line_cons (token : List Char) (tokens : List (List Char)) :
    line (token :: tokens) = token ++ trail tokens := by
  cases tokens with
  | nil => simp [line, joinWith, trail]
  | cons next tokens => simp [line, joinWith, trail]

theorem bare_line (words : ∀ token ∈ tokens, IsWord token) :
    ∀ first ∈ (line tokens).head?, isGap first = false := by
  cases tokens with
  | nil => simp [line, joinWith]
  | cons token tokens =>
      obtain ⟨filled, bare⟩ := words token List.mem_cons_self
      rw [line_cons, List.head?_append_of_ne_nil _ filled]
      exact fun first member => bare first (List.mem_of_mem_head? member)

/-- In a token without seams a piece ends only where the token ends, and the blanks after it are
those up to the next token. -/
theorem eq_line_of_seamless (words : ∀ token ∈ tokens, IsWord token)
    (bare : Bare after)
    (seamless : Seamless (before ++ last :: after)) (edge : isEdge last = true)
    (blank : ∀ gap ∈ gaps, isGap gap = true) (opens : Opens rest)
    (munch : gaps = [] → ∀ next ∈ rest.head?, merges last next = false)
    (same : gaps ++ rest = after ++ trail tokens) : after = [] ∧ rest = line tokens := by
  cases gaps with
  | nil =>
      rw [List.nil_append] at same
      subst same
      cases after with
      | nil =>
          cases tokens with
          | nil => exact ⟨rfl, rfl⟩
          | cons token tokens => cases opens ' ' rfl
      | cons next after =>
          have smooth := (List.isChain_append_cons_cons.1 seamless).2.1
          simp [isSeam, edge, opens next rfl, munch rfl next rfl] at smooth
  | cons gap gaps =>
      cases after with
      | cons next after =>
          obtain ⟨rfl, _⟩ := List.cons_eq_cons.1 same
          have shown := bare gap List.mem_cons_self
          simp [blank gap List.mem_cons_self] at shown
      | nil =>
          cases tokens with
          | nil => cases same
          | cons token tokens =>
              obtain ⟨_, same⟩ := List.cons_eq_cons.1 same
              have starts := bare_line words
              rw [← same] at starts ⊢
              cases gaps with
              | nil => exact ⟨rfl, rfl⟩
              | cons next gaps =>
                  have shown := starts next rfl
                  simp [blank next] at shown

/-- What is taken from a line of tokens without seams, up to something that could start a field,
ends with a token. -/
theorem exists_cut (words : ∀ token ∈ tokens, IsWord token)
    (seamless : ∀ token ∈ tokens, Seamless token)
    (text_eq : line tokens = before ++ last :: (gaps ++ rest)) (edge : isEdge last = true)
    (blank : ∀ gap ∈ gaps, isGap gap = true) (opens : Opens rest)
    (munch : gaps = [] → ∀ next ∈ rest.head?, merges last next = false) :
    ∃ taken start left, tokens = taken ++ (start ++ [last]) :: left ∧ rest = line left := by
  have other : last ≠ ' ' := by
    rintro rfl
    cases edge
  induction tokens generalizing before with
  | nil => simp [line, joinWith] at text_eq
  | cons token tokens inductionHypothesis =>
      rw [List.forall_mem_cons] at words seamless
      rw [line_cons] at text_eq
      rcases List.append_eq_append_iff.1 text_eq with ⟨further, rfl, same⟩ | ⟨ending, rfl, same⟩
      · cases tokens with
        | nil => simp [trail] at same
        | cons next tokens =>
            cases further with
            | nil =>
                obtain ⟨rfl, _⟩ := List.cons_eq_cons.1 same
                exact absurd rfl other
            | cons blank' further =>
                obtain ⟨_, same⟩ := List.cons_eq_cons.1 same
                obtain ⟨taken, start, left, split, rest_eq⟩ :=
                  inductionHypothesis words.2 seamless.2 same
                exact ⟨token :: taken, start, left, by rw [split, List.cons_append], rest_eq⟩
      · cases ending with
        | nil =>
            cases tokens with
            | nil => cases same
            | cons next tokens =>
                obtain ⟨rfl, _⟩ := List.cons_eq_cons.1 same
                exact absurd rfl other
        | cons final after =>
            rw [List.cons_append, List.cons_eq_cons] at same
            obtain ⟨rfl, same⟩ := same
            obtain ⟨rfl, rest_eq⟩ := eq_line_of_seamless words.2
              (fun character member => words.1.bare character (by simp [member])) seamless.1 edge
              blank opens munch same
            exact ⟨[], before, tokens, rfl, rest_eq⟩

end Cutting

/-! ## Reading the columns of a line -/

/-- A token is one whole field of a column, which stands for some numbers. -/
structure Column.HasField (column : Column) (token : List Char) (numbers : List Nat) : Prop where
  whole : readField? column token = some (numbers, [])

section Columns

variable {column : Column} {columns : List Column} {token text rest : List Char}
  {tokens : List (List Char)} {numbers : List Nat} {found : List (List Nat)}

theorem bare_of_readField? (read : readField? column text = some (numbers, rest)) :
    ∀ first ∈ rest.head?, isGap first = false := by
  obtain ⟨⟨items, left⟩, readItems, read⟩ := Option.bind_eq_some_iff.1 read
  obtain ⟨_, _, made⟩ := Option.bind_eq_some_iff.1 read
  obtain ⟨_, rfl⟩ := Prod.mk.inj (Option.some.inj made)
  obtain ⟨_, _, made⟩ := Option.bind_eq_some_iff.1 readItems
  obtain ⟨_, rfl⟩ := Prod.mk.inj (Option.some.inj made)
  exact bare_skipGaps _

/-- Where a field is read and no blank stands, an edge character stands. -/
theorem opens_of_readField? (read : readField? column text = some (numbers, rest))
    (bare : ∀ first ∈ text.head?, isGap first = false) : Opens text := by
  obtain ⟨first, head, edge⟩ := ((reads_readField? column).takes read).opens
  rw [skipGaps_eq_self bare] at head
  intro other member
  rw [Option.mem_def] at head member
  obtain rfl := Option.some.inj (head.symm.trans member)
  exact edge

theorem readField?_nil (column : Column) : readField? column [] = none := by
  refine Option.eq_none_iff_forall_ne_some.2 fun ⟨numbers, rest⟩ read => ?_
  exact absurd ((reads_readField? column).takes read).length_lt (Nat.not_lt_zero _)

theorem Column.HasField.unique {others : List Nat} (field : column.HasField token numbers)
    (other : column.HasField token others) : numbers = others :=
  (Prod.mk.inj (Option.some.inj (field.whole.symm.trans other.whole))).1

/-- A whole field has no seam. -/
theorem Column.HasField.seamless (field : column.HasField token numbers) (bare : Bare token) :
    Seamless token :=
  (reads_readField? column).seamless field.whole bare

/-- A column that takes the first token of a line and the blank after it reads the token
alone. -/
theorem hasField_of_line (word : IsWord token)
    (closed : ∀ last ∈ token.getLast?, isEdge last = true) (opens : Opens (line tokens))
    (read : readField? column (line (token :: tokens)) = some (numbers, line tokens)) :
    column.HasField token numbers := by
  cases tokens with
  | nil => exact ⟨read⟩
  | cons next tokens =>
      rw [line_cons, trail] at read
      exact ⟨(reads_readField? column).of_followed ⟨word.bare, closed⟩ word.filled opens read⟩

theorem bare_of_readColumns? (read : readColumns? columns text = some (found, rest))
    (bare : ∀ first ∈ text.head?, isGap first = false) :
    ∀ first ∈ rest.head?, isGap first = false := by
  induction columns generalizing text found with
  | nil =>
      obtain ⟨_, rfl⟩ := Prod.mk.inj (Option.some.inj read)
      exact bare
  | cons column columns inductionHypothesis =>
      obtain ⟨⟨numbers, middle⟩, readFirst, read⟩ := Option.bind_eq_some_iff.1 read
      obtain ⟨⟨others, left⟩, readOthers, made⟩ := Option.bind_eq_some_iff.1 read
      obtain ⟨_, rfl⟩ := Prod.mk.inj (Option.some.inj made)
      exact inductionHypothesis readOthers (bare_of_readField? readFirst)

theorem opens_of_readYears (read : readYears text = (numbers, []))
    (bare : ∀ first ∈ text.head?, isGap first = false) : Opens text := by
  unfold readYears at read
  cases readYear : readField? .year text with
  | none =>
      rw [readYear] at read
      obtain ⟨_, rfl⟩ := Prod.mk.inj read
      exact fun first member => by cases member
  | some years => exact opens_of_readField? readYear bare

theorem opens_of_readColumns? (read : readColumns? columns text = some (found, rest))
    (bare : ∀ first ∈ text.head?, isGap first = false) (opens : Opens rest) : Opens text := by
  cases columns with
  | nil =>
      obtain ⟨_, rfl⟩ := Prod.mk.inj (Option.some.inj read)
      exact opens
  | cons column columns =>
      obtain ⟨⟨numbers, left⟩, readField, _⟩ := Option.bind_eq_some_iff.1 read
      exact opens_of_readField? readField bare

/-- Columns take at least a token each, and where there are no more tokens than columns, each
column reads a token of its own. -/
theorem hasFields_of_readColumns? (words : ∀ token ∈ tokens, IsWord token)
    (seamless : ∀ token ∈ tokens, Seamless token)
    (read : readColumns? columns (line tokens) = some (found, rest)) (opens : Opens rest) :
    columns.length ≤ tokens.length ∧ (columns.length = tokens.length → rest = [] ∧
      List.Forall₂ (fun field numbers => Column.HasField field.1 field.2 numbers)
        (columns.zip tokens) found) := by
  induction columns generalizing tokens found with
  | nil =>
      obtain ⟨rfl, rfl⟩ := Prod.mk.inj (Option.some.inj read)
      refine ⟨Nat.zero_le _, fun same => ?_⟩
      obtain rfl := List.length_eq_zero_iff.1 same.symm
      exact ⟨rfl, .nil⟩
  | cons column columns inductionHypothesis =>
      obtain ⟨⟨numbers, middle⟩, readFirst, read⟩ := Option.bind_eq_some_iff.1 read
      obtain ⟨⟨others, left⟩, readOthers, made⟩ := Option.bind_eq_some_iff.1 read
      obtain ⟨rfl, rfl⟩ := Prod.mk.inj (Option.some.inj made)
      have opensMiddle := opens_of_readColumns? readOthers (bare_of_readField? readFirst) opens
      obtain ⟨_, before, last, gaps, text_eq, edge, blank, _, munch⟩ :=
        (reads_readField? column).takes readFirst
      obtain ⟨taken, start, remaining, rfl, rfl⟩ :=
        exists_cut words seamless text_eq edge blank opensMiddle munch
      have later : ∀ token ∈ remaining, token ∈ taken ++ (start ++ [last]) :: remaining :=
        fun token member => by simp [member]
      obtain ⟨fewer, exact⟩ := inductionHypothesis (fun token member => words _ (later _ member))
        (fun token member => seamless _ (later _ member)) readOthers
      simp only [List.length_append, List.length_cons]
      refine ⟨by omega, fun same => ?_⟩
      obtain rfl : taken = [] := List.length_eq_zero_iff.1 (by omega)
      obtain ⟨rest_eq, fields⟩ := exact (by omega)
      refine ⟨rest_eq, .cons (hasField_of_line (words _ List.mem_cons_self) ?_ opensMiddle
        readFirst) fields⟩
      simpa using edge

end Columns

/-- A timetable that is read from a line of six tokens without seams takes every column but the
years from one token, and names all years. -/
theorem Timetable.hasFields_of_read? {second minute hour day month weekday : List Char}
    {table : Timetable}
    (words : ∀ token ∈ [second, minute, hour, day, month, weekday], IsWord token)
    (seamless : ∀ token ∈ [second, minute, hour, day, month, weekday], Seamless token)
    (read : Timetable.read? (line [second, minute, hour, day, month, weekday]) = some table) :
    Column.second.HasField second table.seconds ∧ Column.minute.HasField minute table.minutes ∧
      Column.hour.HasField hour table.hours ∧ Column.day.HasField day table.days ∧
      Column.month.HasField month table.months ∧
      Column.weekday.HasField weekday table.weekdays ∧ table.years = Column.year.all := by
  obtain ⟨rest, columns, years⟩ := exists_columns_of_read? read
  have opens : Opens rest :=
    opens_of_readYears years (bare_of_readColumns? columns (bare_line words))
  obtain ⟨rfl, fields⟩ := (hasFields_of_readColumns? words seamless columns opens).2 rfl
  simp only [List.zip_cons_cons, List.forall₂_cons] at fields
  obtain ⟨inSeconds, inMinutes, inHours, inDays, inMonths, inWeekdays, _⟩ := fields
  rw [readYears, readField?_nil] at years
  exact ⟨inSeconds, inMinutes, inHours, inDays, inMonths, inWeekdays, (Prod.mk.inj years).1.symm⟩

end NodeFleet.Cron
