import NodeFleet.Proofs.Cron.Pieces

/-!
# The readers of the grammar

Every reader of the grammar takes a piece from the front of a text, and does at the end of a
token what it does at the end of the text.  Readers that are made of such readers are such
readers.
-/

namespace NodeFleet.Cron

/-! ## Numbers and names -/

section Runs

variable {kind : Char → Bool} {text token following : List Char}

theorem takes_run (edge : ∀ character, kind character = true → isEdge character = true)
    (run : ∀ left right, kind left = true → merges left right = kind right)
    (filled : text.takeWhile kind ≠ []) : Takes text (text.dropWhile kind) := by
  have inRun : ∀ character ∈ text.takeWhile kind, kind character = true :=
    fun _ member => List.mem_takeWhile_imp member
  have lastInRun := inRun _ (List.getLast_mem filled)
  constructor
  · cases text with
    | nil => exact absurd rfl filled
    | cons first rest =>
        have firstInRun : kind first = true := by
          refine Bool.not_eq_false _ ▸ fun other => filled ?_
          rw [List.takeWhile_cons_of_neg (by simp [other])]
        have firstEdge := edge first firstInRun
        refine ⟨first, ?_, firstEdge⟩
        rw [skipGaps_eq_self (by simpa using isGap_of_isEdge firstEdge)]
        rfl
  · refine ⟨(text.takeWhile kind).dropLast, (text.takeWhile kind).getLast filled, [], ?_,
      edge _ lastInRun, by simp, ?_, fun _ next member => ?_⟩
    · rw [List.append_cons, List.dropLast_append_getLast filled, List.nil_append,
        List.takeWhile_append_dropWhile]
    · rw [List.dropLast_append_getLast filled]
      refine List.Pairwise.isChain (List.pairwise_of_forall_mem_list fun left inLeft right inRight
        => ?_)
      simp [isSeam, run left right (inRun left inLeft), inRun right inRight]
    · have stops := List.head?_dropWhile_not kind text
      rw [Option.mem_def] at member
      rw [member] at stops
      rw [run _ _ lastInRun]
      exact stops

/-- A run ends with its token. -/
theorem takeWhile_append_gap (stops : kind ' ' = false) (token following : List Char) :
    (token ++ ' ' :: following).takeWhile kind = token.takeWhile kind := by
  rw [List.takeWhile_append]
  split
  · rename_i whole
    rw [List.takeWhile_cons_of_neg (by simp [stops]), List.append_nil]
    exact ((List.takeWhile_prefix kind).eq_of_length whole).symm
  · rfl

theorem dropWhile_append_gap (stops : kind ' ' = false) (token following : List Char) :
    (token ++ ' ' :: following).dropWhile kind = token.dropWhile kind ++ ' ' :: following := by
  rw [List.dropWhile_append]
  split
  · rename_i whole
    rw [List.isEmpty_iff.1 whole, List.dropWhile_cons_of_neg (by simp [stops]), List.nil_append]
  · rfl

/-- Reading a run of one kind of characters with the blanks around it. -/
theorem Reads.of_run {α : Type} (kind : Char → Bool)
    (edge : ∀ character, kind character = true → isEdge character = true)
    (run : ∀ left right, kind left = true → merges left right = kind right)
    (make : List Char → Option α) :
    Reads fun text =>
      if ((skipGaps text).takeWhile kind).isEmpty then none
      else (make ((skipGaps text).takeWhile kind)).map fun value =>
        (value, skipGaps ((skipGaps text).dropWhile kind)) where
  takes {text value rest} read := by
    split at read
    · cases read
    · rename_i filled
      obtain ⟨_, _, made⟩ := Option.map_eq_some_iff.1 read
      obtain ⟨_, rfl⟩ := Prod.mk.inj made
      exact (takes_run edge run (by simpa using filled)).of_skipGaps.skipGaps_rest
  keeps {token following} isToken filled opens := by
    have stops : kind ' ' = false := Bool.eq_false_iff.2 fun inKind => by cases edge _ inKind
    have bare : skipGaps (token ++ ' ' :: following) = token ++ ' ' :: following :=
      isToken.skipGaps_append filled _
    have left := isToken.of_suffix (List.dropWhile_suffix kind)
    rw [bare, takeWhile_append_gap stops, dropWhile_append_gap stops, isToken.skipGaps_eq]
    split
    · exact .none
    · cases make (token.takeWhile kind) with
      | none => exact .none
      | some value =>
          exact .some ⟨rfl, (Continues.append following _).skipGaps_rest left opens⟩

theorem reads_readNumber? : Reads readNumber? := by
  have same : readNumber? = fun text =>
      if ((skipGaps text).takeWhile Char.isDigit).isEmpty then none
      else ((Text.readWhole .word32 ((skipGaps text).takeWhile Char.isDigit)).toOption.map
        Int.toNat).map fun value => (value, skipGaps ((skipGaps text).dropWhile Char.isDigit)) := by
    funext text
    unfold readNumber?
    dsimp only
    cases Text.readWhole .word32 ((skipGaps text).takeWhile Char.isDigit) <;> rfl
  rw [same]
  exact Reads.of_run Char.isDigit (fun _ => isEdge_of_isDigit) (fun _ _ => merges_of_isDigit)
    fun digits => (Text.readWhole .word32 digits).toOption.map Int.toNat

theorem reads_readName? : Reads readName? :=
  Reads.of_run Char.isAlpha (fun _ => isEdge_of_isAlpha) (fun _ _ => merges_of_isAlpha) some

end Runs

/-! ## Readers made of readers -/

section Combined

variable {α β γ : Type} {token following text long rest : List Char} {mark : Char}
  {first second : List Char → Option (α × List Char)}
  {next : List Char → Option (β × List Char)}

theorem rel_bind {α β γ δ : Type} {related : α → β → Prop} {relatedNext : γ → δ → Prop}
    {long : Option α} {short : Option β} {nextLong : α → Option γ} {nextShort : β → Option δ}
    (same : Option.Rel related long short)
    (next : ∀ left right, short = some right → related left right →
      Option.Rel relatedNext (nextLong left) (nextShort right)) :
    Option.Rel relatedNext (long >>= nextLong) (short >>= nextShort) := by
  cases same with
  | none => exact .none
  | some same => exact next _ _ rfl same

/-- A reader that refuses some of what another one reads. -/
theorem Reads.checked (reads : Reads first) (check : α → Option β) :
    Reads fun text => do
      let (value, rest) ← first text
      return (← check value, rest) where
  takes {text value rest} read := by
    obtain ⟨⟨given, left⟩, readGiven, made⟩ := Option.bind_eq_some_iff.1 read
    obtain ⟨_, _, made⟩ := Option.bind_eq_some_iff.1 made
    obtain ⟨_, rfl⟩ := Prod.mk.inj (Option.some.inj made)
    exact reads.takes readGiven
  keeps {token following} isToken filled opens := by
    refine rel_bind (reads.keeps isToken filled opens) ?_
    rintro ⟨value, long⟩ ⟨_, short⟩ _ ⟨rfl, continues⟩
    dsimp only
    cases check value with
    | none => exact .none
    | some made => exact .some ⟨rfl, continues⟩

theorem Reads.map (reads : Reads first) (make : α → β) :
    Reads fun text => do
      let (value, rest) ← first text
      return (make value, rest) :=
  reads.checked fun value => some (make value)

theorem Reads.or (reads : Reads first) (readsElse : Reads second) :
    Reads fun text => (first text).or (second text) where
  takes {text value rest} read := by
    rcases Option.or_eq_some_iff.1 read with read | ⟨_, read⟩
    · exact reads.takes read
    · exact readsElse.takes read
  keeps {token following} isToken filled opens := by
    have same := reads.keeps isToken filled opens
    generalize first (token ++ ' ' :: following) = long at same ⊢
    generalize first token = short at same ⊢
    cases same with
    | none => exact readsElse.keeps isToken filled opens
    | some same => exact .some same

theorem readMark?_eq_some_iff : readMark? mark text = some rest ↔ text = mark :: rest := by
  cases text with
  | nil => simp [readMark?]
  | cons first others =>
      simp only [readMark?, Option.ite_none_right_eq_some, Option.some.injEq, List.cons.injEq]

theorem readMark?_eq_none_of_opens (inner : isEdge mark = false) (opens : Opens text) :
    readMark? mark text = none := by
  refine Option.eq_none_iff_forall_ne_some.2 fun rest read => ?_
  obtain rfl := readMark?_eq_some_iff.1 read
  have edge := opens mark rfl
  simp [inner] at edge

/-- A mark does not end a token, and what follows a token does not start with one. -/
theorem Continues.readMark? (continues : Continues following rest long) (isToken : IsToken rest)
    (opens : Opens following) (inner : isEdge mark = false) (shown : isGap mark = false) :
    Option.Rel (fun long short => short ≠ [] ∧ IsToken short ∧ long = short ++ ' ' :: following)
      (Cron.readMark? mark long) (Cron.readMark? mark rest) := by
  cases continues with
  | @inside rest filled =>
      cases rest with
      | nil => exact absurd rfl filled
      | cons first rest =>
          rw [List.cons_append, Cron.readMark?, Cron.readMark?]
          split
          · rename_i same
            refine .some ⟨?_, isToken.of_suffix (List.suffix_cons first rest), rfl⟩
            rintro rfl
            have closed := isToken.closed first rfl
            simp [same, inner] at closed
          · exact .none
  | atGap =>
      have other : ' ' ≠ mark := by
        rintro rfl
        simp [isGap] at shown
      simp only [Cron.readMark?, if_neg other]
      exact .none
  | past =>
      rw [readMark?_eq_none_of_opens inner opens]
      exact .none

/-- Two readers with a mark between them. -/
theorem Reads.marked (reads : Reads first) (inner : isEdge mark = false)
    (shown : isGap mark = false) (readsNext : Reads next) (make : α → β → γ) :
    Reads fun text => do
      let (value, rest) ← first text
      let (other, rest) ← next (← readMark? mark rest)
      return (make value other, rest) where
  takes {text value rest} read := by
    obtain ⟨⟨given, left⟩, readGiven, read⟩ := Option.bind_eq_some_iff.1 read
    obtain ⟨middle, readMark, read⟩ := Option.bind_eq_some_iff.1 read
    obtain ⟨⟨other, left'⟩, readOther, made⟩ := Option.bind_eq_some_iff.1 read
    obtain ⟨_, rfl⟩ := Prod.mk.inj (Option.some.inj made)
    obtain rfl := readMark?_eq_some_iff.1 readMark
    exact (reads.takes readGiven).marked inner (readsNext.takes readOther)
  keeps {token following} isToken filled opens := by
    refine rel_bind (reads.keeps isToken filled opens) ?_
    rintro ⟨value, long⟩ ⟨_, short⟩ readFirst ⟨rfl, continues⟩
    have left := isToken.of_suffix (reads.takes readFirst).isSuffix
    refine rel_bind (continues.readMark? left opens inner shown) ?_
    rintro _ middle _ ⟨filledMiddle, isTokenMiddle, rfl⟩
    refine rel_bind (readsNext.keeps isTokenMiddle filledMiddle opens) ?_
    rintro ⟨other, long⟩ ⟨_, short⟩ _ ⟨rfl, continues⟩
    exact .some ⟨rfl, continues⟩

end Combined

/-! ## The readers of the grammar -/

section Grammar

variable {questionMark : Bool} {token following text middle rest long : List Char}
  {items : List Item}

theorem takes_sign {sign : Char} (edge : isEdge sign = true)
    (alone : ∀ next, merges sign next = false) : Takes (sign :: rest) rest where
  opens := by
    rw [skipGaps_eq_self (by simpa using isGap_of_isEdge edge)]
    exact ⟨sign, rfl, edge⟩
  closes := ⟨[], sign, [], rfl, edge, by simp, List.isChain_singleton sign,
    fun _ next _ => alone next⟩

theorem readAll?_cons (questionMark : Bool) (first : Char) (rest : List Char) :
    readAll? questionMark (first :: rest) =
      if first = '?' ∧ questionMark = true ∨ first = '*' then some (.all, rest) else none := by
  unfold readAll?
  split <;> simp_all

theorem reads_readAll? (questionMark : Bool) : Reads (readAll? questionMark) where
  takes {text value rest} read := by
    cases text with
    | nil => cases read
    | cons first others =>
        rw [readAll?_cons, Option.ite_none_right_eq_some] at read
        obtain ⟨sign, made⟩ := read
        obtain ⟨_, rfl⟩ := Prod.mk.inj (Option.some.inj made)
        rcases sign with ⟨rfl, _⟩ | rfl
        · exact takes_sign rfl fun _ => rfl
        · exact takes_sign rfl fun _ => rfl
  keeps {token following} isToken filled _ := by
    cases token with
    | nil => exact absurd rfl filled
    | cons first rest =>
        rw [List.cons_append, readAll?_cons, readAll?_cons]
        split
        · exact .some ⟨rfl, .append following rest⟩
        · exact .none

theorem reads_readSpan? (questionMark : Bool) : Reads (readSpan? questionMark) :=
  (reads_readAll? questionMark).or
    ((reads_readNumber?.marked rfl rfl reads_readNumber? Span.range).or
      ((reads_readNumber?.map Span.single).or
        (reads_readName?.marked rfl rfl reads_readName? Span.namedRange)))

theorem reads_readItem? (questionMark : Bool) : Reads (readItem? questionMark) :=
  ((reads_readSpan? questionMark).marked rfl rfl reads_readNumber? Item.stepped).or
    (((reads_readSpan? questionMark).map Item.plain).or (reads_readName?.map Item.named))

theorem takes_readMoreItems {count : Nat} (takes : Takes text middle)
    (read : readMoreItems questionMark count middle = (items, rest)) : Takes text rest := by
  induction count generalizing middle items with
  | zero =>
      obtain ⟨_, rfl⟩ := Prod.mk.inj read
      exact takes
  | succ count inductionHypothesis =>
      rw [readMoreItems] at read
      split at read
      · obtain ⟨_, rfl⟩ := Prod.mk.inj read
        exact takes
      · rename_i item left readItem
        obtain ⟨afterMark, readMark, readItem⟩ := Option.bind_eq_some_iff.1 readItem
        obtain rfl := readMark?_eq_some_iff.1 readMark
        obtain ⟨_, rfl⟩ := Prod.mk.inj read
        exact inductionHypothesis
          (takes.marked rfl ((reads_readItem? questionMark).takes readItem)) rfl

/-- What may follow the items of a field in a token, at its end as at the end of the text. -/
theorem Continues.readItem? (questionMark : Bool) (continues : Continues following rest long)
    (isToken : IsToken rest) (opens : Opens following) :
    Option.Rel (fun long short => long.1 = short.1 ∧ Continues following short.2 long.2)
      ((Cron.readMark? ',' long).bind (Cron.readItem? questionMark))
      ((Cron.readMark? ',' rest).bind (Cron.readItem? questionMark)) := by
  refine rel_bind (continues.readMark? isToken opens rfl rfl) ?_
  rintro _ middle _ ⟨filled, isTokenMiddle, rfl⟩
  exact (reads_readItem? questionMark).keeps isTokenMiddle filled opens

theorem readMoreItems_of_none (count : Nat)
    (none : (readMark? ',' text).bind (readItem? questionMark) = none) :
    readMoreItems questionMark count text = ([], text) := by
  cases count with
  | zero => rfl
  | succ count => rw [readMoreItems, none]

theorem readMoreItems_of_some {count : Nat} {item : Item}
    (some : (readMark? ',' text).bind (readItem? questionMark) = some (item, rest)) :
    readMoreItems questionMark (count + 1) text =
      (item :: (readMoreItems questionMark count rest).1,
        (readMoreItems questionMark count rest).2) := by
  rw [readMoreItems, some]

/-- A number of items that is not less than the number of characters does not bound them. -/
theorem Continues.readMoreItems {count others : Nat} (continues : Continues following rest long)
    (isToken : IsToken rest) (opens : Opens following) (enough : rest.length ≤ count)
    (enoughOthers : rest.length ≤ others) :
    (Cron.readMoreItems questionMark others long).1 =
        (Cron.readMoreItems questionMark count rest).1 ∧
      Continues following (Cron.readMoreItems questionMark count rest).2
        (Cron.readMoreItems questionMark others long).2 := by
  have same := continues.readItem? questionMark isToken opens
  generalize readLong : (Cron.readMark? ',' long).bind (Cron.readItem? questionMark) = foundLong
    at same
  generalize readShort : (Cron.readMark? ',' rest).bind (Cron.readItem? questionMark) = foundShort
    at same
  -- What the next item leaves is shorter.
  induction size : rest.length using Nat.strongRecOn generalizing rest long count others foundLong
    foundShort with
  | ind size inductionHypothesis =>
  cases same with
  | none =>
      rw [readMoreItems_of_none _ readLong, readMoreItems_of_none _ readShort]
      exact ⟨rfl, continues⟩
  | @some foundLong foundShort same =>
      obtain ⟨item, left⟩ := foundShort
      obtain ⟨_, leftLong⟩ := foundLong
      dsimp only at same
      obtain ⟨rfl, continuesLeft⟩ := same
      obtain ⟨middle, readMark, readItem⟩ := Option.bind_eq_some_iff.1 readShort
      obtain rfl := readMark?_eq_some_iff.1 readMark
      have takes := (reads_readItem? questionMark).takes readItem
      have shorter := takes.length_lt
      rw [List.length_cons] at enough enoughOthers size
      obtain ⟨count, rfl⟩ : ∃ fewer, count = fewer + 1 := ⟨count - 1, by omega⟩
      obtain ⟨others, rfl⟩ : ∃ fewer, others = fewer + 1 := ⟨others - 1, by omega⟩
      have isTokenLeft := isToken.of_suffix (takes.isSuffix.trans (List.suffix_cons _ _))
      have enoughLeft : left.length ≤ count := by omega
      have enoughOthersLeft : left.length ≤ others := by omega
      obtain ⟨same, continuesRest⟩ := inductionHypothesis left.length (by omega) continuesLeft
        isTokenLeft enoughLeft enoughOthersLeft _ rfl _ rfl
        (continuesLeft.readItem? questionMark isTokenLeft opens) rfl
      rw [readMoreItems_of_some readLong, readMoreItems_of_some readShort]
      exact ⟨congrArg (_ :: ·) same, continuesRest⟩

theorem reads_readItems? (column : Column) : Reads (readItems? column) where
  takes {text value rest} read := by
    obtain ⟨⟨item, left⟩, readItem, read⟩ := Option.bind_eq_some_iff.1 read
    obtain ⟨_, rfl⟩ := Prod.mk.inj (Option.some.inj read)
    exact (takes_readMoreItems ((reads_readItem? _).takes readItem).of_skipGaps rfl).skipGaps_rest
  keeps {token following} isToken filled opens := by
    unfold readItems?
    rw [isToken.skipGaps_append filled, isToken.skipGaps_eq]
    refine rel_bind ((reads_readItem? column.takesQuestionMark).keeps isToken filled opens) ?_
    rintro ⟨item, long⟩ ⟨_, short⟩ readItem ⟨rfl, continues⟩
    have takes := (reads_readItem? column.takesQuestionMark).takes readItem
    have left := isToken.of_suffix takes.isSuffix
    obtain ⟨same, continuesRest⟩ :=
      continues.readMoreItems left opens (Nat.le_refl short.length) continues.length_le
    exact .some ⟨congrArg (item :: ·) same, continuesRest.skipGaps_rest
      (isToken.of_suffix (takes_readMoreItems takes rfl).isSuffix) opens⟩

theorem reads_readField? (column : Column) : Reads (readField? column) :=
  (reads_readItems? column).checked column.fieldNumbers?

end Grammar

/-! ## Column after column -/

/-- Reads fields of the columns one after the other. -/
def readColumns? : List Column → List Char → Option (List (List Nat) × List Char)
  | [], text => some ([], text)
  | column :: columns, text => do
      let (numbers, rest) ← readField? column text
      let (others, rest) ← readColumns? columns rest
      return (numbers :: others, rest)

/-- A timetable is read from six columns and the years, which leave nothing. -/
theorem Timetable.exists_columns_of_read? {text : List Char} {table : Timetable}
    (read : Timetable.read? text = some table) :
    ∃ rest, readColumns? [.second, .minute, .hour, .day, .month, .weekday] text =
        some ([table.seconds, table.minutes, table.hours, table.days, table.months,
          table.weekdays], rest) ∧
      readYears rest = (table.years, []) := by
  unfold Timetable.read? at read
  obtain ⟨⟨seconds, rest⟩, readSeconds, read⟩ := Option.bind_eq_some_iff.1 read
  obtain ⟨⟨minutes, rest⟩, readMinutes, read⟩ := Option.bind_eq_some_iff.1 read
  obtain ⟨⟨hours, rest⟩, readHours, read⟩ := Option.bind_eq_some_iff.1 read
  obtain ⟨⟨days, rest⟩, readDays, read⟩ := Option.bind_eq_some_iff.1 read
  obtain ⟨⟨months, rest⟩, readMonths, read⟩ := Option.bind_eq_some_iff.1 read
  obtain ⟨⟨weekdays, rest⟩, readWeekdays, read⟩ := Option.bind_eq_some_iff.1 read
  dsimp only at read
  rw [Option.ite_none_right_eq_some] at read
  obtain ⟨whole, made⟩ := read
  obtain rfl := Option.some.inj made
  refine ⟨rest, ?_, Prod.ext rfl (List.isEmpty_iff.1 whole)⟩
  simp [readColumns?, readSeconds, readMinutes, readHours, readDays, readMonths, readWeekdays]

end NodeFleet.Cron
