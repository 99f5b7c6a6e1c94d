import Mathlib.Data.List.Chain
import Mathlib.Data.List.TakeWhile
import Mathlib.Data.Option.Basic
import NodeFleet.Cron.Grammar

/-!
# Pieces and tokens

What a reader of the grammar takes from the front of a text is a piece that starts and ends with
an edge character, has no seam, and ends as late as it can.  At the end of a token the reader
does what it does at the end of the text.
-/

namespace NodeFleet.Cron

/-! ## Seams -/

/-- The characters with which a number, a name or a sign for all numbers starts and ends. -/
def isEdge (character : Char) : Bool :=
  character.isDigit || character.isAlpha || character = '*' || character = '?'

/-- Two digits and two letters are read as parts of one number or name. -/
def merges (left right : Char) : Bool :=
  left.isDigit && right.isDigit || left.isAlpha && right.isAlpha

/-- Between two characters one field can end and the next begin, with no blank between them. -/
def isSeam (left right : Char) : Bool := isEdge left && isEdge right && !merges left right

/-- No two neighbours in a text are a seam. -/
abbrev Seamless (text : List Char) : Prop :=
  text.IsChain fun left right => isSeam left right = false

section Seams

variable {character left right : Char} {text before after : List Char}

theorem isEdge_of_isDigit (digit : character.isDigit = true) : isEdge character = true := by
  simp [isEdge, digit]

theorem isEdge_of_isAlpha (letter : character.isAlpha = true) : isEdge character = true := by
  simp [isEdge, letter]

theorem isEdge_of_isGap (gap : isGap character = true) : isEdge character = false := by
  simp only [isGap, Bool.or_eq_true, decide_eq_true_eq] at gap
  rcases gap with ((rfl | rfl) | rfl) | rfl <;> rfl

theorem isGap_of_isEdge (edge : isEdge character = true) : isGap character = false :=
  Bool.eq_false_iff.2 fun gap => by simp [isEdge_of_isGap gap] at edge

theorem isAlpha_of_isDigit (digit : character.isDigit = true) : character.isAlpha = false := by
  simp only [Char.isDigit, Bool.and_eq_true, decide_eq_true_eq] at digit
  delta Char.isAlpha Char.isUpper Char.isLower
  simp only [Bool.or_eq_false_iff, Bool.and_eq_false_iff, decide_eq_false_iff_not]
  grind

theorem merges_of_isDigit (digit : left.isDigit = true) : merges left right = right.isDigit := by
  simp [merges, digit, isAlpha_of_isDigit digit]

theorem merges_of_isAlpha (letter : left.isAlpha = true) : merges left right = right.isAlpha := by
  have noDigit : left.isDigit = false :=
    Bool.eq_false_iff.2 fun digit => by simp [isAlpha_of_isDigit digit] at letter
  simp [merges, letter, noDigit]

theorem isSeam_of_left (inner : isEdge left = false) : isSeam left right = false := by
  simp [isSeam, inner]

theorem isSeam_of_right (inner : isEdge right = false) : isSeam left right = false := by
  simp [isSeam, inner]

/-- What is no edge character stands between two pieces without making a seam. -/
theorem Seamless.join (seamless : Seamless before) (inner : isEdge character = false)
    (seamlessAfter : Seamless after) : Seamless (before ++ character :: after) := by
  refine List.IsChain.append seamless (List.isChain_cons.2 ⟨fun _ _ => isSeam_of_left inner,
    seamlessAfter⟩) fun last _ first member => ?_
  obtain rfl := Option.some.inj member
  exact isSeam_of_right inner

theorem seamless_of_inner (inner : ∀ character ∈ text, isEdge character = false) :
    Seamless text := by
  induction text with
  | nil => exact List.isChain_nil
  | cons first rest inductionHypothesis =>
      rw [List.forall_mem_cons] at inner
      exact Seamless.join List.isChain_nil inner.1 (inductionHypothesis inner.2)

end Seams

/-! ## Blanks -/

section Blanks

variable {text : List Char}

theorem skipGaps_eq_self (bare : ∀ first ∈ text.head?, isGap first = false) :
    skipGaps text = text := by
  cases text with
  | nil => rfl
  | cons first rest => simp [skipGaps, bare first rfl]

theorem bare_skipGaps (text : List Char) :
    ∀ first ∈ (skipGaps text).head?, isGap first = false := by
  intro first member
  have stops := List.head?_dropWhile_not isGap text
  rw [Option.mem_def] at member
  unfold skipGaps at member
  rw [member] at stops
  simpa using stops

theorem exists_gaps_append (text : List Char) :
    ∃ gaps, (∀ gap ∈ gaps, isGap gap = true) ∧ text = gaps ++ skipGaps text :=
  ⟨text.takeWhile isGap, fun _ member => List.mem_takeWhile_imp member,
    List.takeWhile_append_dropWhile.symm⟩

end Blanks

/-! ## Pieces -/

/-- What is taken from the front of a text, up to a rest, starts and ends with an edge character
but for the blanks around it, has no seam, and ends as late as it can. -/
structure Takes (text rest : List Char) : Prop where
  opens : ∃ first ∈ (skipGaps text).head?, isEdge first = true
  closes : ∃ before last gaps, text = before ++ last :: (gaps ++ rest) ∧ isEdge last = true ∧
    (∀ gap ∈ gaps, isGap gap = true) ∧ Seamless (before ++ [last]) ∧
    (gaps = [] → ∀ next ∈ rest.head?, merges last next = false)

namespace Takes

variable {text middle rest : List Char}

theorem isSuffix (takes : Takes text rest) : rest <:+ text := by
  obtain ⟨before, last, gaps, rfl, _⟩ := takes.closes
  exact ⟨before ++ last :: gaps, by simp⟩

theorem length_lt (takes : Takes text rest) : rest.length < text.length := by
  obtain ⟨before, last, gaps, rfl, _⟩ := takes.closes
  simp only [List.length_append, List.length_cons]
  omega

/-- Blanks before a piece belong to it. -/
theorem of_skipGaps (takes : Takes (skipGaps text) rest) : Takes text rest := by
  obtain ⟨⟨first, head, edge⟩, before, last, gaps, text_eq, lastEdge, blank, seamless, munch⟩ :=
    takes
  rw [skipGaps_eq_self (bare_skipGaps text)] at head
  obtain ⟨lead, leadBlank, lead_eq⟩ := exists_gaps_append text
  refine ⟨⟨first, head, edge⟩, lead ++ before, last, gaps, ?_, lastEdge, blank, ?_, munch⟩
  · rw [lead_eq, text_eq, List.append_assoc]
  · rw [List.append_assoc]
    refine List.IsChain.append (seamless_of_inner fun _ member =>
      isEdge_of_isGap (leadBlank _ member)) seamless fun final member _ _ =>
        isSeam_of_left (isEdge_of_isGap (leadBlank final (List.mem_of_getLast? member)))

/-- Blanks after a piece belong to it. -/
theorem skipGaps_rest (takes : Takes text rest) : Takes text (skipGaps rest) := by
  obtain ⟨opens, before, last, gaps, rfl, edge, blank, seamless, munch⟩ := takes
  obtain ⟨trail, trailBlank, trail_eq⟩ := exists_gaps_append rest
  refine ⟨opens, before, last, gaps ++ trail, ?_, edge, ?_, seamless, fun none => ?_⟩
  · rw [List.append_assoc, ← trail_eq]
  · exact List.forall_mem_append.2 ⟨blank, trailBlank⟩
  · obtain ⟨noGaps, rfl⟩ := List.append_eq_nil_iff.1 none
    rw [List.nil_append] at trail_eq
    exact trail_eq ▸ munch noGaps

/-- Two pieces with a mark between them are one piece. -/
theorem marked {mark : Char} (takes : Takes text (mark :: middle)) (inner : isEdge mark = false)
    (takesNext : Takes middle rest) : Takes text rest := by
  obtain ⟨opens, before, last, gaps, rfl, _, blank, seamless, _⟩ := takes
  obtain ⟨_, beforeNext, lastNext, gapsNext, rfl, edge, blankNext, seamlessNext, munch⟩ :=
    takesNext
  refine ⟨opens, before ++ last :: (gaps ++ mark :: beforeNext), lastNext, gapsNext, by simp,
    edge, blankNext, ?_, munch⟩
  have upToGaps : Seamless (before ++ [last] ++ gaps) :=
    List.IsChain.append seamless
      (seamless_of_inner fun _ member => isEdge_of_isGap (blank _ member))
      fun _ _ gap member =>
        isSeam_of_right (isEdge_of_isGap (blank gap (List.mem_of_mem_head? member)))
  simpa using upToGaps.join inner seamlessNext

end Takes

/-! ## Tokens -/

/-- A text without blanks. -/
abbrev Bare (text : List Char) : Prop := ∀ character ∈ text, isGap character = false

theorem bare_of_all {text : List Char} (all : text.all (!isGap ·) = true) : Bare text := by
  simpa using all

/-- A token holds no blank, and its last character is an edge character. -/
structure IsToken (token : List Char) : Prop where
  bare : Bare token
  closed : ∀ last ∈ token.getLast?, isEdge last = true

theorem IsToken.of_suffix {token rest : List Char} (isToken : IsToken token)
    (suffix : rest <:+ token) : IsToken rest := by
  refine ⟨fun character member => isToken.bare character (suffix.subset member),
    fun last member => ?_⟩
  obtain ⟨before, rfl⟩ := suffix
  refine isToken.closed last ?_
  rw [Option.mem_def] at member ⊢
  rw [List.getLast?_append, member]
  rfl

theorem IsToken.skipGaps_eq {token : List Char} (isToken : IsToken token) :
    skipGaps token = token :=
  skipGaps_eq_self fun first member => isToken.bare first (List.mem_of_mem_head? member)

theorem IsToken.skipGaps_append {token : List Char} (isToken : IsToken token)
    (filled : token ≠ []) (following : List Char) :
    skipGaps (token ++ following) = token ++ following := by
  cases token with
  | nil => exact absurd rfl filled
  | cons first rest =>
      exact skipGaps_eq_self (by simpa using isToken.bare first List.mem_cons_self)

/-- What may follow a token starts with an edge character. -/
abbrev Opens (following : List Char) : Prop := ∀ first ∈ following.head?, isEdge first = true

theorem Opens.skipGaps_eq {following : List Char} (opens : Opens following) :
    skipGaps following = following :=
  skipGaps_eq_self fun first member => isGap_of_isEdge (opens first member)

/-- The rest of a token, and the rest of a text in which a blank and something else follow the
token.  At the end of the token the blank may have been skipped. -/
inductive Continues (following : List Char) : List Char → List Char → Prop
  | inside {rest : List Char} (filled : rest ≠ []) :
      Continues following rest (rest ++ ' ' :: following)
  | atGap : Continues following [] (' ' :: following)
  | past : Continues following [] following

theorem Continues.append (following rest : List Char) :
    Continues following rest (rest ++ ' ' :: following) := by
  cases rest with
  | nil => exact .atGap
  | cons first rest => exact .inside (List.cons_ne_nil first rest)

theorem Continues.length_le {following rest long : List Char}
    (continues : Continues following rest long) : rest.length ≤ long.length := by
  cases continues with
  | inside filled => exact List.length_append ▸ Nat.le_add_right _ _
  | atGap => exact Nat.zero_le _
  | past => exact Nat.zero_le _

theorem Continues.eq_nil {following rest long : List Char}
    (continues : Continues following rest long) (skipped : long = following) : rest = [] := by
  cases continues with
  | inside filled =>
      have longer := congrArg List.length skipped
      simp only [List.length_append, List.length_cons] at longer
      omega
  | atGap => rfl
  | past => rfl

theorem Continues.skipGaps_rest {following rest long : List Char}
    (continues : Continues following rest long) (isToken : IsToken rest)
    (opens : Opens following) : Continues following (skipGaps rest) (skipGaps long) := by
  rw [isToken.skipGaps_eq]
  cases continues with
  | inside filled =>
      rw [isToken.skipGaps_append filled]
      exact .inside filled
  | atGap => exact opens.skipGaps_eq.symm ▸ Continues.past
  | past => exact opens.skipGaps_eq.symm ▸ Continues.past

/-- A reader takes a piece from the front of a text, and does at the end of a token what it does
at the end of the text. -/
structure Reads {α : Type} (read : List Char → Option (α × List Char)) : Prop where
  takes : ∀ {text : List Char} {value : α} {rest : List Char},
    read text = some (value, rest) → Takes text rest
  keeps : ∀ {token following : List Char}, IsToken token → token ≠ [] → Opens following →
    Option.Rel (fun long short => long.1 = short.1 ∧ Continues following short.2 long.2)
      (read (token ++ ' ' :: following)) (read token)

/-- A reader that takes a token and the blank after it reads the token alone. -/
theorem Reads.of_followed {α : Type} {read : List Char → Option (α × List Char)} {value : α}
    {token following : List Char} (reads : Reads read) (isToken : IsToken token)
    (filled : token ≠ []) (opens : Opens following)
    (readLong : read (token ++ ' ' :: following) = some (value, following)) :
    read token = some (value, []) := by
  have same := reads.keeps isToken filled opens
  rw [readLong] at same
  generalize read token = readShort at same ⊢
  cases same with
  | @some _ short same =>
      obtain ⟨_, rest⟩ := short
      dsimp only at same
      obtain ⟨rfl, continues⟩ := same
      rw [continues.eq_nil rfl]

/-- A token that is read as a whole has no seam. -/
theorem Reads.seamless {α : Type} {read : List Char → Option (α × List Char)} {value : α}
    {token : List Char} (reads : Reads read) (whole : read token = some (value, []))
    (bare : Bare token) : Seamless token := by
  obtain ⟨before, last, gaps, text_eq, _, blank, seamless, _⟩ := (reads.takes whole).closes
  cases gaps with
  | nil => exact text_eq ▸ seamless
  | cons gap gaps =>
      have shown := bare gap (by simp [text_eq])
      simp [blank gap] at shown

end NodeFleet.Cron
