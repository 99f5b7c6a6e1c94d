import NodeFleet.Json.Parser
import NodeFleet.Json.Printer
import NodeFleet.Proofs.Text.Decimal
import NodeFleet.Text.Split

/-!
# Compact text determines its value

Of values without decimals, no text is the text of another one or the start of it, so that a value
can be read off the front of a longer text in one way.
-/

namespace NodeFleet.Json

open Text

/-! ## Escaped characters -/

section Escape

variable {character other : Char} {text others rest left : List Char}

theorem rest_skip (cursor : Parser.Cursor) (count : Nat) :
    (cursor.skip count).rest = cursor.rest.drop count := by
  induction count generalizing cursor with
  | zero => rfl
  | succ count inductionHypothesis =>
      rw [Parser.Cursor.skip]
      cases characters : cursor.rest with
      | nil => simp [characters]
      | cons next tail =>
          rw [inductionHypothesis]
          unfold Parser.Cursor.past
          split <;> rfl

theorem readUnit_hexDigits {cursor : Parser.Cursor} {unit : Nat} (control : unit < 0x20)
    (rest_eq : cursor.rest = hexDigits 4 unit ++ rest) :
    Parser.readUnit cursor = .ok (unit, cursor.skip 4) := by
  unfold Parser.readUnit
  rw [rest_eq]
  have values : (hexDigits 4 unit ++ rest).take 4 = hexDigits 4 unit := rfl
  rw [values]
  have digits : ∀ unit < 0x20, (hexDigits 4 unit).map Parser.hexValue? =
      [some 0, some 0, some (unit / 16), some (unit % 16)] := by decide
  rw [digits unit control]
  have whole : ((0 * 16 + 0) * 16 + unit / 16) * 16 + unit % 16 = unit := by omega
  simp only [whole]

/-- An escape of one letter is read back where the letter stands for the character. -/
theorem exists_readEscape_letter {letter : Char} {cursor : Parser.Cursor}
    (rest_eq : cursor.rest = letter :: rest)
    (reads : Parser.readEscape cursor = .ok (character, cursor.skip 1)) :
    ∃ after, Parser.readEscape cursor = .ok (character, after) ∧ after.rest = rest :=
  ⟨cursor.skip 1, reads, by rw [rest_skip, rest_eq]; rfl⟩

theorem readEscape_unit {cursor : Parser.Cursor} (control : character.toNat < 0x20)
    (rest_eq : cursor.rest = 'u' :: hexDigits 4 character.toNat ++ rest) :
    Parser.readEscape cursor = .ok (character, (cursor.skip 1).skip 4) := by
  have digits : (cursor.skip 1).rest = hexDigits 4 character.toNat ++ rest := by
    rw [rest_skip, rest_eq]
    rfl
  have noSurrogate : ¬ (0xDC00 ≤ character.toNat ∧ character.toNat ≤ 0xDFFF) := by omega
  have small : character.toNat < 0xD800 ∨ 0xDBFF < character.toNat := by omega
  unfold Parser.readEscape
  rw [rest_eq]
  show Parser.readEscapedUnit (cursor.skip 1) = _
  unfold Parser.readEscapedUnit
  rw [readUnit_hexDigits control digits]
  show (if _ then _ else _) = _
  rw [if_neg noSurrogate, if_pos small, Char.ofNat_toNat]

/-- A character stands for itself, or for an escape that is read back as the character. -/
theorem escape_spec (character : Char) :
    (escape character = [character] ∧ character ≠ '"' ∧ character ≠ '\\') ∨
      ∃ code, escape character = '\\' :: code ∧ ∀ (cursor : Parser.Cursor) (rest : List Char),
        cursor.rest = code ++ rest →
          ∃ after, Parser.readEscape cursor = .ok (character, after) ∧ after.rest = rest := by
  -- An escape of one letter, by the letter and the character that it stands for.
  have byLetter : ∀ letter : Char,
      (∀ (cursor : Parser.Cursor) (rest : List Char), cursor.rest = letter :: rest →
        Parser.readEscape cursor = .ok (character, cursor.skip 1)) →
      ∃ code, ['\\', letter] = '\\' :: code ∧ ∀ (cursor : Parser.Cursor) (rest : List Char),
        cursor.rest = code ++ rest →
          ∃ after, Parser.readEscape cursor = .ok (character, after) ∧ after.rest = rest :=
    fun letter reads => ⟨[letter], rfl, fun cursor rest rest_eq =>
      exists_readEscape_letter rest_eq (reads cursor rest rest_eq)⟩
  have written : ∀ value, character.toNat = value → character = Char.ofNat value :=
    fun value same => by rw [← same, Char.ofNat_toNat]
  unfold escape
  split
  · rename_i quote
    refine Or.inr (byLetter '"' fun cursor rest rest_eq => ?_)
    rw [Parser.readEscape, rest_eq, quote]
    rfl
  · rename_i noQuote
    split
    · rename_i backslash
      refine Or.inr (byLetter '\\' fun cursor rest rest_eq => ?_)
      rw [Parser.readEscape, rest_eq, backslash]
      rfl
    · rename_i noBackslash
      split
      · rename_i control
        refine Or.inr ?_
        split
        · refine byLetter 'b' fun cursor rest rest_eq => ?_
          rw [Parser.readEscape, rest_eq, written 8 ‹_›]
          rfl
        split
        · refine byLetter 't' fun cursor rest rest_eq => ?_
          rw [Parser.readEscape, rest_eq, written 9 ‹_›]
          rfl
        split
        · refine byLetter 'n' fun cursor rest rest_eq => ?_
          rw [Parser.readEscape, rest_eq, written 10 ‹_›]
          rfl
        split
        · refine byLetter 'f' fun cursor rest rest_eq => ?_
          rw [Parser.readEscape, rest_eq, written 12 ‹_›]
          rfl
        split
        · refine byLetter 'r' fun cursor rest rest_eq => ?_
          rw [Parser.readEscape, rest_eq, written 13 ‹_›]
          rfl
        · refine ⟨_, rfl, fun cursor rest rest_eq => ⟨_, readEscape_unit control rest_eq, ?_⟩⟩
          rw [rest_skip, rest_skip, rest_eq]
          rfl
      · exact Or.inl ⟨rfl, noQuote, noBackslash⟩

/-- The text of a character is not the start of that of another one. -/
theorem escape_append_injective (same : escape character ++ rest = escape other ++ left) :
    character = other ∧ rest = left := by
  rcases escape_spec character with ⟨itself, _, noBackslash⟩ | ⟨code, escaped, reads⟩
  · rcases escape_spec other with ⟨otherItself, _, _⟩ | ⟨otherCode, otherEscaped, _⟩
    · rw [itself, otherItself] at same
      exact List.cons_eq_cons.1 same
    · rw [itself, otherEscaped] at same
      exact absurd (List.cons_eq_cons.1 same).1 noBackslash
  · rcases escape_spec other with ⟨otherItself, _, noBackslash⟩ |
      ⟨otherCode, otherEscaped, otherReads⟩
    · rw [escaped, otherItself] at same
      exact absurd (List.cons_eq_cons.1 same).1.symm noBackslash
    · rw [escaped, otherEscaped] at same
      have sameCode := (List.cons_eq_cons.1 same).2
      obtain ⟨after, read, rest_eq⟩ := reads ⟨code ++ rest, 0, 0⟩ rest rfl
      obtain ⟨otherAfter, otherRead, left_eq⟩ := otherReads ⟨code ++ rest, 0, 0⟩ left sameCode
      obtain ⟨rfl, rfl⟩ := Prod.mk.inj (Except.ok.inj (read.symm.trans otherRead))
      exact ⟨rfl, rest_eq.symm.trans left_eq⟩

theorem escape_append_ne_quote {character : Char} : escape character ++ rest ≠ '"' :: left := by
  intro same
  rcases escape_spec character with ⟨itself, noQuote, _⟩ | ⟨code, escaped, _⟩
  · rw [itself] at same
    exact noQuote (List.cons_eq_cons.1 same).1
  · rw [escaped] at same
    exact absurd (List.cons_eq_cons.1 same).1 (by decide)

theorem flatMap_escape_append_injective
    (same : text.flatMap escape ++ '"' :: rest = others.flatMap escape ++ '"' :: left) :
    text = others ∧ rest = left := by
  induction text generalizing others with
  | nil =>
      cases others with
      | nil => exact ⟨rfl, (List.cons_eq_cons.1 same).2⟩
      | cons other others =>
          rw [List.flatMap_cons, List.append_assoc] at same
          exact absurd same.symm escape_append_ne_quote
  | cons character text inductionHypothesis =>
      cases others with
      | nil =>
          rw [List.flatMap_cons, List.append_assoc] at same
          exact absurd same escape_append_ne_quote
      | cons other others =>
          rw [List.flatMap_cons, List.flatMap_cons, List.append_assoc, List.append_assoc] at same
          obtain ⟨rfl, sameTail⟩ := escape_append_injective same
          obtain ⟨rfl, rest_eq⟩ := inductionHypothesis sameTail
          exact ⟨rfl, rest_eq⟩

/-- A quoted text ends at its closing quote. -/
theorem quote_append_injective {value another : String}
    (same : quote value ++ rest = quote another ++ left) : value = another ∧ rest = left := by
  simp only [quote, List.cons_append, List.append_assoc, List.nil_append, List.cons.injEq,
    true_and] at same
  obtain ⟨characters, rest_eq⟩ := flatMap_escape_append_injective same
  exact ⟨String.toList_injective characters, rest_eq⟩

end Escape

/-! ## Lists between brackets -/

section Joined

variable {α : Type} {code : α → List Char} {among : α → Prop} {close : Char}
  {items others : List α} {rest left : List Char}

/-- The code of an item, where no digit follows it, is that of no other item among some. -/
def Separates (code : α → List Char) (among : α → Prop) (item : α) : Prop :=
  ∀ (other : α) (rest left : List Char), among other → EndsDigits rest → EndsDigits left →
    code item ++ rest = code other ++ left → item = other ∧ rest = left

/-- The items of a list after the first one. -/
def trail (code : α → List Char) (items : List α) : List Char :=
  items.flatMap fun item => ',' :: code item

theorem joinWith_map_cons (first : α) (items : List α) :
    joinWith [','] ((first :: items).map code) = code first ++ trail code items := by
  induction items generalizing first with
  | nil => simp [joinWith, trail]
  | cons next items inductionHypothesis =>
      have later := inductionHypothesis next
      simp only [List.map_cons] at later ⊢
      rw [joinWith, later, List.append_assoc]
      rfl

theorem endsDigits_trail (closes : close.isDigit = false) (items : List α) (rest : List Char) :
    EndsDigits (trail code items ++ close :: rest) := by
  cases items with
  | nil => exact fun next head => Option.some.inj head ▸ closes
  | cons item items => exact fun next head => Option.some.inj head ▸ rfl

theorem trail_append_injective (closes : close.isDigit = false) (comma : close ≠ ',')
    (separates : ∀ item ∈ items, Separates code among item) (allAmong : ∀ item ∈ others, among item)
    (same : trail code items ++ close :: rest = trail code others ++ close :: left) :
    items = others ∧ rest = left := by
  induction items generalizing others with
  | nil =>
      cases others with
      | nil => exact ⟨rfl, (List.cons_eq_cons.1 same).2⟩
      | cons other others => exact absurd (List.cons_eq_cons.1 same).1 comma
  | cons item items inductionHypothesis =>
      cases others with
      | nil => exact absurd (List.cons_eq_cons.1 same).1.symm comma
      | cons other others =>
          rw [List.forall_mem_cons] at separates allAmong
          simp only [trail, List.flatMap_cons, List.cons_append, List.append_assoc,
            List.cons.injEq, true_and] at same
          obtain ⟨rfl, sameTrail⟩ := separates.1 other _ _ allAmong.1
            (endsDigits_trail closes items rest) (endsDigits_trail closes others left) same
          obtain ⟨rfl, rest_eq⟩ := inductionHypothesis separates.2 allAmong.2 sameTrail
          exact ⟨rfl, rest_eq⟩

/-- Where no item starts with the bracket that closes a list, the list ends at the bracket. -/
theorem joined_append_injective (closes : close.isDigit = false) (comma : close ≠ ',')
    (starts : ∀ item, among item → ∀ rest left, code item ++ rest ≠ close :: left)
    (separates : ∀ item ∈ items, Separates code among item)
    (itemsAmong : ∀ item ∈ items, among item) (othersAmong : ∀ item ∈ others, among item)
    (same : joinWith [','] (items.map code) ++ close :: rest =
      joinWith [','] (others.map code) ++ close :: left) : items = others ∧ rest = left := by
  cases items with
  | nil =>
      cases others with
      | nil => exact ⟨rfl, (List.cons_eq_cons.1 same).2⟩
      | cons other others =>
          rw [joinWith_map_cons, List.append_assoc] at same
          exact absurd same.symm (starts other (othersAmong other List.mem_cons_self) _ _)
  | cons item items =>
      cases others with
      | nil =>
          rw [joinWith_map_cons, List.append_assoc] at same
          exact absurd same (starts item (itemsAmong item List.mem_cons_self) _ _)
      | cons other others =>
          rw [List.forall_mem_cons] at separates othersAmong
          rw [joinWith_map_cons, joinWith_map_cons, List.append_assoc, List.append_assoc] at same
          obtain ⟨rfl, sameTrail⟩ := separates.1 other _ _ othersAmong.1
            (endsDigits_trail closes items rest) (endsDigits_trail closes others left) same
          obtain ⟨rfl, rest_eq⟩ := trail_append_injective closes comma separates.2 othersAmong.2
            sameTrail
          exact ⟨rfl, rest_eq⟩

end Joined

/-! ## Values -/

/-- A value with no decimal in it. -/
inductive Plain : Json → Prop
  | null : Plain .null
  | bool (value : Bool) : Plain (.bool value)
  | integer (value : Int) : Plain (.integer value)
  | text (value : String) : Plain (.text value)
  | array {items : List Json} (each : ∀ item ∈ items, Plain item) : Plain (.array items)
  | object {members : List (String × Json)} (each : ∀ member ∈ members, Plain member.2) :
      Plain (.object members)

inductive Kind
  | null
  | bool
  | number
  | text
  | array
  | object

def kind : Json → Kind
  | .null => .null
  | .bool _ => .bool
  | .integer _ | .decimal _ => .number
  | .text _ => .text
  | .array _ => .array
  | .object _ => .object

/-- The kind of the values that start with a character. -/
def opened? (character : Char) : Option Kind :=
  if character = 'n' then some .null
  else if character = 't' ∨ character = 'f' then some .bool
  else if character = '-' ∨ character.isDigit = true then some .number
  else if character = '"' then some .text
  else if character = '[' then some .array
  else if character = '\x7b' then some .object
  else none

section Values

variable {value other : Json} {rest left : List Char}

theorem opened?_of_number {character : Char}
    (number : character = '-' ∨ character.isDigit = true) : opened? character = some .number := by
  have noLetter : character ≠ 'n' ∧ ¬ (character = 't' ∨ character = 'f') := by
    refine ⟨?_, ?_⟩
    · rintro rfl
      exact absurd number (by decide)
    · rintro (rfl | rfl)
      · exact absurd number (by decide)
      · exact absurd number (by decide)
  rw [opened?, if_neg noLetter.1, if_neg noLetter.2, if_pos number]

/-- The first character of a text shows the kind of its value. -/
theorem exists_head_print (plain : value.Plain) :
    ∃ first tail, value.print = first :: tail ∧ opened? first = some value.kind := by
  cases plain with
  | null => exact ⟨_, _, rfl, rfl⟩
  | bool value =>
      cases value with
      | true => exact ⟨_, _, rfl, rfl⟩
      | false => exact ⟨_, _, rfl, rfl⟩
  | integer value =>
      obtain ⟨first, tail, text, number⟩ := exists_head_toString value
      exact ⟨first, tail, text, opened?_of_number number⟩
  | text value => exact ⟨_, _, rfl, rfl⟩
  | array each => exact ⟨_, _, rfl, rfl⟩
  | object each => exact ⟨_, _, rfl, rfl⟩

theorem kind_eq_of_print_append (plain : value.Plain) (plainToo : other.Plain)
    (same : value.print ++ rest = other.print ++ left) : value.kind = other.kind := by
  obtain ⟨first, tail, text, opens⟩ := exists_head_print plain
  obtain ⟨firstToo, tailToo, textToo, opensToo⟩ := exists_head_print plainToo
  rw [text, textToo] at same
  rw [(List.cons_eq_cons.1 same).1, opensToo] at opens
  exact (Option.some.inj opens).symm

theorem print_append_ne_close {close : Char} (plain : value.Plain)
    (closes : (opened? close).isNone = true) : value.print ++ rest ≠ close :: left := by
  intro same
  obtain ⟨first, tail, text, opens⟩ := exists_head_print plain
  rw [text] at same
  rw [← (List.cons_eq_cons.1 same).1, opens] at closes
  cases closes

def printMember (member : String × Json) : List Char := quote member.1 ++ ':' :: print member.2

theorem printItems_eq (items : List Json) :
    printItems items = joinWith [','] (items.map print) := by
  match items with
  | [] => rfl
  | [item] => rfl
  | item :: next :: items =>
      simp only [printItems, printItems_eq (next :: items), List.map_cons, joinWith,
        List.append_assoc, List.singleton_append]

theorem printMembers_eq (members : List (String × Json)) :
    printMembers members = joinWith [','] (members.map printMember) := by
  match members with
  | [] => rfl
  | [member] => rfl
  | member :: next :: members =>
      simp only [printMembers, printMembers_eq (next :: members), List.map_cons, joinWith,
        printMember, List.cons_append, List.append_assoc, List.nil_append]

theorem printMember_separates {member : String × Json}
    (separates : Separates print Plain member.2) :
    Separates printMember (fun member => member.2.Plain) member := by
  rintro ⟨otherKey, other⟩ rest left plain ends endsToo same
  obtain ⟨key, value⟩ := member
  simp only [printMember, List.append_assoc, List.cons_append] at same
  obtain ⟨rfl, sameValue⟩ := quote_append_injective same
  obtain ⟨rfl, rest_eq⟩ :=
    separates other rest left plain ends endsToo (List.cons_eq_cons.1 sameValue).2
  exact ⟨rfl, rest_eq⟩

/-- The text of a plain value, where no digit follows it, is that of no other plain value. -/
theorem Plain.separates (plain : value.Plain) : Separates print Plain value := by
  induction plain with
  | null =>
      intro other rest left plainToo _ _ same
      have sameKind := kind_eq_of_print_append .null plainToo same
      cases plainToo with
      | null => exact ⟨rfl, List.append_cancel_left same⟩
      | _ => cases sameKind
  | bool value =>
      intro other rest left plainToo _ _ same
      have sameKind := kind_eq_of_print_append (.bool value) plainToo same
      cases plainToo with
      | bool another =>
          cases value <;> cases another
          · exact ⟨rfl, List.append_cancel_left same⟩
          · exact absurd (List.cons_eq_cons.1 same).1 (by decide)
          · exact absurd (List.cons_eq_cons.1 same).1 (by decide)
          · exact ⟨rfl, List.append_cancel_left same⟩
      | _ => cases sameKind
  | integer value =>
      intro other rest left plainToo ends endsToo same
      have sameKind := kind_eq_of_print_append (.integer value) plainToo same
      cases plainToo with
      | integer another =>
          obtain ⟨rfl, rest_eq⟩ := toString_append_injective ends endsToo same
          exact ⟨rfl, rest_eq⟩
      | _ => cases sameKind
  | text value =>
      intro other rest left plainToo _ _ same
      have sameKind := kind_eq_of_print_append (.text value) plainToo same
      cases plainToo with
      | text another =>
          obtain ⟨rfl, rest_eq⟩ := quote_append_injective same
          exact ⟨rfl, rest_eq⟩
      | _ => cases sameKind
  | array each inductionHypothesis =>
      intro other rest left plainToo _ _ same
      have sameKind := kind_eq_of_print_append (.array each) plainToo same
      cases plainToo with
      | array eachToo =>
          simp only [print, printItems_eq, List.cons_append, List.append_assoc, List.nil_append,
            List.cons.injEq, true_and] at same
          have starts : ∀ item : Json, item.Plain → ∀ rest left,
              item.print ++ rest ≠ ']' :: left :=
            fun item plain rest left => print_append_ne_close plain rfl
          obtain ⟨rfl, rest_eq⟩ := joined_append_injective rfl (by decide) starts
            inductionHypothesis each eachToo same
          exact ⟨rfl, rest_eq⟩
      | _ => cases sameKind
  | object each inductionHypothesis =>
      intro other rest left plainToo _ _ same
      have sameKind := kind_eq_of_print_append (.object each) plainToo same
      cases plainToo with
      | object eachToo =>
          simp only [print, printMembers_eq, List.cons_append, List.append_assoc, List.nil_append,
            List.cons.injEq, true_and] at same
          have starts : ∀ (member : String × Json) (rest left : List Char),
              printMember member ++ rest ≠ '\x7d' :: left :=
            fun member rest left same => absurd (List.cons_eq_cons.1 same).1 (by decide)
          obtain ⟨rfl, rest_eq⟩ := joined_append_injective rfl (by decide)
            (fun member _ => starts member)
            (fun member among => printMember_separates (inductionHypothesis member among)) each
            eachToo same
          exact ⟨rfl, rest_eq⟩
      | _ => cases sameKind

/-- The texts of two plain values, one after the other, give both values. -/
theorem print_append_print_injective {second secondToo : Json} (plain : value.Plain)
    (plainToo : other.Plain) (plainSecond : second.Plain) (plainSecondToo : secondToo.Plain)
    (ends : EndsDigits second.print) (endsToo : EndsDigits secondToo.print)
    (same : value.print ++ second.print = other.print ++ secondToo.print) :
    value = other ∧ second = secondToo := by
  obtain ⟨rfl, sameSecond⟩ := plain.separates other _ _ plainToo ends endsToo same
  have ended : EndsDigits [] := fun next none => by cases none
  obtain ⟨rfl, _⟩ := plainSecond.separates secondToo [] [] plainSecondToo ended ended
    (by rw [sameSecond])
  exact ⟨rfl, rfl⟩

end Values

end NodeFleet.Json
