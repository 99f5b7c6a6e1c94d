/-!
# Cutting text into parts

Text is cut at white space, at a separator, or at its first separator.  The
white space is the property of that name in the Unicode character database.
-/

namespace NodeFleet.Text

/-- The characters with the Unicode property `White_Space`. -/
def isBlank (character : Char) : Bool :=
  let code := character.toNat
  (9 ≤ code && code ≤ 13) || code == 0x20 || code == 0x85 || code == 0xA0 || code == 0x1680
    || (0x2000 ≤ code && code ≤ 0x200A) || code == 0x2028 || code == 0x2029 || code == 0x202F
    || code == 0x205F || code == 0x3000

/-- The text without the white space at its ends. -/
def trim (text : List Char) : List Char :=
  ((text.dropWhile isBlank).reverse.dropWhile isBlank).reverse

/-- The words of a text that follow an unfinished first word. -/
def wordsAfter (word : List Char) : List Char → List (List Char)
  | [] => if word.isEmpty then [] else [word]
  | character :: rest =>
      if isBlank character then
        if word.isEmpty then wordsAfter [] rest else word :: wordsAfter [] rest
      else wordsAfter (word ++ [character]) rest

/-- The maximal runs of characters that are not white space. -/
def words (text : List Char) : List (List Char) := wordsAfter [] text

/-- The parts between the occurrences of a separator; there is always one more
part than there are separators. -/
def splitAt (separator : Char) : List Char → List (List Char)
  | [] => [[]]
  | character :: rest =>
      if character = separator then [] :: splitAt separator rest
      else
        match splitAt separator rest with
        | [] => [[character]]
        | part :: parts => (character :: part) :: parts

/-- The parts before and after the first occurrence of a separator. -/
def splitFirst? (separator : Char) : List Char → Option (List Char × List Char)
  | [] => none
  | character :: rest =>
      if character = separator then some ([], rest)
      else (splitFirst? separator rest).map fun parts => (character :: parts.1, parts.2)

def stripLast? (last : Char) (text : List Char) : Option (List Char) :=
  if text.getLast? = some last then some text.dropLast else none

def joinWith (separator : List Char) : List (List Char) → List Char
  | [] => []
  | [part] => part
  | part :: next :: parts => part ++ separator ++ joinWith separator (next :: parts)

theorem splitAt_ne_nil (separator : Char) (text : List Char) : splitAt separator text ≠ [] := by
  cases text with
  | nil => simp [splitAt]
  | cons head tail =>
      unfold splitAt
      split
      · simp
      · split <;> simp

/-- Splitting and joining at the same separator gives the text back. -/
theorem joinWith_splitAt (separator : Char) (text : List Char) :
    joinWith [separator] (splitAt separator text) = text := by
  induction text with
  | nil => rfl
  | cons head tail inductionHypothesis =>
      unfold splitAt
      cases parts : splitAt separator tail with
      | nil => exact absurd parts (splitAt_ne_nil separator tail)
      | cons part others =>
          rw [parts] at inductionHypothesis
          split
          · simp_all [joinWith]
          · cases others <;> simp_all [joinWith]

end NodeFleet.Text
