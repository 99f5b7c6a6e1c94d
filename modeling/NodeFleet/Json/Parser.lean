import NodeFleet.Json.Basic

/-!
# Reading JSON text

The reader accepts the JSON of RFC 8259 with at most 127 arrays and objects
inside one another.  A text that is not JSON is refused with a cause, a line
and a column; columns count bytes from the last line feed.  Reading is total:
every step consumes a character, so the length of the text bounds the steps.
-/

namespace NodeFleet.Json

/-- What is wrong with a text that is not JSON. -/
inductive SyntaxFault
  | endInList
  | endInObject
  | endInText
  | endInValue
  | expectedColon
  | expectedListCommaOrEnd
  | expectedObjectCommaOrEnd
  | expectedWord
  | expectedValue
  | invalidEscape
  | invalidNumber
  | numberOutOfRange
  | controlCharacter
  | keyMustBeText
  | loneSurrogate
  | trailingComma
  | trailingCharacters
  | unfinishedSurrogatePair
  | tooDeep
  deriving DecidableEq, Repr

def SyntaxFault.message : SyntaxFault → String
  | .endInList => "EOF while parsing a list"
  | .endInObject => "EOF while parsing an object"
  | .endInText => "EOF while parsing a string"
  | .endInValue => "EOF while parsing a value"
  | .expectedColon => "expected `:`"
  | .expectedListCommaOrEnd => "expected `,` or `]`"
  | .expectedObjectCommaOrEnd => "expected `,` or `\x7d`"
  | .expectedWord => "expected ident"
  | .expectedValue => "expected value"
  | .invalidEscape => "invalid escape"
  | .invalidNumber => "invalid number"
  | .numberOutOfRange => "number out of range"
  | .controlCharacter => "control character (\\u0000-\\u001F) found while parsing a string"
  | .keyMustBeText => "key must be a string"
  | .loneSurrogate => "lone leading surrogate in hex escape"
  | .trailingComma => "trailing comma"
  | .trailingCharacters => "trailing characters"
  | .unfinishedSurrogatePair => "unexpected end of hex escape"
  | .tooDeep => "recursion limit exceeded"

/-- A fault and the place where it was noticed. -/
structure SyntaxError where
  fault : SyntaxFault
  line : Nat
  column : Nat
  deriving DecidableEq, Repr

def SyntaxError.message (failure : SyntaxError) : String :=
  s!"{failure.fault.message} at line {failure.line} column {failure.column}"

namespace Parser

/-- The text that is left to read, and the place where it starts. -/
structure Cursor where
  rest : List Char
  line : Nat
  column : Nat

namespace Cursor

def past (cursor : Cursor) (character : Char) (rest : List Char) : Cursor :=
  if character = '\n' then ⟨rest, cursor.line + 1, 0⟩
  else ⟨rest, cursor.line, cursor.column + character.utf8Size⟩

def skip (cursor : Cursor) : Nat → Cursor
  | 0 => cursor
  | count + 1 =>
      match cursor.rest with
      | [] => cursor
      | character :: rest => (cursor.past character rest).skip count

def failHere {α : Type} (cursor : Cursor) (fault : SyntaxFault) : Except SyntaxError α :=
  .error ⟨fault, cursor.line, cursor.column⟩

/-- Fails at the first byte of the next character. -/
def failNext {α : Type} (cursor : Cursor) (fault : SyntaxFault) : Except SyntaxError α :=
  match cursor.rest with
  | [] => cursor.failHere fault
  | '\n' :: _ => .error ⟨fault, cursor.line + 1, 0⟩
  | _ :: _ => .error ⟨fault, cursor.line, cursor.column + 1⟩

/-- Fails behind a number of bytes, or with `ended` where the text ends before
them. -/
def failAfterBytes {α : Type} (cursor : Cursor) (fault ended : SyntaxFault) :
    Nat → List Char → Except SyntaxError α
  | 0, _ => cursor.failHere fault
  | _ + 1, [] => cursor.failHere ended
  | count + 1, character :: rest =>
      let size := character.utf8Size
      if size ≤ count + 1 then
        (cursor.past character rest).failAfterBytes fault ended (count + 1 - size) rest
      else .error ⟨fault, cursor.line, cursor.column + count + 1⟩

def skipBlanksFrom (cursor : Cursor) : List Char → Cursor
  | [] => { cursor with rest := [] }
  | character :: rest =>
      if character = ' ' ∨ character = '\n' ∨ character = '\t' ∨ character = '\r' then
        (cursor.past character rest).skipBlanksFrom rest
      else { cursor with rest := character :: rest }

def skipBlanks (cursor : Cursor) : Cursor := cursor.skipBlanksFrom cursor.rest

end Cursor

/-- Reads the rest of a word such as `true`, whose value is known. -/
def readWord (value : Json) : List Char → Cursor → Except SyntaxError (Json × Cursor)
  | [], cursor => .ok (value, cursor)
  | expected :: word, cursor =>
      match cursor.rest with
      | [] => cursor.failHere .endInValue
      | character :: rest =>
          if character = expected then readWord value word (cursor.past character rest)
          else cursor.failNext .expectedWord

/-! ## Numbers -/

def digitsOf (text : List Char) : List Char × List Char :=
  (text.takeWhile Char.isDigit, text.dropWhile Char.isDigit)

def digitsValue (digits : List Char) : Nat :=
  digits.foldl (fun value digit => value * 10 + (digit.toNat - '0'.toNat)) 0

/-- Whether the decimal number `digits · 10 ^ exponent` is above the largest
64-bit floating-point number by half a unit or more. -/
def exceedsDouble (digits : Nat) (exponent : Int) : Bool :=
  if digits = 0 then false
  else if exponent > 400 then true
  else if 0 ≤ exponent then Nat.pow 2 1024 - Nat.pow 2 970 ≤ digits * Nat.pow 10 exponent.toNat
  else
    let places := (-exponent).toNat
    if (toString digits).length + 400 < places then false
    else (Nat.pow 2 1024 - Nat.pow 2 970) * Nat.pow 10 places ≤ digits

/-- The number with the given sign, digits before the point, digits after it
and exponent, written as `written`. -/
def decimalOf (written whole fraction : List Char) (exponent : Int) (after : Cursor) :
    Except SyntaxError (Json × Cursor) :=
  if exceedsDouble (digitsValue (whole ++ fraction)) (exponent - fraction.length) then
    after.failHere .numberOutOfRange
  else .ok (.decimal (String.ofList written), after)

def exponentLimit : Nat := 2147483647

/-- The number of digits after which an exponent that starts with `value` is
above the limit, if it ever is. -/
def digitsPastLimit? (value : Nat) : List Char → Option Nat
  | [] => none
  | digit :: digits =>
      let next := value * 10 + (digit.toNat - '0'.toNat)
      if exponentLimit < next then some 1 else (digitsPastLimit? next digits).map (· + 1)

/-- Reads the exponent of a number, at its letter. -/
def readExponent (written whole fraction : List Char) (letter : Char) (cursor : Cursor) :
    Except SyntaxError (Json × Cursor) :=
  let afterLetter := cursor.skip 1
  let (sign, afterSign) :=
    match afterLetter.rest with
    | '+' :: _ => (['+'], afterLetter.skip 1)
    | '-' :: _ => (['-'], afterLetter.skip 1)
    | _ => ([], afterLetter)
  match afterSign.rest with
  | [] => afterSign.failHere .endInValue
  | character :: _ =>
      if character.isDigit then
        let digits := (digitsOf afterSign.rest).1
        let written := written ++ letter :: sign ++ digits
        let size : Int := digitsValue digits
        let after := afterSign.skip digits.length
        if sign = ['-'] then decimalOf written whole fraction (-size) after
        else
          match digitsPastLimit? 0 digits with
          | some count =>
              if digitsValue (whole ++ fraction) = 0 then decimalOf written whole fraction 0 after
              else (afterSign.skip count).failHere .numberOutOfRange
          | none => decimalOf written whole fraction size after
      else afterSign.failNext .invalidNumber

/-- Reads the fraction of a number, at its point. -/
def readFraction (written whole : List Char) (cursor : Cursor) :
    Except SyntaxError (Json × Cursor) :=
  let afterPoint := cursor.skip 1
  let digits := (digitsOf afterPoint.rest).1
  if digits.isEmpty then
    match afterPoint.rest with
    | [] => afterPoint.failNext .endInValue
    | _ :: _ => afterPoint.failNext .invalidNumber
  else
    let afterDigits := afterPoint.skip digits.length
    let written := written ++ '.' :: digits
    match afterDigits.rest with
    | 'e' :: _ => readExponent written whole digits 'e' afterDigits
    | 'E' :: _ => readExponent written whole digits 'E' afterDigits
    | _ => decimalOf written whole digits 0 afterDigits

/-- Reads a number whose sign has been read. -/
def readNumber (negative : Bool) (cursor : Cursor) : Except SyntaxError (Json × Cursor) :=
  match cursor.rest with
  | [] => cursor.failHere .endInValue
  | first :: rest =>
      if ¬ first.isDigit then cursor.failNext .invalidNumber
      else if first = '0' ∧ rest.head?.any Char.isDigit then
        (cursor.skip 1).failNext .invalidNumber
      else
        let digits := (digitsOf cursor.rest).1
        let after := cursor.skip digits.length
        let written := if negative then '-' :: digits else digits
        match after.rest with
        | '.' :: _ => readFraction written digits after
        | 'e' :: _ => readExponent written digits [] 'e' after
        | 'E' :: _ => readExponent written digits [] 'E' after
        | _ =>
            let size : Int := digitsValue digits
            if negative then
              if 0 < size ∧ size ≤ 9223372036854775808 then .ok (.integer (-size), after)
              else decimalOf (written ++ ['.', '0']) digits [] 0 after
            else if size ≤ 18446744073709551615 then .ok (.integer size, after)
            else decimalOf (written ++ ['.', '0']) digits [] 0 after

/-! ## Texts -/

def hexValue? (character : Char) : Option Nat :=
  if '0' ≤ character ∧ character ≤ '9' then some (character.toNat - '0'.toNat)
  else if 'a' ≤ character ∧ character ≤ 'f' then some (character.toNat - 'a'.toNat + 10)
  else if 'A' ≤ character ∧ character ≤ 'F' then some (character.toNat - 'A'.toNat + 10)
  else none

/-- Reads the four digits of an escaped code unit; with fewer than four bytes the
text has ended. -/
def readUnit (cursor : Cursor) : Except SyntaxError (Nat × Cursor) :=
  match cursor.rest.take 4 |>.map hexValue? with
  | [some a, some b, some c, some d] =>
      .ok (((a * 16 + b) * 16 + c) * 16 + d, cursor.skip 4)
  | _ => cursor.failAfterBytes .invalidEscape .endInText 4 cursor.rest

/-- Reads an escaped character, after the letter `u`. -/
def readEscapedUnit (cursor : Cursor) : Except SyntaxError (Char × Cursor) := do
  let (unit, after) ← readUnit cursor
  if 0xDC00 ≤ unit ∧ unit ≤ 0xDFFF then after.failHere .loneSurrogate
  else if unit < 0xD800 ∨ 0xDBFF < unit then .ok (Char.ofNat unit, after)
  else
    match after.rest with
    | [] => after.failHere .endInText
    | '\\' :: [] => (after.skip 1).failHere .endInText
    | '\\' :: 'u' :: _ =>
        let (low, last) ← readUnit (after.skip 2)
        if low < 0xDC00 ∨ 0xDFFF < low then last.failHere .loneSurrogate
        else .ok (Char.ofNat (0x10000 + (unit - 0xD800) * 0x400 + (low - 0xDC00)), last)
    | '\\' :: _ => (after.skip 1).failNext .unfinishedSurrogatePair
    | _ => after.failNext .unfinishedSurrogatePair

/-- Reads an escape, after its backslash. -/
def readEscape (cursor : Cursor) : Except SyntaxError (Char × Cursor) :=
  match cursor.rest with
  | [] => cursor.failHere .endInText
  | letter :: _ =>
      let after := cursor.skip 1
      match letter with
      | '"' => .ok ('"', after)
      | '\\' => .ok ('\\', after)
      | '/' => .ok ('/', after)
      | 'b' => .ok (Char.ofNat 8, after)
      | 'f' => .ok (Char.ofNat 12, after)
      | 'n' => .ok ('\n', after)
      | 'r' => .ok ('\r', after)
      | 't' => .ok ('\t', after)
      | 'u' => readEscapedUnit after
      | _ => cursor.failNext .invalidEscape

/-- Reads a text up to its closing quote; `taken` holds the characters read so
far, last first. -/
def readText : Nat → List Char → Cursor → Except SyntaxError (String × Cursor)
  | 0, _, cursor => cursor.failHere .endInText
  | steps + 1, taken, cursor =>
      match cursor.rest with
      | [] => cursor.failHere .endInText
      | '"' :: _ => .ok (String.ofList taken.reverse, cursor.skip 1)
      | '\\' :: _ => do
          let (character, after) ← readEscape (cursor.skip 1)
          readText steps (character :: taken) after
      | character :: _ =>
          let after := cursor.skip 1
          if character.toNat < 0x20 then after.failHere .controlCharacter
          else readText steps (character :: taken) after

/-! ## Values -/

mutual

def readValue : Nat → Nat → Cursor → Except SyntaxError (Json × Cursor)
  | 0, _, cursor => cursor.failHere .endInValue
  | steps + 1, depth, start =>
      let cursor := start.skipBlanks
      match cursor.rest with
      | [] => cursor.failNext .endInValue
      | 'n' :: _ => readWord .null "ull".toList (cursor.skip 1)
      | 't' :: _ => readWord (.bool true) "rue".toList (cursor.skip 1)
      | 'f' :: _ => readWord (.bool false) "alse".toList (cursor.skip 1)
      | '-' :: _ => readNumber true (cursor.skip 1)
      | '"' :: rest => do
          let (value, after) ← readText (rest.length + 1) [] (cursor.skip 1)
          return (.text value, after)
      | '[' :: _ =>
          match depth with
          | 0 => cursor.failNext .tooDeep
          | depth + 1 => readItems steps depth true [] (cursor.skip 1)
      | '\x7b' :: _ =>
          match depth with
          | 0 => cursor.failNext .tooDeep
          | depth + 1 => readMembers steps depth true [] (cursor.skip 1)
      | character :: _ =>
          if character.isDigit then readNumber false cursor else cursor.failNext .expectedValue

/-- Reads the items of an array up to its end; `taken` holds those read so far,
last first. -/
def readItems : Nat → Nat → Bool → List Json → Cursor → Except SyntaxError (Json × Cursor)
  | 0, _, _, _, cursor => cursor.failHere .endInList
  | steps + 1, depth, first, taken, start =>
      let cursor := start.skipBlanks
      match cursor.rest with
      | [] => cursor.failNext .endInList
      | ']' :: _ => .ok (.array taken.reverse, cursor.skip 1)
      | character :: _ =>
          if character = ',' ∧ ¬ first then
            let next := (cursor.skip 1).skipBlanks
            match next.rest with
            | [] => next.failNext .endInValue
            | ']' :: _ => next.failNext .trailingComma
            | _ => do
                let (item, after) ← readValue steps depth next
                readItems steps depth false (item :: taken) after
          else if first then do
            let (item, after) ← readValue steps depth cursor
            readItems steps depth false (item :: taken) after
          else cursor.failNext .expectedListCommaOrEnd

/-- Reads the members of an object up to its end; of two members with one key
the later counts. -/
def readMembers :
    Nat → Nat → Bool → List (String × Json) → Cursor → Except SyntaxError (Json × Cursor)
  | 0, _, _, _, cursor => cursor.failHere .endInObject
  | steps + 1, depth, first, taken, start =>
      let cursor := start.skipBlanks
      match cursor.rest with
      | [] => cursor.failNext .endInObject
      | '\x7d' :: _ => .ok (.object taken, cursor.skip 1)
      | character :: _ =>
          if character = ',' ∧ ¬ first then
            readMember steps depth taken (cursor.skip 1).skipBlanks
          else if first then readMember steps depth taken cursor
          else cursor.failNext .expectedObjectCommaOrEnd

def readMember : Nat → Nat → List (String × Json) → Cursor → Except SyntaxError (Json × Cursor)
  | 0, _, _, cursor => cursor.failHere .endInObject
  | steps + 1, depth, taken, cursor =>
      match cursor.rest with
      | [] => cursor.failNext .endInValue
      | '\x7d' :: _ => cursor.failNext .trailingComma
      | '"' :: rest => do
          let (key, afterKey) ← readText (rest.length + 1) [] (cursor.skip 1)
          let colon := afterKey.skipBlanks
          match colon.rest with
          | [] => colon.failNext .endInObject
          | ':' :: _ => do
              let (value, after) ← readValue steps depth (colon.skip 1)
              readMembers steps depth false (KeyMap.insertEntry key value taken) after
          | _ => colon.failNext .expectedColon
      | _ => cursor.failNext .keyMustBeText

end

end Parser

open Json.Parser in
/-- Reads a text that holds one JSON value and nothing else. -/
def parse (text : String) : Except SyntaxError Json := do
  let characters := text.toList
  let (value, after) ← readValue (2 * characters.length + 2) 127 ⟨characters, 1, 0⟩
  let last := after.skipBlanks
  match last.rest with
  | [] => .ok value
  | _ :: _ => last.failNext .trailingCharacters

end NodeFleet.Json
