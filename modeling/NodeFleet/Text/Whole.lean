/-!
# Whole numbers in text

A whole number is an optional sign and ASCII digits.  Reading goes from left to
right against given bounds, and the first thing found wrong is what it reports.
-/

namespace NodeFleet.Text

/-- Why a text is not a whole number within the bounds asked for. -/
inductive WholeFault
  | empty
  | invalidDigit
  | tooLarge
  | tooSmall
  deriving DecidableEq, Repr

def WholeFault.message : WholeFault → String
  | .empty => "cannot parse integer from empty string"
  | .invalidDigit => "invalid digit found in string"
  | .tooLarge => "number too large to fit in target type"
  | .tooSmall => "number too small to fit in target type"

def digit? (character : Char) : Option Nat :=
  if '0' ≤ character ∧ character ≤ '9' then some (character.toNat - '0'.toNat) else none

/-- Reads on upwards from `value`, staying at or below `high`. -/
def readUp (high value : Int) : List Char → Except WholeFault Int
  | [] => .ok value
  | character :: rest =>
      match digit? character with
      | none => .error .invalidDigit
      | some digit =>
          let next := value * 10 + digit
          if high < next then .error .tooLarge else readUp high next rest

/-- Reads on downwards from `value`, staying at or above `low`. -/
def readDown (low value : Int) : List Char → Except WholeFault Int
  | [] => .ok value
  | character :: rest =>
      match digit? character with
      | none => .error .invalidDigit
      | some digit =>
          let next := value * 10 - digit
          if next < low then .error .tooSmall else readDown low next rest

/-- The bounds of a kind of whole number; only kinds with numbers below zero
take a minus sign. -/
structure Bounds where
  low : Int
  high : Int
  deriving DecidableEq, Repr

namespace Bounds

def int32 : Bounds := ⟨-2147483648, 2147483647⟩

def int64 : Bounds := ⟨-9223372036854775808, 9223372036854775807⟩

def octet : Bounds := ⟨0, 255⟩

def word16 : Bounds := ⟨0, 65535⟩

def word32 : Bounds := ⟨0, 4294967295⟩

def word64 : Bounds := ⟨0, 18446744073709551615⟩

def admits (bounds : Bounds) (value : Int) : Bool :=
  bounds.low ≤ value && value ≤ bounds.high

end Bounds

def readWhole (bounds : Bounds) (text : List Char) : Except WholeFault Int :=
  match text with
  | [] => .error .empty
  | ['+'] => .error .invalidDigit
  | ['-'] => .error .invalidDigit
  | '+' :: digits => readUp bounds.high 0 digits
  | '-' :: digits =>
      if bounds.low < 0 then readDown bounds.low 0 digits else .error .invalidDigit
  | digits => readUp bounds.high 0 digits

/-- The decimal digits of a natural number padded with zeros to a width. -/
def padded (width value : Nat) : String :=
  let digits := (toString value).toList
  String.ofList (List.replicate (width - digits.length) '0' ++ digits)

end NodeFleet.Text
