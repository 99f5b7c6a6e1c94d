import NodeFleet.Json.Basic
import NodeFleet.Text.Split
import NodeFleet.Text.Whole

/-!
# JSON pointers

A pointer is empty or a list of tokens, each after a slash.  A token names a
member of an object or counts into an array; in it `~1` stands for a slash and
`~0` for a tilde.
-/

namespace NodeFleet.Json

open Text

/-- The token that a written one stands for. -/
def unescapeToken : List Char → List Char
  | '~' :: '1' :: rest => '/' :: unescapeToken rest
  | '~' :: '0' :: rest => '~' :: unescapeToken rest
  | character :: rest => character :: unescapeToken rest
  | [] => []

def pointerTokens? : List Char → Option (List (List Char))
  | [] => some []
  | '/' :: rest => some ((splitAt '/' rest).map unescapeToken)
  | _ => none

/-- The position that a token counts to; it has no sign and no leading zero. -/
def position? (token : List Char) : Option Nat :=
  match token with
  | '+' :: _ => none
  | ['0'] => some 0
  | '0' :: _ => none
  | _ => (readWhole .word64 token).toOption.map Int.toNat

/-- The value that a token leads to. -/
def child? (json : Json) (token : List Char) : Option Json :=
  match json with
  | .object _ => json.get? (String.ofList token)
  | .array items => (position? token).bind fun position => items[position]?
  | _ => none

def pointer? (json : Json) (pointer : String) : Option Json := do
  (← pointerTokens? pointer.toList).foldlM child? json

end NodeFleet.Json
