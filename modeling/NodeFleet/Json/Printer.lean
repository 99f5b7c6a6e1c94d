import NodeFleet.Json.Basic
import NodeFleet.Text.Hex

/-!
# Compact JSON text

The printed form has no blanks.  Only the quote, the backslash and the control
characters below U+0020 are escaped, with the short form where there is one.
-/

namespace NodeFleet.Json

def escape (character : Char) : List Char :=
  if character = '"' then ['\\', '"']
  else if character = '\\' then ['\\', '\\']
  else if character.toNat < 0x20 then
    if character.toNat = 8 then ['\\', 'b']
    else if character.toNat = 9 then ['\\', 't']
    else if character.toNat = 10 then ['\\', 'n']
    else if character.toNat = 12 then ['\\', 'f']
    else if character.toNat = 13 then ['\\', 'r']
    else '\\' :: 'u' :: Text.hexDigits 4 character.toNat
  else [character]

def quote (value : String) : List Char :=
  '"' :: value.toList.flatMap escape ++ ['"']

mutual

/-- The compact text of a value, as characters. -/
def print : Json → List Char
  | .null => "null".toList
  | .bool true => "true".toList
  | .bool false => "false".toList
  | .integer value => (toString value).toList
  | .decimal written => written.toList
  | .text value => quote value
  | .array items => '[' :: printItems items ++ [']']
  | .object members => '\x7b' :: printMembers members ++ ['\x7d']

def printItems : List Json → List Char
  | [] => []
  | [item] => print item
  | item :: next :: items => print item ++ ',' :: printItems (next :: items)

def printMembers : List (String × Json) → List Char
  | [] => []
  | [(key, value)] => quote key ++ ':' :: print value
  | (key, value) :: next :: members =>
      quote key ++ ':' :: print value ++ ',' :: printMembers (next :: members)

end

def compact (json : Json) : String := String.ofList json.print

end NodeFleet.Json
