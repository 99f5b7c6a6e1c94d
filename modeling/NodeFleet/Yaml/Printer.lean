import NodeFleet.Json.Printer
import NodeFleet.Text.Split

/-!
# YAML text

JSON values as YAML documents in block style: members and items stand on lines of
their own, and what belongs to a member is indented under it.  A text is written
as it is where it cannot be taken for anything else; otherwise it is quoted, and
one of several lines becomes a literal block.
-/

namespace NodeFleet.Yaml

open Text

/-- The words that stand for a value other than a text. -/
def reserved : List String :=
  ["null", "true", "false", "yes", "no", "on", "off", "y", "n", ".inf", ".nan", "~"]

/-- Whether a character prints on one line. -/
def isVisible (character : Char) : Bool :=
  0x20 ≤ character.toNat && character.toNat ≠ 0x7F && !(0x80 ≤ character.toNat
    && character.toNat < 0xA1) && character.toNat ≠ 0xFEFF

/-- Whether a text has a mark that ends a text without quotes. -/
def hasMark : List Char → Bool
  | ':' :: ' ' :: _ => true
  | ' ' :: '#' :: _ => true
  | [':'] => true
  | [' '] => true
  | _ :: rest => hasMark rest
  | [] => false

/-- Whether a text may start without quotes. -/
def startsPlain : List Char → Bool
  | '.' :: next :: _ => next.isAlpha
  | first :: _ => first.isAlpha
  | [] => false

/-- Whether a text may stand without quotes. -/
def isPlain (text : String) : Bool :=
  let characters := text.toList
  startsPlain characters && characters.all isVisible && !hasMark characters
    && !reserved.contains (String.ofList (characters.map Char.toLower))

def singleQuoted (text : String) : String :=
  let inner := text.toList.flatMap fun character =>
    if character = '\x27' then ['\x27', '\x27'] else [character]
  String.ofList ('\x27' :: inner ++ ['\x27'])

def scalar (text : String) : String :=
  if isPlain text then text
  else if text.toList.all isVisible then singleQuoted text
  else String.ofList (Json.quote text)

def literalLines? (text : String) : Option (List String) :=
  let lines := splitAt '\n' text.toList
  let blockable := lines.all (·.all isVisible) && (lines.head?.bind (·.head?)).any (· ≠ ' ')
    && (lines.getLast?.any fun line => !line.isEmpty)
  if 1 < lines.length && blockable then some (lines.map String.ofList) else none

def indented (lines : List String) : List String := lines.map ("  " ++ ·)

/-- The lines of an item, the first of which starts with a hyphen. -/
def hyphenated : List String → List String
  | [] => []
  | first :: rest => ("- " ++ first) :: indented rest

def textAfter (lead : String) (text : String) : List String :=
  match literalLines? text with
  | some lines => (lead ++ " |-") :: indented lines
  | none => [lead ++ " " ++ scalar text]

mutual

def linesAfter (lead : String) : Json → List String
  | .text text => textAfter lead text
  | .array [] => [lead ++ " []"]
  | .object [] => [lead ++ " \x7b\x7d"]
  | .array items => lead :: itemLines items
  | .object members => lead :: indented (memberLines members)
  | json => [lead ++ " " ++ json.compact]

def itemLines : List Json → List String
  | [] => []
  | item :: items =>
      let lines :=
        match item with
        | .array (first :: rest) => hyphenated (itemLines (first :: rest))
        | .object (first :: rest) => hyphenated (memberLines (first :: rest))
        | other => linesAfter "-" other
      lines ++ itemLines items

def memberLines : List (String × Json) → List String
  | [] => []
  | (key, value) :: members => linesAfter (scalar key ++ ":") value ++ memberLines members

end

def textOf (lines : List String) : String := String.join (lines.map (· ++ "\n"))

def document (json : Json) : String :=
  match json with
  | .object (first :: rest) => textOf (memberLines (first :: rest))
  | .array (first :: rest) => textOf (itemLines (first :: rest))
  | other => textOf ((linesAfter "" other).map fun line => (line.drop 1).toString)

def stream (documents : List Json) : String := "---\n".intercalate (documents.map document)

end NodeFleet.Yaml
