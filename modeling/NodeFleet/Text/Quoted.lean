import NodeFleet.Text.Hex
import NodeFleet.Text.Printable

/-!
# Quoted text

Messages quote text between double quotes.  Quotes, backslashes and characters
that do not print are escaped.
-/

namespace NodeFleet.Text

def shortestHex (value : Nat) : List Char :=
  match (hexDigits 6 value).dropWhile (· = '0') with
  | [] => ['0']
  | digits => digits

def quotedCharacter (character : Char) : List Char :=
  match character with
  | '"' => ['\\', '"']
  | '\\' => ['\\', '\\']
  | '\n' => ['\\', 'n']
  | '\r' => ['\\', 'r']
  | '\t' => ['\\', 't']
  | '\x00' => ['\\', '0']
  | _ =>
      if isPrintable character then [character]
      else '\\' :: 'u' :: '\x7b' :: shortestHex character.toNat ++ ['\x7d']

def quoted (text : String) : String :=
  String.ofList ('"' :: text.toList.flatMap quotedCharacter ++ ['"'])

end NodeFleet.Text
