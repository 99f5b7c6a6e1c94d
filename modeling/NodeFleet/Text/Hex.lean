/-!
# Hexadecimal digits
-/

namespace NodeFleet.Text

def hexDigit (value : Nat) : Char :=
  if value < 10 then Char.ofNat ('0'.toNat + value) else Char.ofNat ('a'.toNat + (value - 10))

/-- The lowest `count` hexadecimal digits of a number, highest first. -/
def hexDigits (count value : Nat) : List Char :=
  (List.range count).map fun position => hexDigit (value / Nat.pow 16 (count - 1 - position) % 16)

end NodeFleet.Text
