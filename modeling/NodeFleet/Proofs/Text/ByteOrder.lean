import Mathlib.Algebra.Group.Nat.Defs
import NodeFleet.Proofs.Text.Decimal

/-!
# The byte order of texts

Texts are ordered by their bytes in UTF-8.  A start that they share does not matter, and numbers of
equally many digits stand in the order of their values.
-/

namespace NodeFleet.Text

/-- The bytes of a text in UTF-8. -/
def utf8 (text : String) : List UInt8 := text.toUTF8.data.toList

theorem utf8_eq (text : String) : utf8 text = text.toList.flatMap String.utf8EncodeChar := by
  have encoded : text.toUTF8 = text.toList.utf8Encode := String.utf8Encode_toList.symm
  rw [utf8, encoded, List.utf8Encode, List.toList_data_toByteArray]

theorem append_lt_append_iff {shared left right : List UInt8} :
    shared ++ left < shared ++ right ↔ left < right := by
  induction shared with
  | nil => exact Iff.rfl
  | cons first rest inductionHypothesis =>
      rw [List.cons_append, List.cons_append, List.cons_lt_cons_iff, inductionHypothesis]
      simp

section Digits

variable {digit other : Char} {left right : List Char}

/-- A digit is encoded in one byte. -/
theorem utf8EncodeChar_digit (isDigit : digit.isDigit = true) :
    String.utf8EncodeChar digit = [UInt8.ofNat digit.toNat] := by
  have small : digit.toNat ≤ 57 := (Char.isDigit_iff_toNat.1 isDigit).2
  exact if_pos (Nat.le_trans small (by decide))

theorem toNat_byte_digit (isDigit : digit.isDigit = true) :
    (UInt8.ofNat digit.toNat).toNat = digit.toNat := by
  have small : digit.toNat ≤ 57 := (Char.isDigit_iff_toNat.1 isDigit).2
  rw [UInt8.toNat_ofNat']
  omega

/-- The first digit of a number counts by how many others follow it. -/
theorem ofDigitChars_cons_eq (first : Char) (rest : List Char) :
    Nat.ofDigitChars 10 (first :: rest) 0 =
      10 ^ rest.length * (first.toNat - '0'.toNat) + Nat.ofDigitChars 10 rest 0 := by
  rw [Nat.ofDigitChars_cons, Nat.ofDigitChars_eq_ofDigitChars_zero, Nat.mul_zero, Nat.zero_add]

theorem ofDigitChars_lt (allDigits : ∀ digit ∈ left, digit.isDigit = true) :
    Nat.ofDigitChars 10 left 0 < 10 ^ left.length := by
  induction left with
  | nil => decide
  | cons first left inductionHypothesis =>
      rw [List.forall_mem_cons] at allDigits
      have below := inductionHypothesis allDigits.2
      have small : first.toNat ≤ 57 := (Char.isDigit_iff_toNat.1 allDigits.1).2
      have digit : first.toNat - '0'.toNat ≤ 9 := Nat.sub_le_of_le_add small
      have scaled := Nat.mul_le_mul_left (10 ^ left.length) digit
      rw [ofDigitChars_cons_eq, List.length_cons, Nat.pow_succ]
      omega

/-- A number with a higher first digit is greater, whatever digits follow. -/
theorem mul_add_lt_iff {scale first second rest others : Nat} (below : rest < scale)
    (belowToo : others < scale) :
    scale * first + rest < scale * second + others ↔
      first < second ∨ first = second ∧ rest < others := by
  rcases Nat.lt_trichotomy first second with less | rfl | greater
  · have scaled := Nat.mul_le_mul_left scale (Nat.succ_le_of_lt less)
    rw [Nat.mul_succ] at scaled
    omega
  · omega
  · have scaled := Nat.mul_le_mul_left scale (Nat.succ_le_of_lt greater)
    rw [Nat.mul_succ] at scaled
    omega

/-- Numbers of equally many digits stand in the order of their values. -/
theorem digits_lt_iff (allDigits : ∀ digit ∈ left, digit.isDigit = true)
    (allDigitsToo : ∀ digit ∈ right, digit.isDigit = true)
    (sameLength : left.length = right.length) :
    left.flatMap String.utf8EncodeChar < right.flatMap String.utf8EncodeChar ↔
      Nat.ofDigitChars 10 left 0 < Nat.ofDigitChars 10 right 0 := by
  induction left generalizing right with
  | nil =>
      obtain rfl := List.length_eq_zero_iff.1 sameLength.symm
      exact iff_of_false (List.lt_irrefl _) (Nat.lt_irrefl _)
  | cons first left inductionHypothesis =>
      cases right with
      | nil => cases sameLength
      | cons second right =>
          rw [List.forall_mem_cons] at allDigits allDigitsToo
          have sameRest : left.length = right.length := Nat.succ.inj sameLength
          have below := ofDigitChars_lt allDigits.2
          have belowToo := ofDigitChars_lt allDigitsToo.2
          rw [← sameRest] at belowToo
          have least : '0'.toNat ≤ first.toNat := (Char.isDigit_iff_toNat.1 allDigits.1).1
          have leastToo : '0'.toNat ≤ second.toNat := (Char.isDigit_iff_toNat.1 allDigitsToo.1).1
          rw [List.flatMap_cons, List.flatMap_cons, utf8EncodeChar_digit allDigits.1,
            utf8EncodeChar_digit allDigitsToo.1, List.singleton_append, List.singleton_append,
            List.cons_lt_cons_iff, inductionHypothesis allDigits.2 allDigitsToo.2 sameRest,
            UInt8.lt_iff_toNat_lt, ← UInt8.toNat_inj, toNat_byte_digit allDigits.1,
            toNat_byte_digit allDigitsToo.1]
          rw [ofDigitChars_cons_eq, ofDigitChars_cons_eq, ← sameRest,
            mul_add_lt_iff below belowToo]
          omega

end Digits

end NodeFleet.Text
