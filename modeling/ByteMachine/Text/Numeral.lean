/-!
# Numerals

A number in a base of at most sixteen, with upper-case digits and as many leading zeros as a least
width asks for. A number too large for the width is written out in full.
-/

namespace ByteMachine.Text

/-- The digits of `n`, most significant first, at least `width` of them. -/
def numeral (base width n : Nat) : List Char :=
  ((Nat.toDigits base n).map Char.toUpper).leftpad width '0'

/-- The decimal numeral without leading zeros. -/
def decimal (n : Nat) : String := String.ofList (numeral 10 1 n)

/-- A hexadecimal numeral of at least `width` digits. -/
def hex (width n : Nat) : String := String.ofList (numeral 16 width n)

/-- A binary numeral of at least `width` digits. -/
def binary (width n : Nat) : String := String.ofList (numeral 2 width n)

/-- Two hexadecimal digits, the way a byte is shown. -/
def hexByte (b : UInt8) : String := hex 2 b.toNat

@[simp] theorem toList_decimal (n : Nat) : (decimal n).toList = numeral 10 1 n :=
  String.toList_ofList

@[simp] theorem toList_hex (width n : Nat) : (hex width n).toList = numeral 16 width n :=
  String.toList_ofList

@[simp] theorem toList_binary (width n : Nat) : (binary width n).toList = numeral 2 width n :=
  String.toList_ofList

theorem width_le_length_numeral (base width n : Nat) : width ≤ (numeral base width n).length := by
  rw [numeral, List.length_leftpad]
  exact Nat.le_max_left ..

example : decimal 0 = "0" ∧ decimal 255 = "255" := by decide +kernel

example : hex 2 5 = "05" ∧ hex 2 256 = "100" ∧ hex 4 255 = "00FF" := by decide +kernel

example : binary 8 6 = "00000110" := by decide +kernel

end ByteMachine.Text
