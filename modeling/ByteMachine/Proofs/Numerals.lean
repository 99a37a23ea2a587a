import ByteMachine.Text.Numeral
import Mathlib.Data.List.Basic

/-!
# Reading numerals

A numeral is read digit by digit, in any base up to sixteen. Main statement: it has the value of the
number it was written for, whatever zeros it was padded with, so no two numbers share a numeral.
-/

namespace ByteMachine.Text

/-- What a digit is worth: the letters go on from the ten decimal digits. -/
def digitValue (c : Char) : Nat :=
  if c.isDigit then c.toNat - '0'.toNat else c.toNat - 'A'.toNat + 10

/-- The number that digits stand for, most significant first. -/
def numeralValue (base : Nat) (digits : List Char) : Nat :=
  digits.foldl (fun value c => base * value + digitValue c) 0

variable {base : Nat}

theorem digitValue_digitChar {digit : Nat} (hexadecimal : digit < 16) :
    digitValue (Nat.digitChar digit).toUpper = digit := by
  have each : ∀ digit < 16, digitValue (Nat.digitChar digit).toUpper = digit := by decide
  exact each digit hexadecimal

theorem numeralValue_concat (base : Nat) (digits : List Char) (c : Char) :
    numeralValue base (digits ++ [c]) = base * numeralValue base digits + digitValue c :=
  List.foldl_concat ..

/-- Padding is worth nothing. -/
theorem numeralValue_zeros_append (zeros : Nat) (digits : List Char) :
    numeralValue base (List.replicate zeros '0' ++ digits) = numeralValue base digits := by
  induction zeros with
  | zero => rfl
  | succ zeros inductionHypothesis =>
    have worthless : base * 0 + digitValue '0' = 0 := by simp [digitValue]
    rw [List.replicate_succ, List.cons_append, numeralValue, List.foldl_cons, worthless]
    exact inductionHypothesis

section Base

variable (positional : 1 < base)
include positional

/-- The digits of a number are its last one and, if it has more, those of what is left of it. -/
theorem map_toDigits_induction {P : List Char → Nat → Prop}
    (single : ∀ digit < base, P [(Nat.digitChar digit).toUpper] digit)
    (more : ∀ n, base ≤ n → P ((Nat.toDigits base (n / base)).map Char.toUpper) (n / base) →
      P ((Nat.toDigits base (n / base)).map Char.toUpper ++ [(Nat.digitChar (n % base)).toUpper]) n)
    (n : Nat) : P ((Nat.toDigits base n).map Char.toUpper) n := by
  induction n using Nat.strongRecOn with
  | ind n inductionHypothesis =>
    rw [Nat.toDigits_eq_if positional]
    split
    case isTrue short => exact single n short
    case isFalse long =>
      rw [List.map_append]
      exact more n (Nat.not_lt.mp long)
        (inductionHypothesis _ (Nat.div_lt_self (by omega) positional))

/-- What is true of all digits of a base is true of whatever its numerals consist of. -/
theorem forall_mem_numeral {P : Char → Prop}
    (digits : ∀ digit < base, P (Nat.digitChar digit).toUpper) (width n : Nat) :
    ∀ c ∈ numeral base width n, P c := by
  have proper : ∀ c ∈ (Nat.toDigits base n).map Char.toUpper, P c := by
    apply map_toDigits_induction positional (P := fun code _ => ∀ c ∈ code, P c)
    case single => exact fun digit below => List.forall_mem_singleton.mpr (digits digit below)
    case more =>
      intro n _ inductionHypothesis
      have last := digits (n % base) (Nat.mod_lt n (by omega))
      exact List.forall_mem_append.mpr ⟨inductionHypothesis, List.forall_mem_singleton.mpr last⟩
  rw [numeral, List.leftpad]
  refine List.forall_mem_append.mpr ⟨?_, proper⟩
  intro c padded
  rw [List.eq_of_mem_replicate padded]
  exact digits 0 (by omega)

theorem not_mem_numeral {c : Char} (other : ∀ digit < base, (Nat.digitChar digit).toUpper ≠ c)
    (width n : Nat) : c ∉ numeral base width n := by
  have each : ∀ c' ∈ numeral base width n, c' ≠ c := forall_mem_numeral positional other width n
  exact fun within => each c within rfl

/-- A numeral is read back as what it was written for. -/
theorem numeralValue_numeral (hexadecimal : base ≤ 16) (width n : Nat) :
    numeralValue base (numeral base width n) = n := by
  rw [numeral, List.leftpad, numeralValue_zeros_append]
  apply map_toDigits_induction positional (P := fun code n => numeralValue base code = n)
  case single =>
    intro digit below
    rw [← List.nil_append [_], numeralValue_concat, digitValue_digitChar (by omega)]
    simp [numeralValue]
  case more =>
    intro n _ inductionHypothesis
    have below := Nat.mod_lt n (Nat.zero_lt_of_lt positional)
    rw [numeralValue_concat, inductionHypothesis, digitValue_digitChar (by omega)]
    exact Nat.div_add_mod n base

theorem numeral_injective (hexadecimal : base ≤ 16) (width : Nat) :
    Function.Injective (numeral base width) :=
  Function.LeftInverse.injective (g := numeralValue base)
    (numeralValue_numeral positional hexadecimal width)

/-- Only zero itself has a numeral that begins with a zero that is no padding. -/
theorem numeral_eq_zero_of_head {n : Nat} (hexadecimal : base ≤ 16) {later : List Char}
    (leads : numeral base 1 n = '0' :: later) : n = 0 := by
  have proper : numeral base 1 n = (Nat.toDigits base n).map Char.toUpper := by
    have present : 0 < (Nat.toDigits base n).length := Nat.length_toDigits_pos
    rw [numeral, List.leftpad, List.length_map, Nat.sub_eq_zero_of_le present]
    rfl
  rw [proper] at leads
  revert later
  apply map_toDigits_induction positional
    (P := fun code n => ∀ later, code = '0' :: later → n = 0)
  case single =>
    intro digit below later leads
    have worth : digitValue (Nat.digitChar digit).toUpper = digit :=
      digitValue_digitChar (Nat.lt_of_lt_of_le below hexadecimal)
    rw [(List.cons.inj leads).1] at worth
    exact worth.symm
  case more =>
    intro n long inductionHypothesis later leads
    have fewer : 0 < n / base := Nat.div_pos long (by omega)
    cases code : (Nat.toDigits base (n / base)).map Char.toUpper with
    | nil => exact absurd (List.map_eq_nil_iff.mp code) Nat.toDigits_ne_nil
    | cons first rest =>
      rw [code, List.cons_append, List.cons.injEq] at leads
      have none := inductionHypothesis rest (by rw [code, leads.1])
      omega

end Base

/-- Digits of the base that stand for a number, padded with zeros up to the width and not
further. -/
structure IsNumeralOf (base width n : Nat) (text : List Char) : Prop where
  digits : ∀ c ∈ text, c ∈ "0123456789ABCDEF".toList ∧ digitValue c < base
  value : numeralValue base text = n
  long : width ≤ text.length
  proper : ∀ later, text = '0' :: later → text.length = width

theorem IsNumeralOf.unique {width n n' : Nat} {text : List Char}
    (first : IsNumeralOf base width n text) (second : IsNumeralOf base width n' text) : n = n' :=
  first.value.symm.trans second.value

theorem isNumeralOf_numeral (positional : 1 < base) (hexadecimal : base ≤ 16) {width : Nat}
    (positive : 0 < width) (n : Nat) : IsNumeralOf base width n (numeral base width n) := by
  constructor
  case digits =>
    apply forall_mem_numeral positional
      (P := fun c => c ∈ "0123456789ABCDEF".toList ∧ digitValue c < base)
    intro digit below
    have each : ∀ digit < 16, (Nat.digitChar digit).toUpper ∈ "0123456789ABCDEF".toList := by decide
    refine ⟨each digit (by omega), ?_⟩
    rwa [digitValue_digitChar (by omega)]
  case value => exact numeralValue_numeral positional hexadecimal width n
  case long => exact width_le_length_numeral base width n
  case proper =>
    intro later leads
    by_contra longer
    -- Without padding the numeral is that of width one, and zero has a single digit.
    have unpadded : numeral base width n = numeral base 1 n := by
      have length : (numeral base width n).length =
          max width ((Nat.toDigits base n).map Char.toUpper).length := List.length_leftpad ..
      have present : 0 < ((Nat.toDigits base n).map Char.toUpper).length := by
        rw [List.length_map]
        exact Nat.length_toDigits_pos
      simp only [numeral, List.leftpad]
      rw [Nat.sub_eq_zero_of_le (by omega), Nat.sub_eq_zero_of_le (by omega)]
    have long := width_le_length_numeral base width n
    rw [unpadded] at leads longer long
    obtain rfl := numeral_eq_zero_of_head positional hexadecimal leads
    have single : (numeral base 1 0).length = 1 := by simp [numeral, List.leftpad]
    omega

theorem byteNumeral_injective : Function.Injective fun b : UInt8 => numeral 16 2 b.toNat :=
  (numeral_injective (by decide) (by decide) 2).comp fun _ _ => UInt8.toNat_inj.mp

/-- Decimal digits that stand for a number, without a zero that could be left out. -/
structure IsDecimalOf (n : Nat) (text : List Char) : Prop where
  nonempty : text ≠ []
  digits : ∀ c ∈ text, c.isDigit
  value : numeralValue 10 text = n
  proper : ∀ later, text = '0' :: later → later = []

theorem isDecimalOf_numeral (n : Nat) : IsDecimalOf n (numeral 10 1 n) := by
  constructor
  case nonempty => exact List.ne_nil_of_length_pos (width_le_length_numeral 10 1 n)
  case digits => exact forall_mem_numeral (by decide) (by decide) 1 n
  case value => exact numeralValue_numeral (by decide) (by decide) 1 n
  case proper =>
    intro later leads
    cases numeral_eq_zero_of_head (by decide) (by decide) leads
    exact (List.cons.inj leads).2.symm

end ByteMachine.Text
