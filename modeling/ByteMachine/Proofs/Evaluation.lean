import ByteMachine.Proofs.FirstFault
import ByteMachine.Proofs.InstructionTable
import Mathlib.Logic.ExistsUnique

/-!
# What the arithmetic/logic unit comes to

The unit computes on bytes and checks its operands on the way. Main statement: it comes to what the
integers come to that its operands stand for, and to the fault of its first check that fails.
-/

namespace ByteMachine.Alu

open InstructionTable

/-- All operations use the registers that their operands name, but for a comparison of indices. -/
def UsesRegisters (comparison : Comparison) (operation : AluOperation) : Prop :=
  operation = .cmp → comparison = .contents

/-- What an operation on the operands `a` and `b` comes to. -/
inductive ComesTo (comparison : Comparison) (operation : AluOperation) (a b : UInt8)
    (registers : Registers) : Except Fault Effect → Prop where
  | first : UsesRegisters comparison operation → 8 ≤ a.toNat →
      ComesTo comparison operation a b registers (.error (.register a))
  | second : UsesRegisters comparison operation → a.toNat < 8 → 8 ≤ b.toNat →
      ComesTo comparison operation a b registers (.error (.register b))
  | divisor {t : RegisterIndex} : operation = .div → a.toNat < 8 → b.toNat = t →
      registers.get t = 0 → ComesTo comparison operation a b registers (.error .divisionByZero)
  | yields {effect : Effect} : Yields comparison operation a b registers effect →
      ComesTo comparison operation a b registers (.ok effect)

variable {comparison : Comparison} {operation : AluOperation} {a b value flags : UInt8}
  {registers : Registers} {target : RegisterIndex} {result : Except Fault Effect} {fault : Fault}

theorem mem_twoRegisters_iff :
    (Opcode.alu operation).byte ∈ twoRegisters comparison ↔
      UsesRegisters comparison operation := by
  cases operation <;> cases comparison <;> simp [UsesRegisters, Opcode.byte, twoRegisters]

theorem comesTo_of_operands_error (uses : UsesRegisters comparison operation)
    (failed : operands registers a b = .error fault) :
    ComesTo comparison operation a b registers (.error fault) := by
  rcases operands_eq_error_iff.mp failed with ⟨unnamed, rfl⟩ | ⟨named, unnamed, rfl⟩
  · exact .first uses unnamed
  · exact .second uses named unnamed

theorem comesTo_of_error (failed : evaluate comparison operation a b registers = .error fault) :
    ComesTo comparison operation a b registers (.error fault) := by
  rcases evaluate_eq_error_iff.mp failed with ⟨checked, unread⟩ | ⟨divides, r, x, found, rfl⟩
  · exact comesTo_of_operands_error (mem_twoRegisters_iff.mp checked) unread
  · obtain ⟨named, -, t, named', zero⟩ := operands_eq_ok_iff.mp found
    exact .divisor divides (named ▸ r.isLt) named' zero

theorem evaluate_of_operands_error (uses : UsesRegisters comparison operation)
    (failed : operands registers a b = .error fault) :
    evaluate comparison operation a b registers = .error fault :=
  evaluate_eq_error_iff.mpr (.inl ⟨mem_twoRegisters_iff.mpr uses, failed⟩)

/-- The unit comes to what its operation does. -/
theorem evaluate_eq_iff :
    evaluate comparison operation a b registers = result ↔
      ComesTo comparison operation a b registers result := by
  constructor
  · intro evaluated
    cases result with
    | ok effect => exact .yields (evaluate_eq_ok_iff.mp evaluated)
    | error fault => exact comesTo_of_error evaluated
  · intro comes
    cases comes with
    | first uses unnamed =>
      exact evaluate_of_operands_error uses (operands_eq_error_iff.mpr (.inl ⟨unnamed, rfl⟩))
    | second uses named unnamed =>
      exact evaluate_of_operands_error uses
        (operands_eq_error_iff.mpr (.inr ⟨named, unnamed, rfl⟩))
    | divisor divides named named' zero =>
      subst divides
      have found : operands registers a b = .ok (⟨a.toNat, named⟩, _, 0) :=
        operands_eq_ok_iff.mpr ⟨rfl, rfl, _, named', zero⟩
      exact evaluate_div_eq_error_iff.mpr (.inr ⟨_, _, found, rfl⟩)
    | yields yields => exact evaluate_eq_ok_iff.mpr yields

/-- An ordering sets one bit of the flags. -/
theorem existsUnique_bit_of_orders {x y : Nat} (orders : Orders x y flags) :
    ∃! i, flags.toNat.testBit i = true := by
  have power (k : Nat) : ∃! i, (2 ^ k).testBit i = true := by
    refine ⟨k, by simp, ?_⟩
    intro i set
    rw [Nat.testBit_two_pow, decide_eq_true_eq] at set
    exact set.symm
  cases orders with
  | equal => exact power 0
  | greater => exact power 1
  | less => exact power 2

theorem existsUnique_bit_of_evaluate
    (evaluated : evaluate comparison operation a b registers = .ok (.flags flags)) :
    ∃! i, flags.toNat.testBit i = true := by
  cases evaluate_eq_ok_iff.mp evaluated with
  | flags _ _ orders => exact existsUnique_bit_of_orders orders

/-- Dividend, divisor and quotient are those of a division with remainder. -/
theorem exists_remainder_of_evaluate
    (evaluated : evaluate comparison .div a b registers = .ok (.register target value)) :
    ∃ (divisor : RegisterIndex) (remainder : Nat), b.toNat = divisor ∧
      remainder < (registers.get divisor).toNat ∧
      value.toNat * (registers.get divisor).toNat + remainder = (registers.get target).toNat := by
  obtain ⟨_, x, y, found, nonzero, ⟨⟩⟩ := evaluate_div_eq_ok_iff.mp evaluated
  obtain ⟨-, rfl, divisor, named, rfl⟩ := operands_eq_ok_iff.mp found
  have positive : 0 < (registers.get divisor).toNat := by
    apply Nat.pos_of_ne_zero
    exact fun zero => nonzero (UInt8.toNat_inj.mp zero)
  refine ⟨divisor, _, named, Nat.mod_lt (registers.get target).toNat positive, ?_⟩
  rw [UInt8.toNat_div]
  exact Nat.div_add_mod' _ _

/-- How an evaluation compares with what the integers say. -/
structure GoesByIntegers (comparison : Comparison) (operation : AluOperation) (a b : UInt8)
    (registers : Registers) : Prop where
  comesTo : ∀ result, evaluate comparison operation a b registers = result ↔
    ComesTo comparison operation a b registers result
  oneFlag : ∀ flags, evaluate comparison operation a b registers = .ok (.flags flags) →
    ∃! i, flags.toNat.testBit i = true
  division : ∀ target quotient, operation = .div →
    evaluate comparison operation a b registers = .ok (.register target quotient) →
    ∃ (divisor : RegisterIndex) (remainder : Nat), b.toNat = divisor ∧
      remainder < (registers.get divisor).toNat ∧
      quotient.toNat * (registers.get divisor).toNat + remainder = (registers.get target).toNat

/-- Whatever the registers hold and the operands are, the unit goes by the integers, and by its
checks in their order. -/
theorem evaluation_goes_by_integers (comparison : Comparison) (operation : AluOperation)
    (a b : UInt8) (registers : Registers) :
    GoesByIntegers comparison operation a b registers := by
  constructor
  case comesTo => exact fun result => evaluate_eq_iff
  case oneFlag => exact fun flags evaluated => existsUnique_bit_of_evaluate evaluated
  case division =>
    intro target quotient divides evaluated
    subst divides
    exact exists_remainder_of_evaluate evaluated

/-- A register that is subtracted from itself, and a comparison of what are no registers. -/
example : evaluate .contents .sub 3 3 (Vector.replicate 8 9) = .ok (.register 3 0) ∧
    evaluate .contents .cmp 9 8 (Vector.replicate 8 9) = .error (.register 9) ∧
    evaluate .indices .cmp 9 8 (Vector.replicate 8 9) = .ok (.flags Flags.greater) := by
  decide +kernel

end ByteMachine.Alu
