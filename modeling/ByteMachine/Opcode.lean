/-!
# Opcodes

The ten instructions, the byte each is encoded as, and the length of an instruction, which every
byte has whether it encodes an instruction or not.
-/

namespace ByteMachine

/-- The operations of the arithmetic/logic unit. -/
inductive AluOperation where
  | add | sub | mul | div | cmp
  deriving DecidableEq, Repr

inductive Opcode where
  /-- Stop. -/
  | hlt
  /-- Put a register on the stack. -/
  | push
  /-- Take a register off the stack. -/
  | pop
  /-- Print a register in decimal. -/
  | prn
  /-- Load a constant into a register. -/
  | ldi
  /-- Combine two registers. -/
  | alu (operation : AluOperation)
  deriving DecidableEq, Repr

namespace Opcode

/-- The top two bits of an encoding count the operand bytes that follow it. -/
def byte : Opcode → UInt8
  | hlt => 0b00000001
  | push => 0b01000101
  | pop => 0b01000110
  | prn => 0b01000111
  | ldi => 0b10000010
  | alu .add => 0b10100000
  | alu .sub => 0b10100001
  | alu .mul => 0b10100010
  | alu .div => 0b10100011
  | alu .cmp => 0b10100111

def all : List Opcode :=
  [hlt, push, pop, prn, ldi, alu .add, alu .sub, alu .mul, alu .div, alu .cmp]

theorem mem_all (o : Opcode) : o ∈ all := by
  rcases o with _ | _ | _ | _ | _ | operation
  all_goals try decide
  cases operation <;> decide

/-- The instruction a byte encodes, if it encodes one. -/
def ofByte? (b : UInt8) : Option Opcode := all.find? (fun o => o.byte == b)

theorem byte_injective {o p : Opcode} (h : o.byte = p.byte) : o = p := by
  have distinct : ∀ o ∈ all, ∀ p ∈ all, o.byte = p.byte → o = p := by decide
  exact distinct o (mem_all o) p (mem_all p) h

theorem ofByte?_eq_some_iff {b : UInt8} {o : Opcode} : ofByte? b = some o ↔ o.byte = b := by
  constructor
  · intro found
    simpa using List.find?_some found
  · rintro rfl
    have each : ∀ o ∈ all, ofByte? o.byte = some o := by decide
    exact each o (mem_all o)

@[simp] theorem ofByte?_byte (o : Opcode) : ofByte? o.byte = some o :=
  ofByte?_eq_some_iff.mpr rfl

def mnemonic : Opcode → String
  | hlt => "HLT"
  | push => "PUSH"
  | pop => "POP"
  | prn => "PRN"
  | ldi => "LDI"
  | alu .add => "ADD"
  | alu .sub => "SUB"
  | alu .mul => "MUL"
  | alu .div => "DIV"
  | alu .cmp => "CMP"

end Opcode

/-- How many bytes the instruction that starts with `b` occupies, `b` included. -/
def instructionLength (b : UInt8) : Nat := b.toNat / 64 + 1

theorem instructionLength_pos (b : UInt8) : 0 < instructionLength b := Nat.succ_pos _

theorem instructionLength_le_four (b : UInt8) : instructionLength b ≤ 4 := by
  have := b.toNat_lt
  unfold instructionLength
  omega

def Opcode.length (o : Opcode) : Nat := instructionLength o.byte

example : Opcode.hlt.length = 1 ∧ Opcode.prn.length = 2 ∧ (Opcode.alu .cmp).length = 3 := by decide

end ByteMachine
