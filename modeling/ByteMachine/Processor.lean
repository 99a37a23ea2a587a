import ByteMachine.Alu

/-!
# The processor

Registers, program counter, flags and the state of its life cycle, and the text that shows them.
-/

namespace ByteMachine

inductive RunState where
  /-- Powered on or reset, nothing executed yet. -/
  | ready
  | running
  /-- Has executed a halt instruction, which the program counter still points at. -/
  | halted
  /-- The last step faulted; the program counter points at its instruction. -/
  | faulted
  deriving DecidableEq, Repr

/-- Addresses have sixteen bits. -/
def addressSpace : Nat := 65536

structure Processor where
  registers : Registers
  /-- The program counter, which has as many bits as an address. -/
  counter : UInt16
  flags : UInt8
  state : RunState
  /-- How many instructions have been executed, skipped bytes included. -/
  executed : Nat
  deriving DecidableEq

namespace Processor

def powerOn : Processor :=
  { registers := Registers.powerOn, counter := 0, flags := 0, state := .ready, executed := 0 }

/-- The address that the program counter holds. -/
abbrev pc (p : Processor) : Nat := p.counter.toNat

/-- Move the program counter on. A sum that does not fit wraps around. -/
def advance (p : Processor) (length : Nat) : Processor :=
  { p with counter := p.counter + UInt16.ofNat length }

@[simp]
theorem pc_advance (p : Processor) (length : Nat) :
    (p.advance length).pc = (p.pc + length) % addressSpace := by
  rw [pc, advance, UInt16.toNat_add, UInt16.toNat_ofNat', Nat.add_mod_mod]
  rfl

def stackPointer (p : Processor) : UInt8 := p.registers.get Registers.stackPointer

def setRegister (p : Processor) (r : RegisterIndex) (value : UInt8) : Processor :=
  { p with registers := p.registers.set r value r.isLt }

/-- What is shown for a flag: its capital letter if it is set, else the small one. -/
def flagLetter (p : Processor) (flag : UInt8) (set unset : String) : String :=
  if p.flags &&& flag = flag then set else unset

/-- The flags as three letters: less, greater, equal. -/
def flagLetters (p : Processor) : String :=
  p.flagLetter Flags.less "L" "l" ++ p.flagLetter Flags.greater "G" "g" ++
    p.flagLetter Flags.equal "E" "e"

/-- Program counter, flags and registers on one line. -/
def describe (p : Processor) : String :=
  "PC:" ++ Text.hex 2 p.pc ++ " FL:" ++ p.flagLetters ++
    " R0:" ++ Text.hexByte p.registers[0] ++ " R1:" ++ Text.hexByte p.registers[1] ++
    " R2:" ++ Text.hexByte p.registers[2] ++ " R3:" ++ Text.hexByte p.registers[3] ++
    " R4:" ++ Text.hexByte p.registers[4] ++ " R5:" ++ Text.hexByte p.registers[5] ++
    " R6:" ++ Text.hexByte p.registers[6] ++ " SP:" ++ Text.hexByte p.stackPointer

example : powerOn.describe =
    "PC:00 FL:lge R0:00 R1:00 R2:00 R3:00 R4:00 R5:00 R6:00 SP:F4" := by decide +kernel

end Processor

end ByteMachine
