import ByteMachine.Text.Numeral

/-!
# Faults

What stops the processor, with its wording. An unknown opcode is no fault: it is skipped.
-/

namespace ByteMachine

/-- Why an output channel did not take a write or a flush. -/
inductive WriteError where
  /-- The channel has reached its capacity. -/
  | full
  /-- The channel took no more bytes and gave no reason. -/
  | incomplete
  /-- The device behind the channel has no room. -/
  | deviceFull
  /-- What was written could not be passed on. -/
  | flush
  deriving DecidableEq, Repr

def WriteError.message : WriteError → String
  | full => "sink full"
  | incomplete => "failed to write whole buffer"
  | deviceFull => "No space left on device (os error 28)"
  | flush => "flush failed"

inductive Fault where
  /-- The memory has no readable (or writable) cell at the address. -/
  | addressing (address : Nat)
  /-- An operand names a register past the last one. -/
  | register (index : UInt8)
  | divisionByZero
  /-- The program's output, or the record of its execution, could not be written. -/
  | output (cause : WriteError)
  deriving DecidableEq, Repr, Inhabited

namespace Fault

def message : Fault → String
  | addressing address => "address 0x" ++ Text.hex 4 address ++ " is outside of memory"
  | register index => "register R" ++ Text.decimal index.toNat ++ " does not exist"
  | divisionByZero => "division by zero"
  | output _ => "could not write program output"

/-- The cause behind a fault, in words. -/
def source? : Fault → Option String
  | output cause => some cause.message
  | _ => none

/-- The fault and what is behind it, outermost first. -/
def chain (f : Fault) : List String := f.message :: f.source?.toList

end Fault

end ByteMachine
