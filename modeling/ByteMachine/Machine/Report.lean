import ByteMachine.Log
import ByteMachine.Opcode
import ByteMachine.Fault

/-!
# What the processor reports

The messages of the processor: at the start and at the end of a run, for every instruction, and for
every fault.
-/

namespace ByteMachine.Machine.Report

def running (pc : Nat) : Log.Entry :=
  .message .debug .processor ("Running from " ++ Text.hex 2 pc)

def halted (pc executed : Nat) : Log.Entry :=
  .message .debug .processor
    ("Halted at " ++ Text.hex 2 pc ++ " after " ++ Text.decimal executed ++ " instructions")

def faulted (pc : Nat) (fault : Fault) : Log.Entry :=
  .message .debug .processor ("Faulted at " ++ Text.hex 2 pc ++ ": " ++ fault.message)

def unknownOpcode (pc : Nat) (b : UInt8) : Log.Entry :=
  .message .warn .processor
    ("Unknown opcode " ++ Text.binary 8 b.toNat ++ " at " ++ Text.hex 2 pc ++ ", skipping " ++
      Text.decimal (instructionLength b) ++ " byte(s)")

def decoded (pc : Nat) (opcode : Opcode) (a b : UInt8) : Log.Entry :=
  .message .trace .processor
    (Text.hex 2 pc ++ ": " ++ opcode.mnemonic ++ " " ++ Text.hexByte a ++ " " ++ Text.hexByte b)

end ByteMachine.Machine.Report
