import ByteMachine.Memory.Basic
import ByteMachine.Text.Numeral

/-!
# Announced memories

A memory that tells the log about every access: about a read once the byte is there, about a write
before it is made.
-/

namespace ByteMachine

structure Announced (M : Type) where
  memory : M
  /-- The part of the program in whose name the memory speaks. -/
  origin : Log.Origin

namespace Announced

variable {M : Type}

def readMessage (origin : Log.Origin) (address : Nat) (value : UInt8) : Log.Entry :=
  .message .trace origin ("Read: " ++ Text.hex 2 address ++ " --> " ++ Text.hexByte value)

def writeMessage (origin : Log.Origin) (address : Nat) (value : UInt8) : Log.Entry :=
  .message .trace origin ("Write: " ++ Text.hex 2 address ++ " <-- " ++ Text.hexByte value)

instance [Memory M] : Memory (Announced M) where
  read bus address :=
    let access := (Memory.read bus.memory address).within (⟨·, bus.origin⟩)
    match access.result with
    | .ok value =>
      { access with messages := access.messages ++ [readMessage bus.origin address value] }
    | .error _ => access
  write bus address value :=
    let access := (Memory.write bus.memory address value).within (⟨·, bus.origin⟩)
    { access with messages := writeMessage bus.origin address value :: access.messages }

end Announced

end ByteMachine
