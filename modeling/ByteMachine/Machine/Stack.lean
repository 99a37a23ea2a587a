import ByteMachine.Machine.Basic

/-!
# The stack

It lives in memory and grows downwards. Nothing keeps it from growing into the program.
-/

namespace ByteMachine.Machine

variable {M W : Type} [Memory M]

def setStackPointer (value : UInt8) : Action M W Unit :=
  updateProcessor (·.setRegister Registers.stackPointer value)

/-- Lower the stack pointer, then store where it points. It stays lowered if the store is
refused. -/
def push (value : UInt8) : Action M W Unit := do
  let top := (← get).processor.stackPointer - 1
  setStackPointer top
  write top.toNat value

/-- Load what the stack pointer points at, then raise it. -/
def pop : Action M W UInt8 := do
  let top := (← get).processor.stackPointer
  let value ← read top.toNat
  setStackPointer (top + 1)
  return value

theorem push_apply (value : UInt8) (m : Machine M W) :
    push value m =
      (do
        setStackPointer (m.processor.stackPointer - 1)
        write (m.processor.stackPointer - 1).toNat value : Action M W Unit) m := rfl

theorem pop_apply (m : Machine M W) :
    pop m =
      (do
        let value ← read m.processor.stackPointer.toNat
        setStackPointer (m.processor.stackPointer + 1)
        return value : Action M W UInt8) m := rfl

end ByteMachine.Machine
