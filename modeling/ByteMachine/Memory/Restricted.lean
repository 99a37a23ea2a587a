import ByteMachine.Memory.Basic

/-!
# Restricted memories

A memory some of whose addresses are closed to reading or to writing. A refused access does not
reach the memory inside.
-/

namespace ByteMachine

structure Restricted (M : Type) where
  memory : M
  refusesRead : Nat → Bool := fun _ => false
  refusesWrite : Nat → Bool := fun _ => false

namespace Restricted

variable {M : Type}

/-- The same restrictions on another memory. -/
def replace (bus : Restricted M) (memory : M) : Restricted M := { bus with memory }

instance [Memory M] : Memory (Restricted M) where
  read bus address :=
    if bus.refusesRead address then { result := .error (.addressing address), memory := bus }
    else (Memory.read bus.memory address).within bus.replace
  write bus address value :=
    if bus.refusesWrite address then { result := .error (.addressing address), memory := bus }
    else (Memory.write bus.memory address value).within bus.replace

end Restricted

end ByteMachine
