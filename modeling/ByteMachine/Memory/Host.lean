import ByteMachine.Memory.Bank
import ByteMachine.Memory.Restricted

/-!
# Host memories

A bank of any size with any of its addresses closed, as a host of the processor may supply it.
-/

namespace ByteMachine

structure HostMemory where
  size : Nat
  bank : Restricted (Bank size)

namespace HostMemory

/-- The machine's own memory, nothing closed. -/
def ofRam (ram : Ram) : HostMemory := ⟨memorySize, { memory := ram }⟩

/-- A bank of `size` cells that holds as much of an image as fits. -/
def ofSize (size : Nat) (image : List UInt8) : HostMemory :=
  ⟨size, { memory := Bank.ofImagePrefix image }⟩

/-- Close addresses to reading and to writing. -/
def restrict (memory : HostMemory) (refusesRead refusesWrite : Nat → Bool) : HostMemory :=
  { memory with bank := { memory.bank with refusesRead, refusesWrite } }

def toList (memory : HostMemory) : List UInt8 := memory.bank.memory.toList

/-- Loading an image is no access, so no closed address refuses it. -/
def load (memory : HostMemory) (image : List UInt8) : Except Fault HostMemory := do
  let loaded ← memory.bank.memory.load image
  return { memory with bank := memory.bank.replace loaded }

instance : Memory HostMemory where
  read memory address := (Memory.read memory.bank address).within (⟨memory.size, ·⟩)
  write memory address value := (Memory.write memory.bank address value).within (⟨memory.size, ·⟩)

end HostMemory

end ByteMachine
