import ByteMachine.Memory.Basic

/-!
# Recorded memories

A memory that keeps a record of every access made to it, refused or not, in order.
-/

namespace ByteMachine

/-- What passed over the bus: a read with the byte it got, if it got one, or a write. -/
inductive BusAccess where
  | read (address : Nat) (value : Option UInt8)
  | write (address : Nat) (value : UInt8)
  deriving DecidableEq, Repr

namespace BusAccess

/-- A read that got its byte. -/
def isRead : BusAccess → Bool
  | read _ value => value.isSome
  | write .. => false

def isWrite : BusAccess → Bool
  | read .. => false
  | write .. => true

end BusAccess

structure Recorded (M : Type) where
  memory : M
  accesses : Array BusAccess := #[]

namespace Recorded

variable {M : Type}

instance [Memory M] : Memory (Recorded M) where
  read bus address :=
    let access := Memory.read bus.memory address
    access.within (⟨·, bus.accesses.push (.read address access.result.toOption)⟩)
  write bus address value :=
    (Memory.write bus.memory address value).within
      (⟨·, bus.accesses.push (.write address value)⟩)

/-- How many bytes have been read. -/
def reads (bus : Recorded M) : Nat := bus.accesses.countP BusAccess.isRead

/-- How many writes have been made. -/
def writes (bus : Recorded M) : Nat := bus.accesses.countP BusAccess.isWrite

end Recorded

end ByteMachine
