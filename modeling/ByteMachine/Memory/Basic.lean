import ByteMachine.Fault
import ByteMachine.Log

/-!
# Memory

What the processor is connected to. An access may be refused, may change the memory (a read too),
and may leave messages in the log.
-/

namespace ByteMachine

/-- The outcome of one access to a memory of type `M`. -/
structure Access (M α : Type) where
  result : Except Fault α
  memory : M
  messages : List Log.Entry := []

namespace Access

/-- The same access, seen on a memory that has `M` inside. -/
def within {M N α : Type} (wrap : M → N) (access : Access M α) : Access N α :=
  { result := access.result, memory := wrap access.memory, messages := access.messages }

end Access

/-- A store of bytes behind addresses. -/
class Memory (M : Type) where
  read : M → (address : Nat) → Access M UInt8
  write : M → (address : Nat) → (value : UInt8) → Access M Unit

end ByteMachine
