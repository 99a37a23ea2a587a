import ByteMachine.Machine.Trace

/-!
# Operations

What a host can ask of a machine, as data, and what it gets for an answer.
-/

namespace ByteMachine

inductive Operation where
  | step
  | run
  | reset
  | traceLine
  | describe
  | stackPointer
  | getRegister (index : UInt8)
  | setRegister (index value : UInt8)
  | push (value : UInt8)
  | pop
  | read (address : Nat)
  | write (address : Nat) (value : UInt8)
  deriving DecidableEq, Repr

inductive Answer where
  | done
  | executed (executed : Executed)
  | text (text : String)
  | byte (value : UInt8)
  | bytes (values : List UInt8)
  deriving DecidableEq, Repr

namespace Operation

variable {M W : Type} [Memory M] [Writer W]

def carryOut (comparison : Comparison) : Operation → Action M W Answer
  | step => Answer.executed <$> Machine.step comparison
  | run => do
    Machine.run comparison
    return .done
  | reset => do
    Machine.reset
    return .done
  | traceLine => Answer.text <$> Machine.traceLine
  | describe => return .text (← get).processor.describe
  | stackPointer => return .byte (← get).processor.stackPointer
  | getRegister index => Answer.byte <$> Machine.getRegister index
  | setRegister index value => do
    Machine.setRegister index value
    return .done
  | push value => do
    Machine.push value
    return .done
  | pop => Answer.byte <$> Machine.pop
  | read address => Answer.byte <$> Machine.read address
  | write address value => do
    Machine.write address value
    return .done

end Operation

namespace Machine

variable {M W : Type}

theorem after_answer {α : Type} (act : Action M W α) (answer : α → Answer) (m : Machine M W) :
    after (act >>= fun value => pure (answer value)) m = after act m := by
  rw [after_bind]
  cases acted : act m with
  | ok value m' => exact (after_eq_of_ok acted).symm
  | error fault m' => exact (after_eq_of_error acted).symm

/-- Only steps and a reset change more than the registers and the memory. -/
theorem Keeps.carryOut [Memory M] [Writer W] {γ : Type} {view : Machine M W → γ}
    (comparison : Comparison) {op : Operation} (other : op ∉ [.step, .run, .reset])
    (registers : ∀ (m : Machine M W) r value,
      view { m with processor := m.processor.setRegister r value } = view m)
    (accesses : ∀ (m : Machine M W) memory log, view { m with memory, log } = view m) :
    Keeps view (op.carryOut comparison) := by
  have answers {α : Type} {act : Action M W α} (answer : α → Answer) (kept : Keeps view act) :
      Keeps view (answer <$> act) := by
    rw [map_eq_pure_bind]
    exact kept.bind fun _ => Keeps.pure _
  have reads (address : Nat) : Keeps view (Machine.read address) := Keeps.read accesses
  have writes (address : Nat) (value : UInt8) : Keeps view (Machine.write address value) :=
    Keeps.write accesses
  have moves (m : Machine M W) (top : UInt8) := registers m Registers.stackPointer top
  cases op with
  | step => simp at other
  | run => simp at other
  | reset => simp at other
  | traceLine => exact answers _ (Keeps.traceLine reads)
  | describe => exact Keeps.get.bind fun _ => Keeps.pure _
  | stackPointer => exact Keeps.get.bind fun _ => Keeps.pure _
  | getRegister index => exact answers _ (Keeps.getRegister index)
  | setRegister index value =>
    exact (Keeps.setRegister fun m r => registers m r value).bind fun _ => Keeps.pure _
  | push value => exact (Keeps.push moves fun _ => writes _ _).bind fun _ => Keeps.pure _
  | pop => exact answers _ (Keeps.pop moves reads)
  | read address => exact answers _ (reads address)
  | write address value => exact (writes address value).bind fun _ => Keeps.pure _

end Machine

end ByteMachine
