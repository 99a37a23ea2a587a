import ByteMachine.Fault

/-!
# Registers

Eight byte registers. The last one, R7, is the stack pointer.
-/

namespace ByteMachine

abbrev registerCount : Nat := 8

abbrev Registers := Vector UInt8 registerCount

abbrev RegisterIndex := Fin registerCount

namespace Registers

/-- Nothing keeps a program from using R7 for something else, but the stack goes where it points. -/
def stackPointer : RegisterIndex := 7

/-- Where the stack starts. It grows down from here, towards the program. -/
def initialStackPointer : UInt8 := 0xF4

def powerOn : Registers :=
  (Vector.replicate registerCount 0).set stackPointer initialStackPointer stackPointer.isLt

/-- An operand byte as a register index. -/
def index (i : UInt8) : Except Fault RegisterIndex :=
  if h : i.toNat < registerCount then .ok ⟨i.toNat, h⟩ else .error (.register i)

def read (registers : Registers) (i : UInt8) : Except Fault UInt8 :=
  (index i).map registers.get

theorem index_eq_ok_iff {i : UInt8} {r : RegisterIndex} : index i = .ok r ↔ i.toNat = r := by
  unfold index
  split
  · simp [Fin.ext_iff]
  · simp only [reduceCtorEq, false_iff]
    have := r.isLt
    omega

theorem index_eq_error_iff {i : UInt8} {f : Fault} :
    index i = .error f ↔ registerCount ≤ i.toNat ∧ f = .register i := by
  unfold index
  split
  · simp only [reduceCtorEq, false_iff]
    omega
  · rename_i outside
    simp only [Except.error.injEq]
    exact ⟨fun h => ⟨by omega, h.symm⟩, fun h => h.2.symm⟩

end Registers

end ByteMachine
