import ByteMachine.Opcode
import ByteMachine.Registers

/-!
# The arithmetic/logic unit

It sees the registers only, never memory or the program counter. Arithmetic wraps at eight bits;
a comparison yields a flags byte with exactly one bit set.
-/

namespace ByteMachine

namespace Flags

def equal : UInt8 := 0b00000001

def greater : UInt8 := 0b00000010

def less : UInt8 := 0b00000100

/-- The flags byte that tells how `a` is ordered against `b`. -/
def ofComparison (a b : UInt8) : UInt8 :=
  if a = b then equal else if b < a then greater else less

end Flags

/-- What the comparison instruction compares. -/
inductive Comparison where
  /-- The contents of the two registers. -/
  | contents
  /-- The two operand bytes themselves, whether they name registers or not. -/
  | indices
  deriving DecidableEq, Repr

namespace Alu

/-- What an operation does to the processor. -/
inductive Effect where
  | register (index : RegisterIndex) (value : UInt8)
  | flags (value : UInt8)
  deriving DecidableEq, Repr

/-- The register that receives the result, and the contents of both operands. The first operand is
checked before the second. -/
def operands (registers : Registers) (a b : UInt8) :
    Except Fault (RegisterIndex × UInt8 × UInt8) := do
  let target ← Registers.index a
  let y ← registers.read b
  return (target, registers.get target, y)

/-- The two values a comparison orders. -/
def comparands (registers : Registers) (a b : UInt8) : Comparison → Except Fault (UInt8 × UInt8)
  | .contents => (operands registers a b).map Prod.snd
  | .indices => .ok (a, b)

/-- Apply an operation to the registers that `a` and `b` name. Quotients are rounded down. -/
def evaluate (comparison : Comparison) (operation : AluOperation) (a b : UInt8)
    (registers : Registers) : Except Fault Effect :=
  match operation with
  | .add => do
    let (target, x, y) ← operands registers a b
    return .register target (x + y)
  | .sub => do
    let (target, x, y) ← operands registers a b
    return .register target (x - y)
  | .mul => do
    let (target, x, y) ← operands registers a b
    return .register target (x * y)
  | .div => do
    let (target, x, y) ← operands registers a b
    if y = 0 then throw .divisionByZero
    return .register target (x / y)
  | .cmp => do
    let (x, y) ← comparands registers a b comparison
    return .flags (Flags.ofComparison x y)

end Alu

end ByteMachine
