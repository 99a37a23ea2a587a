import ByteMachine.Proofs.Confinement
import ByteMachine.Proofs.StackDiscipline

/-!
# Moving a byte through the stack

A push of one register and a pop of another right behind it. Main statement: unless the push stores
into the pop, the two steps move the byte from the one register to the other, wherever the stack
pointer is and also if it is one of the two.
-/

namespace ByteMachine

/-- The pop of nothing but what a push has stored finds the stack pointer where it was. -/
theorem Processor.raised_lowered (p : Processor) : p.lowered.raised = p := by
  have back : p.lowered.stackPointer + 1 = p.stackPointer := by
    rw [stackPointer_lowered]
    exact UInt8.sub_add_cancel p.stackPointer 1
  have restored : (p.registers.set Registers.stackPointer (p.stackPointer - 1)
      Registers.stackPointer.isLt).set Registers.stackPointer p.stackPointer
        Registers.stackPointer.isLt = p.registers := by
    rw [Vector.set_set]
    exact Vector.set_getElem_self Registers.stackPointer.isLt
  rw [raised, back]
  exact congrArg (fun registers => { p with registers }) restored

namespace Machine

section Steps

variable {W : Type} [Writer W] (comparison : Comparison) {m : Machine Ram W} {a : UInt8}
  {r : RegisterIndex}

/-- All operands can be fetched from the machine's own memory. -/
theorem exists_fetched?_ram {p : Processor} {ram : Ram} {op : UInt8}
    (opcode : ram.toList[p.pc]? = some op) (first : ram.toList[(p.pc + 1) % 256]? = some a) :
    ∃ b, fetched? p ram = .ok { opcode := op, a, b } := by
  have inside : (p.pc + 2) % 256 < ram.toList.length := by
    rw [Bank.length_toList]
    exact Nat.mod_lt _ (by decide)
  exact ⟨_, fetched?_ram_iff.mpr ⟨opcode, first, List.getElem?_eq_getElem inside⟩⟩

theorem step_push_ram (pushes : m.memory.toList[m.processor.pc]? = some Opcode.push.byte)
    (source : m.memory.toList[(m.processor.pc + 1) % 256]? = some a) (named : a.toNat = r) :
    ∃ m', step comparison m = .ok (.instruction .push) m' ∧
      m'.processor = ({ m.processor with state := .running }.past (.instruction .push)).lowered ∧
      m'.memory.toList = m.memory.toList.set (m.processor.stackPointer - 1).toNat
        (m.processor.registers.get r) ∧
      m'.output = m.output := by
  obtain ⟨b, fetches⟩ := exists_fetched?_ram pushes source
  have read := Registers.read_of_named named m.processor.registers
  have plans : planned comparison m = .ok (.instruction .push, .push _) :=
    planned_eq_push_iff.mpr ⟨rfl, _, fetches, rfl, read⟩
  have stored := Bank.set_of_lt m.memory (m.processor.registers.get r)
    (m.processor.stackPointer - 1).toNat_lt
  obtain ⟨m', stepped, processor, memory, output⟩ := (sameEnd_step_of_stored plans stored).eq_ok
  exact ⟨m', stepped, processor, memory ▸ Bank.toList_of_set stored, output⟩

theorem step_pop_ram {value : UInt8}
    (pops : m.memory.toList[m.processor.pc]? = some Opcode.pop.byte)
    (target : m.memory.toList[(m.processor.pc + 1) % 256]? = some a) (named : a.toNat = r)
    (top : m.memory.toList[m.processor.stackPointer.toNat]? = some value) :
    ∃ m', step comparison m = .ok (.instruction .pop) m' ∧
      m'.processor = { m.processor.raised.setRegister r value with state := .running }.past
        (.instruction .pop) ∧
      m'.memory = m.memory ∧ m'.output = m.output := by
  obtain ⟨b, fetches⟩ := exists_fetched?_ram pops target
  have index := Registers.index_eq_ok_iff.mpr named
  have held := Bank.get_eq_ok_iff.mpr top
  have intends : intent comparison .pop a b { m.processor with state := .running } m.memory =
      .ok (.update _) :=
    Except.bind_eq_ok_iff.mpr ⟨r, index, Except.bind_eq_ok_iff.mpr ⟨value, held, rfl⟩⟩
  obtain ⟨m', stepped, processor, memory, output⟩ :=
    (sameEnd_step_of_update (planned_of_intent fetches rfl intends)).eq_ok
  exact ⟨m', stepped, processor, memory, output⟩

end Steps

/-- The program counter is at a push of register `a` with a pop to register `b` right behind it,
and the push is going to store in cell `q`, which is no part of the pop. -/
structure PushThenPop {W : Type} (m : Machine Ram W) (a b : RegisterIndex) (q : Nat) : Prop where
  fits : m.processor.pc ≤ 253
  push : m.memory.toList[m.processor.pc]? = some 0b01000101
  source : m.memory.toList[m.processor.pc + 1]? = some (UInt8.ofNat a)
  pop : m.memory.toList[m.processor.pc + 2]? = some 0b01000110
  target : m.memory.toList[(m.processor.pc + 3) % 256]? = some (UInt8.ofNat b)
  store : (q : Int) = (m.processor.stackPointer.toNat - 1) % 256
  sparesPop : q ≠ m.processor.pc + 2
  sparesTarget : q ≠ (m.processor.pc + 3) % 256

/-- The byte of register `a` is also in register `b`, and in cell `q`, where it has passed. -/
structure Moved {W : Type} (a b : RegisterIndex) (q : Nat) (m m' : Machine Ram W) : Prop where
  target : m'.processor.registers.get b = m.processor.registers.get a
  others (r : RegisterIndex) : r ≠ b → m'.processor.registers.get r = m.processor.registers.get r
  stackPointer : b ≠ 7 → m'.processor.stackPointer = m.processor.stackPointer
  flags : m'.processor.flags = m.processor.flags
  pc : m'.processor.pc = m.processor.pc + 4
  cells : m'.memory.toList = m.memory.toList.set q (m.processor.registers.get a)
  output : m'.output = m.output

section PushThenPop

variable {W : Type} [Writer W] {m : Machine Ram W} {a b : RegisterIndex} {q : Nat}

/-- Push then pop moves a byte, whichever the two registers are. -/
theorem push_then_pop_moves (comparison : Comparison) (pair : PushThenPop m a b q) :
    ∃ between m', step comparison m = .ok (.instruction .push) between ∧
      step comparison between = .ok (.instruction .pop) m' ∧ Moved a b q m m' := by
  have numbered (r : RegisterIndex) : (UInt8.ofNat r).toNat = r :=
    UInt8.toNat_ofNat_of_lt' (Nat.lt_trans r.isLt (by decide))
  obtain ⟨fits, push, source, pop, target, store, sparesPop, sparesTarget⟩ := pair
  have stored := toNat_sub_one_eq_iff.mpr store
  have wrapped : (m.processor.pc + 1) % 256 = m.processor.pc + 1 := Nat.mod_eq_of_lt (by omega)
  obtain ⟨between, pushed, processor, cells, output⟩ :=
    step_push_ram comparison push (wrapped.symm ▸ source) (numbered a)
  rw [stored] at cells
  have pc : between.processor.pc = m.processor.pc + 2 := by
    have within : m.processor.pc + 2 < addressSpace := by rw [addressSpace]; omega
    exact (pc_of_step pushed (by decide)).trans (Nat.mod_eq_of_lt within)
  have opcode : between.memory.toList[between.processor.pc]? = some Opcode.pop.byte := by
    rw [cells, pc, List.getElem?_set_ne sparesPop]
    exact pop
  have operand : between.memory.toList[(between.processor.pc + 1) % 256]? =
      some (UInt8.ofNat b) := by
    rw [cells, pc, List.getElem?_set_ne sparesTarget]
    exact target
  have top : between.memory.toList[between.processor.stackPointer.toNat]? =
      some (m.processor.registers.get a) := by
    have inside : q < m.memory.toList.length := by
      rw [Bank.length_toList, ← stored]
      exact UInt8.toNat_lt _
    have pointsAt : between.processor.stackPointer.toNat = q := by
      rw [processor, Processor.stackPointer_lowered]
      exact stored
    rw [cells, pointsAt, List.getElem?_set_self inside]
  obtain ⟨m', popped, processor', memory, output'⟩ :=
    step_pop_ram comparison opcode operand (numbered b) top
  rw [processor, Processor.raised_lowered] at processor'
  refine ⟨between, m', pushed, popped, ?_⟩
  have others (r : RegisterIndex) (other : r ≠ b) :
      m'.processor.registers.get r = m.processor.registers.get r := by
    rw [processor']
    exact Vector.getElem_set_ne b.isLt r.isLt fun same => other (Fin.ext same.symm)
  constructor
  case target =>
    rw [processor']
    exact Vector.getElem_set_self b.isLt
  case others => exact others
  case stackPointer => exact fun other => others Registers.stackPointer other.symm
  case flags =>
    rw [processor']
    rfl
  case pc =>
    have within : m.processor.pc + 4 < addressSpace := by rw [addressSpace]; omega
    have moved := pc_of_step popped (by decide)
    rw [pc] at moved
    exact moved.trans (Nat.mod_eq_of_lt within)
  case cells => rw [memory, cells]
  case output => rw [output', output]

/-- The stack pointer itself is moved, and the operand of the pop is in the first cell. -/
theorem push_then_pop_moves_around_the_top :
    let m : Machine Ram Sink :=
      { processor := { Processor.powerOn with counter := 253 }
        memory := ⟨Vector.ofFn fun i => [0x45, 7, 0x46, 3].getD (i - 253 : Fin 256) 0⟩
        output := {}
        diagnostics := {} }
    PushThenPop m 7 3 0xF3 ∧ ∃ between m', step .contents m = .ok (.instruction .push) between ∧
      step .contents between = .ok (.instruction .pop) m' ∧ Moved 7 3 0xF3 m m' := by
  intro m
  have pair : PushThenPop m 7 3 0xF3 := by
    constructor
    all_goals decide +kernel
  exact ⟨pair, push_then_pop_moves .contents pair⟩

end PushThenPop

end Machine

end ByteMachine
