import ByteMachine.Proofs.Operands
import Mathlib.Logic.Relation

/-!
# The instruction table

What the instructions do, row by row and in terms of integers, for a machine that is looked at
through what a program can tell of it. Main statement: the steps of the machine that succeed are the
steps by the table, and so are sequences of them, also when the program overwrites itself.
-/

namespace ByteMachine

/-- What a program works on, with what it has printed. -/
structure Snapshot where
  pc : Nat
  registers : Registers
  flags : UInt8
  cells : List UInt8
  printed : List UInt8

namespace Snapshot

def stackPointer (s : Snapshot) : UInt8 := s.registers.get Registers.stackPointer

def setRegister (s : Snapshot) (r : RegisterIndex) (value : UInt8) : Snapshot :=
  { s with registers := s.registers.set r value r.isLt }

end Snapshot

namespace InstructionTable

/-- The results of the arithmetic instructions before they are reduced to a byte. -/
inductive Combines (x y : Int) : UInt8 → Int → Prop where
  | add : Combines x y 0b10100000 (x + y)
  | sub : Combines x y 0b10100001 (x - y)
  | mul : Combines x y 0b10100010 (x * y)
  | div : y ≠ 0 → Combines x y 0b10100011 (x / y)

/-- What a comparison with the operands `a` and `b` orders. -/
inductive Compares (a b : UInt8) (registers : Registers) : Comparison → UInt8 → UInt8 → Prop where
  | contents {r t : RegisterIndex} : a.toNat = r → b.toNat = t →
      Compares a b registers .contents (registers.get r) (registers.get t)
  | indices : Compares a b registers .indices a b

/-- The one bit of the flags that an ordering sets. -/
inductive Orders (x y : Nat) : UInt8 → Prop where
  | equal : x = y → Orders x y 1
  | greater : y < x → Orders x y 2
  | less : x < y → Orders x y 4

/-- The bytes that encode an instruction. -/
def encodings : List UInt8 :=
  [0b00000001, 0b01000101, 0b01000110, 0b01000111, 0b10000010, 0b10100000, 0b10100001, 0b10100010,
    0b10100011, 0b10100111]

/-- What a byte makes of `s` as an instruction with the operands `a` and `b`, the program counter
apart. -/
inductive Row (comparison : Comparison) (a b : UInt8) (s : Snapshot) : UInt8 → Snapshot → Prop where
  | hlt : Row comparison a b s 0b00000001 s
  | push {r : RegisterIndex} {top : UInt8} : a.toNat = r →
      (top.toNat : Int) = (s.stackPointer.toNat - 1) % 256 →
      Row comparison a b s 0b01000101
        { s.setRegister 7 top with cells := s.cells.set top.toNat (s.registers.get r) }
  | pop {r : RegisterIndex} {value raised : UInt8} : a.toNat = r →
      s.cells[s.stackPointer.toNat]? = some value →
      (raised.toNat : Int) = (s.stackPointer.toNat + 1) % 256 →
      Row comparison a b s 0b01000110 ((s.setRegister 7 raised).setRegister r value)
  | prn {r : RegisterIndex} : a.toNat = r →
      Row comparison a b s 0b01000111
        { s with printed := s.printed ++
          Text.utf8Encode (toString (s.registers.get r).toNat ++ "\n") }
  | ldi {r : RegisterIndex} : a.toNat = r → Row comparison a b s 0b10000010 (s.setRegister r b)
  | arithmetic {r t : RegisterIndex} {op value : UInt8} {result : Int} :
      a.toNat = r → b.toNat = t →
      Combines (s.registers.get r).toNat (s.registers.get t).toNat op result →
      (value.toNat : Int) = result % 256 →
      Row comparison a b s op (s.setRegister r value)
  | cmp {x y flags : UInt8} : Compares a b s.registers comparison x y →
      Orders x.toNat y.toNat flags → Row comparison a b s 0b10100111 { s with flags }
  | unknown {op : UInt8} : op ∉ encodings → Row comparison a b s op s

/-- A step by the table. Operand addresses wrap at the top of memory; the top two bits of an opcode
count its operands, which the program counter passes unless the instruction is a halt. -/
inductive Step (comparison : Comparison) (s : Snapshot) : Snapshot → Prop where
  | intro {op a b : UInt8} {s' : Snapshot} : s.cells[s.pc]? = some op →
      s.cells[(s.pc + 1) % 256]? = some a → s.cells[(s.pc + 2) % 256]? = some b →
      Row comparison a b s op s' →
      Step comparison s
        { s' with pc := if op = 0b00000001 then s.pc else s.pc + (op >>> 6).toNat + 1 }

theorem Row.pc_eq {comparison : Comparison} {a b op : UInt8} {s s' : Snapshot}
    (row : Row comparison a b s op s') : s'.pc = s.pc := by
  cases row <;> rfl

theorem mem_encodings_iff {op : UInt8} : op ∈ encodings ↔ ∃ opcode : Opcode, opcode.byte = op := by
  have same : encodings = Opcode.all.map Opcode.byte := rfl
  rw [same, List.mem_map]
  exact ⟨fun ⟨opcode, _, byte⟩ => ⟨opcode, byte⟩, fun ⟨opcode, byte⟩ =>
    ⟨opcode, opcode.mem_all, byte⟩⟩

theorem not_mem_encodings_iff {op : UInt8} : op ∉ encodings ↔ Opcode.ofByte? op = none := by
  rw [mem_encodings_iff, Option.eq_none_iff_forall_ne_some, not_exists]
  exact forall_congr' fun opcode => not_congr Opcode.ofByte?_eq_some_iff.symm

end InstructionTable

open InstructionTable

theorem instructionLength_eq (b : UInt8) : instructionLength b = (b >>> 6).toNat + 1 := by
  simp [instructionLength, Nat.shiftRight_eq_div_pow]

section Bytes

/-! A byte is known by its value, so it can be told by what the value is. -/

variable {value x y : UInt8}

theorem toNat_eq_add_iff : (value.toNat : Int) = (x.toNat + y.toNat) % 256 ↔ value = x + y := by
  rw [← UInt8.toNat_inj, UInt8.toNat_add]
  omega

theorem toNat_eq_sub_iff : (value.toNat : Int) = (x.toNat - y.toNat) % 256 ↔ value = x - y := by
  have := y.toNat_lt
  rw [← UInt8.toNat_inj, UInt8.toNat_sub]
  omega

theorem toNat_sub_one_eq_iff {n : Nat} : (x - 1).toNat = n ↔ (n : Int) = (x.toNat - 1) % 256 := by
  have below : ((x - 1).toNat : Int) = (x.toNat - 1) % 256 := toNat_eq_sub_iff.mpr rfl
  rw [← below, Int.natCast_inj]
  exact eq_comm

theorem toNat_eq_mul_iff : (value.toNat : Int) = (x.toNat * y.toNat) % 256 ↔ value = x * y := by
  rw [← UInt8.toNat_inj, UInt8.toNat_mul, ← Int.natCast_mul]
  omega

theorem toNat_eq_div_iff : (value.toNat : Int) = (x.toNat / y.toNat) % 256 ↔ value = x / y := by
  have small : x.toNat / y.toNat < 256 := Nat.lt_of_le_of_lt (Nat.div_le_self _ _) x.toNat_lt
  rw [← UInt8.toNat_inj, UInt8.toNat_div, ← Int.natCast_ediv]
  generalize x.toNat / y.toNat = quotient at small ⊢
  omega

theorem toNat_ne_zero_iff : (y.toNat : Int) ≠ 0 ↔ y ≠ 0 := by
  rw [Ne, Int.natCast_eq_zero, ← UInt8.toNat_zero, UInt8.toNat_inj]

end Bytes

namespace Alu

variable {registers : Registers} {a b x y : UInt8} {target : RegisterIndex}

theorem comparands_eq_ok_iff {comparison : Comparison} :
    comparands registers a b comparison = .ok (x, y) ↔ Compares a b registers comparison x y := by
  cases comparison with
  | contents =>
    simp only [comparands, Except.map_eq_ok_iff]
    constructor
    · rintro ⟨⟨target, x, y⟩, found, ⟨⟩⟩
      obtain ⟨named, rfl, t, named', rfl⟩ := operands_eq_ok_iff.mp found
      exact .contents named named'
    · rintro ⟨named, named'⟩
      exact ⟨_, operands_eq_ok_iff.mpr ⟨named, rfl, _, named', rfl⟩, rfl⟩
  | indices =>
    simp only [comparands]
    constructor
    · rintro ⟨⟩
      exact .indices
    · rintro ⟨⟩
      rfl

end Alu

theorem Flags.ofComparison_eq_iff {x y flags : UInt8} :
    Flags.ofComparison x y = flags ↔ Orders x.toNat y.toNat flags := by
  unfold Flags.ofComparison
  constructor
  · rintro rfl
    split
    · rename_i same
      exact .equal (congrArg UInt8.toNat same)
    · rename_i other
      split
      · rename_i before
        exact .greater (UInt8.lt_iff_toNat_lt.mp before)
      · rename_i notBefore
        have := mt UInt8.lt_iff_toNat_lt.mpr notBefore
        have := mt UInt8.toNat_inj.mp other
        exact .less (by omega)
  · rintro (same | before | before)
    · rw [if_pos (UInt8.toNat_inj.mp same)]
      rfl
    · have other : x ≠ y := fun same => absurd before (by simp [same])
      rw [if_neg other, if_pos (UInt8.lt_iff_toNat_lt.mpr before)]
      rfl
    · have other : x ≠ y := fun same => absurd before (by simp [same])
      have notBefore : ¬y < x := fun after => by
        have := UInt8.lt_iff_toNat_lt.mp after
        omega
      rw [if_neg other, if_neg notBefore]
      rfl

namespace Alu

/-- What an evaluation that is not refused yields: the register that receives a value, or flags. -/
inductive Yields (comparison : Comparison) (operation : AluOperation) (a b : UInt8)
    (registers : Registers) : Effect → Prop where
  | register {r t : RegisterIndex} {value : UInt8} {result : Int} : a.toNat = r → b.toNat = t →
      Combines (registers.get r).toNat (registers.get t).toNat (Opcode.alu operation).byte result →
      (value.toNat : Int) = result % 256 →
      Yields comparison operation a b registers (.register r value)
  | flags {x y flags : UInt8} : operation = .cmp → Compares a b registers comparison x y →
      Orders x.toNat y.toNat flags → Yields comparison operation a b registers (.flags flags)

variable {comparison : Comparison} {operation : AluOperation} {registers : Registers}
  {a b x y value : UInt8} {target : RegisterIndex} {result : Int} {effect : Effect}

theorem Yields.of_operands (found : operands registers a b = .ok (target, x, y))
    (combines : Combines x.toNat y.toNat (Opcode.alu operation).byte result)
    (kept : (value.toNat : Int) = result % 256) :
    Yields comparison operation a b registers (.register target value) := by
  obtain ⟨named, rfl, t, named', rfl⟩ := operands_eq_ok_iff.mp found
  exact .register named named' combines kept

theorem yields_of_evaluate (evaluated : evaluate comparison operation a b registers = .ok effect) :
    Yields comparison operation a b registers effect := by
  cases operation with
  | add =>
    obtain ⟨⟨r, x, y⟩, found, ⟨⟩⟩ := Except.bind_eq_ok_iff.mp evaluated
    exact .of_operands found .add (toNat_eq_add_iff.mpr rfl)
  | sub =>
    obtain ⟨⟨r, x, y⟩, found, ⟨⟩⟩ := Except.bind_eq_ok_iff.mp evaluated
    exact .of_operands found .sub (toNat_eq_sub_iff.mpr rfl)
  | mul =>
    obtain ⟨⟨r, x, y⟩, found, ⟨⟩⟩ := Except.bind_eq_ok_iff.mp evaluated
    exact .of_operands found .mul (toNat_eq_mul_iff.mpr rfl)
  | div =>
    obtain ⟨r, x, y, found, divisor, rfl⟩ := evaluate_div_eq_ok_iff.mp evaluated
    have divides := Combines.div (x := x.toNat) (toNat_ne_zero_iff.mpr divisor)
    exact .of_operands found divides (toNat_eq_div_iff.mpr rfl)
  | cmp =>
    obtain ⟨⟨x, y⟩, found, ⟨⟩⟩ := Except.bind_eq_ok_iff.mp evaluated
    exact .flags rfl (comparands_eq_ok_iff.mp found) (Flags.ofComparison_eq_iff.mp rfl)

theorem evaluate_of_combines (found : operands registers a b = .ok (target, x, y))
    (combines : Combines x.toNat y.toNat (Opcode.alu operation).byte result)
    (kept : (value.toNat : Int) = result % 256) :
    evaluate comparison operation a b registers = .ok (.register target value) := by
  generalize byte : (Opcode.alu operation).byte = op at combines
  cases combines with
  | add =>
    obtain rfl := toNat_eq_add_iff.mp kept
    cases Opcode.byte_injective (p := .alu .add) byte
    exact Except.bind_eq_ok_iff.mpr ⟨_, found, rfl⟩
  | sub =>
    obtain rfl := toNat_eq_sub_iff.mp kept
    cases Opcode.byte_injective (p := .alu .sub) byte
    exact Except.bind_eq_ok_iff.mpr ⟨_, found, rfl⟩
  | mul =>
    obtain rfl := toNat_eq_mul_iff.mp kept
    cases Opcode.byte_injective (p := .alu .mul) byte
    exact Except.bind_eq_ok_iff.mpr ⟨_, found, rfl⟩
  | div divisor =>
    obtain rfl := toNat_eq_div_iff.mp kept
    cases Opcode.byte_injective (p := .alu .div) byte
    have nonzero := toNat_ne_zero_iff.mp divisor
    exact evaluate_div_eq_ok_iff.mpr ⟨target, x, y, found, nonzero, rfl⟩

/-- What is evaluated on bytes is known by what it comes to on integers. -/
theorem evaluate_eq_ok_iff :
    evaluate comparison operation a b registers = .ok effect ↔
      Yields comparison operation a b registers effect := by
  constructor
  · exact yields_of_evaluate
  · rintro (⟨named, named', combines, kept⟩ | ⟨rfl, compares, orders⟩)
    · exact evaluate_of_combines (operands_eq_ok_iff.mpr ⟨named, rfl, _, named', rfl⟩) combines kept
    · obtain rfl := Flags.ofComparison_eq_iff.mpr orders
      exact Except.bind_eq_ok_iff.mpr ⟨_, comparands_eq_ok_iff.mpr compares, rfl⟩

end Alu

/-- What a program can tell of a processor, of a memory and of what has been printed. -/
def Processor.snapshot (p : Processor) (ram : Ram) (printed : List UInt8) : Snapshot :=
  { pc := p.pc, registers := p.registers, flags := p.flags, cells := ram.toList, printed }

/-- What an intention makes of `s` when it is carried out. -/
def Intent.leaves (s : Snapshot) : Intent → Snapshot
  | .update p => { s with pc := p.pc, registers := p.registers, flags := p.flags }
  | .print text => { s with printed := s.printed ++ Text.utf8Encode text }
  | .push value =>
    { s.setRegister Registers.stackPointer (s.stackPointer - 1) with
      cells := s.cells.set (s.stackPointer - 1).toNat value }

namespace Machine

section Rows

variable {comparison : Comparison} {a b op : UInt8} {p : Processor} {ram : Ram}
  {printed : List UInt8} {s' : Snapshot} {intended : Intent}

theorem row_of_evaluate {operation : AluOperation} {effect : Alu.Effect}
    (evaluated : Alu.evaluate comparison operation a b p.registers = .ok effect) :
    Row comparison a b (p.snapshot ram printed) (Opcode.alu operation).byte
      ((p.apply effect).snapshot ram printed) := by
  cases Alu.evaluate_eq_ok_iff.mp evaluated with
  | register named named' combines kept => exact .arithmetic named named' combines kept
  | flags compared compares orders =>
    subst compared
    exact .cmp compares orders

theorem row_of_intent {opcode : Opcode}
    (intends : intent comparison opcode a b p ram = .ok intended) :
    Row comparison a b (p.snapshot ram printed) opcode.byte
      (intended.leaves (p.snapshot ram printed)) := by
  cases opcode with
  | hlt =>
    cases intends
    exact .hlt
  | ldi =>
    obtain ⟨r, found, rfl⟩ := Except.map_eq_ok_iff.mp intends
    exact .ldi (Registers.index_eq_ok_iff.mp found)
  | prn =>
    obtain ⟨value, found, rfl⟩ := Except.map_eq_ok_iff.mp intends
    obtain ⟨r, named, rfl⟩ := Registers.read_eq_ok_iff.mp found
    rw [Text.decimal_eq_toString]
    exact .prn named
  | push =>
    obtain ⟨value, found, rfl⟩ := Except.map_eq_ok_iff.mp intends
    obtain ⟨r, named, rfl⟩ := Registers.read_eq_ok_iff.mp found
    exact .push named (toNat_eq_sub_iff.mpr rfl)
  | pop =>
    obtain ⟨r, found, popped⟩ := Except.bind_eq_ok_iff.mp intends
    obtain ⟨value, held, ⟨⟩⟩ := Except.bind_eq_ok_iff.mp popped
    exact .pop (Registers.index_eq_ok_iff.mp found) (Bank.get_eq_ok_iff.mp held)
      (toNat_eq_add_iff.mpr rfl)
  | alu operation =>
    obtain ⟨effect, evaluated, rfl⟩ := Except.map_eq_ok_iff.mp intends
    exact row_of_evaluate evaluated

theorem exists_operation_of_combines {x y result : Int} (combines : Combines x y op result) :
    ∃ operation, (Opcode.alu operation).byte = op := by
  cases combines with
  | add => exact ⟨.add, rfl⟩
  | sub => exact ⟨.sub, rfl⟩
  | mul => exact ⟨.mul, rfl⟩
  | div => exact ⟨.div, rfl⟩

/-- A row is an instruction carried out, or a byte that encodes none. -/
theorem intent_of_row (row : Row comparison a b (p.snapshot ram printed) op s') :
    (Opcode.ofByte? op = none ∧ s' = p.snapshot ram printed) ∨
      ∃ opcode intended, Opcode.ofByte? op = some opcode ∧
        intent comparison opcode a b p ram = .ok intended ∧
        s' = intended.leaves (p.snapshot ram printed) := by
  cases row with
  | hlt => exact .inr ⟨.hlt, _, rfl, rfl, rfl⟩
  | push named lowered =>
    obtain rfl := toNat_eq_sub_iff (y := 1).mp lowered
    have read := Registers.read_of_named named p.registers
    exact .inr ⟨.push, _, rfl, Except.map_eq_ok_iff.mpr ⟨_, read, rfl⟩, rfl⟩
  | pop named held raised =>
    obtain rfl := toNat_eq_add_iff (y := 1).mp raised
    have index := Registers.index_eq_ok_iff.mpr named
    have popped := Bank.get_eq_ok_iff.mpr held
    exact .inr ⟨.pop, _, rfl, Except.bind_eq_ok_iff.mpr ⟨_, index,
      Except.bind_eq_ok_iff.mpr ⟨_, popped, rfl⟩⟩, rfl⟩
  | prn named =>
    have read := Registers.read_of_named named p.registers
    refine .inr ⟨.prn, _, rfl, Except.map_eq_ok_iff.mpr ⟨_, read, rfl⟩, ?_⟩
    rw [Text.decimal_eq_toString]
    rfl
  | ldi named =>
    have index := Registers.index_eq_ok_iff.mpr named
    exact .inr ⟨.ldi, _, rfl, Except.map_eq_ok_iff.mpr ⟨_, index, rfl⟩, rfl⟩
  | arithmetic named named' combines kept =>
    obtain ⟨operation, rfl⟩ := exists_operation_of_combines combines
    have evaluated : Alu.evaluate comparison operation a b p.registers = .ok _ :=
      Alu.evaluate_eq_ok_iff.mpr (.register named named' combines kept)
    exact .inr ⟨.alu operation, _, Opcode.ofByte?_byte _,
      Except.map_eq_ok_iff.mpr ⟨_, evaluated, rfl⟩, rfl⟩
  | cmp compares orders =>
    have evaluated : Alu.evaluate comparison .cmp a b p.registers = .ok _ :=
      Alu.evaluate_eq_ok_iff.mpr (.flags rfl compares orders)
    exact .inr ⟨.alu .cmp, _, rfl, Except.map_eq_ok_iff.mpr ⟨_, evaluated, rfl⟩, rfl⟩
  | unknown other => exact .inl ⟨not_mem_encodings_iff.mp other, rfl⟩

end Rows

/-- What a program can tell of a machine. -/
def snapshot (m : Machine Ram Sink) : Snapshot :=
  m.processor.snapshot m.memory m.output.accepted.toList

/-- A step that succeeds. -/
def Steps (comparison : Comparison) (m m' : Machine Ram Sink) : Prop :=
  ∃ executed, step comparison m = .ok executed m'

variable {comparison : Comparison} {m m' : Machine Ram Sink} {s s' : Snapshot} {executed : Executed}
  {intended : Intent}

theorem fetched?_ram_iff {fetched : Fetched} {p : Processor} {ram : Ram} :
    fetched? p ram = .ok fetched ↔
      ram.toList[p.pc]? = some fetched.opcode ∧
        ram.toList[(p.pc + 1) % memorySize]? = some fetched.a ∧
        ram.toList[(p.pc + 2) % memorySize]? = some fetched.b := by
  simp only [← Bank.get_eq_ok_iff]
  exact fetched?_eq_ok_iff

/-- What a plan makes of `s`. -/
def leaves (s : Snapshot) (executed : Executed) (intended : Intent) : Snapshot :=
  { intended.leaves s with
    pc := if executed = .instruction .hlt then (intended.leaves s).pc
      else (intended.leaves s).pc + executed.length }

theorem pc_leaves_of_planned (plans : planned comparison m = .ok (executed, intended)) :
    (intended.leaves m.snapshot).pc = m.processor.pc := by
  obtain ⟨fetched, -, plans⟩ := planned_eq_ok_iff.mp plans
  unfold planFor at plans
  split at plans
  · cases plans
    rfl
  · rename_i opcode _
    obtain ⟨_, intends, ⟨⟩⟩ := Except.map_eq_ok_iff.mp plans
    have row : Row comparison fetched.a fetched.b
        ({ m.processor with state := .running }.snapshot m.memory m.output.accepted.toList)
        opcode.byte (intended.leaves m.snapshot) := row_of_intent intends
    exact row.pc_eq

/-- The memory ends long before a program counter that is to wrap. -/
theorem snapshot_past (plans : planned comparison m = .ok (executed, intended)) {q : Processor}
    (here : q.pc = m.processor.pc) (ram : Ram) (printed : List UInt8) :
    (q.past executed).snapshot ram printed =
      { q.snapshot ram printed with
        pc := if executed = .instruction .hlt then q.pc else q.pc + executed.length } := by
  obtain ⟨fetched, fetches, -⟩ := planned_eq_ok_iff.mp plans
  have inside := (List.getElem?_eq_some_iff.mp (fetched?_ram_iff.mp fetches).1).1
  rw [Bank.length_toList, ← here] at inside
  have short := executed.length_le_four
  have within : q.pc + executed.length < addressSpace :=
    Nat.lt_of_lt_of_le (Nat.add_lt_add_of_lt_of_le inside short) (by decide)
  rw [Processor.snapshot, Processor.pc_past, Nat.mod_eq_of_lt within]
  rfl

/-- On an output that never fails, what can be planned is done. -/
theorem step_of_planned (unfailing : m.output.Unfailing)
    (plans : planned comparison m = .ok (executed, intended)) :
    ∃ m', step comparison m = .ok executed m' ∧
      m'.snapshot = leaves m.snapshot executed intended := by
  have kept := pc_leaves_of_planned plans
  cases intended with
  | update p =>
    obtain ⟨m', stepped, processor, memory, output⟩ := (sameEnd_step_of_update plans).eq_ok
    refine ⟨m', stepped, ?_⟩
    rw [snapshot, processor, memory, output]
    exact snapshot_past plans kept _ _
  | print text =>
    obtain ⟨m', stepped, processor, memory, output⟩ :=
      (sameEnd_step_of_printed plans (unfailing.print text).1).eq_ok
    refine ⟨m', stepped, ?_⟩
    have here : { m.processor with state := .running }.pc = m.processor.pc := rfl
    rw [snapshot, processor, memory, output, unfailing.accepted_print]
    exact snapshot_past plans here _ _
  | push value =>
    have stored := Bank.set_of_lt m.memory value (m.processor.stackPointer - 1).toNat_lt
    obtain ⟨m', stepped, processor, memory, output⟩ := (sameEnd_step_of_stored plans stored).eq_ok
    refine ⟨m', stepped, ?_⟩
    have here : { m.processor.lowered with state := .running }.pc = m.processor.pc := rfl
    rw [snapshot, processor, memory, output]
    refine (snapshot_past plans here _ _).trans ?_
    rw [Processor.snapshot, Bank.toList_of_set stored]
    rfl

theorem steps_iff_planned (unfailing : m.output.Unfailing) :
    (∃ m', Steps comparison m m' ∧ m'.snapshot = s') ↔
      ∃ executed intended, planned comparison m = .ok (executed, intended) ∧
        leaves m.snapshot executed intended = s' := by
  constructor
  · rintro ⟨m', ⟨executed, stepped⟩, rfl⟩
    cases plans : planned comparison m with
    | ok chosen =>
      obtain ⟨m'', stepped', left⟩ := step_of_planned unfailing plans
      cases stepped.symm.trans stepped'
      exact ⟨_, _, rfl, left.symm⟩
    | error fault =>
      obtain ⟨m'', stepped', -⟩ := (sameEnd_step_of_refused plans).eq_error
      cases stepped.symm.trans stepped'
  · rintro ⟨executed, intended, plans, rfl⟩
    obtain ⟨m', stepped, left⟩ := step_of_planned unfailing plans
    exact ⟨m', ⟨executed, stepped⟩, left⟩

/-- The table passes control on as a plan does, since it goes by the byte that was executed. -/
theorem leaves_eq {op : UInt8} (halts : executed = .instruction .hlt ↔ op = 0b00000001)
    (length : executed.length = instructionLength op)
    (kept : (intended.leaves s).pc = s.pc) :
    leaves s executed intended =
      { intended.leaves s with
        pc := if op = 0b00000001 then s.pc else s.pc + (op >>> 6).toNat + 1 } := by
  simp only [leaves, halts, length, kept, instructionLength_eq, Nat.add_assoc]

theorem leaves_unknown {op : UInt8} (decoded : Opcode.ofByte? op = none) (p : Processor)
    (ram : Ram) (printed : List UInt8) :
    leaves (p.snapshot ram printed) (.unknown op) (.update p) =
      { p.snapshot ram printed with
        pc := if op = 0b00000001 then p.pc else p.pc + (op >>> 6).toNat + 1 } := by
  apply leaves_eq _ rfl rfl
  simp only [reduceCtorEq, false_iff]
  rintro rfl
  cases decoded

theorem leaves_known {opcode : Opcode} {op : UInt8} (byte : opcode.byte = op)
    (kept : (intended.leaves s).pc = s.pc) :
    leaves s (.instruction opcode) intended =
      { intended.leaves s with
        pc := if op = 0b00000001 then s.pc else s.pc + (op >>> 6).toNat + 1 } := by
  have length : (Executed.instruction opcode).length = instructionLength op :=
    congrArg instructionLength byte
  apply leaves_eq _ length kept
  rw [← byte, Executed.instruction.injEq]
  exact ⟨congrArg Opcode.byte, fun same => Opcode.byte_injective same⟩

theorem planFor_iff_row (fetched : Fetched) (p : Processor) (ram : Ram) (printed : List UInt8) :
    (∃ executed intended, planFor comparison fetched p ram = .ok (executed, intended) ∧
        leaves (p.snapshot ram printed) executed intended = s') ↔
      ∃ row, Row comparison fetched.a fetched.b (p.snapshot ram printed) fetched.opcode row ∧
        { row with pc := if fetched.opcode = 0b00000001 then p.pc
            else p.pc + (fetched.opcode >>> 6).toNat + 1 } = s' := by
  unfold planFor
  cases decoded : Opcode.ofByte? fetched.opcode with
  | none =>
    have left := leaves_unknown decoded p ram printed
    constructor
    · rintro ⟨_, _, ⟨⟩, rfl⟩
      exact ⟨_, .unknown (not_mem_encodings_iff.mpr decoded), left.symm⟩
    · rintro ⟨row, rows, rfl⟩
      rcases intent_of_row rows with ⟨-, rfl⟩ | ⟨opcode, _, decoded', -⟩
      · exact ⟨_, _, rfl, left⟩
      · cases decoded.symm.trans decoded'
  | some opcode =>
    have byte := Opcode.ofByte?_eq_some_iff.mp decoded
    constructor
    · rintro ⟨_, _, plans, rfl⟩
      obtain ⟨intended, intends, ⟨⟩⟩ := Except.map_eq_ok_iff.mp plans
      have row : Row comparison fetched.a fetched.b (p.snapshot ram printed) fetched.opcode _ :=
        byte ▸ row_of_intent intends
      exact ⟨_, row, (leaves_known byte row.pc_eq).symm⟩
    · rintro ⟨row, rows, rfl⟩
      have kept := rows.pc_eq
      rcases intent_of_row rows with ⟨decoded', -⟩ | ⟨opcode', intended, decoded', intends, rfl⟩
      · cases decoded.symm.trans decoded'
      · cases decoded.symm.trans decoded'
        exact ⟨_, _, Except.map_eq_ok_iff.mpr ⟨_, intends, rfl⟩, leaves_known byte kept⟩

theorem steps_iff_step (unfailing : m.output.Unfailing) :
    (∃ m', Steps comparison m m' ∧ m'.snapshot = s') ↔
      InstructionTable.Step comparison m.snapshot s' := by
  rw [steps_iff_planned unfailing]
  constructor
  · rintro ⟨executed, intended, plans, left⟩
    obtain ⟨fetched, fetches, plans⟩ := planned_eq_ok_iff.mp plans
    obtain ⟨held, held', held''⟩ := fetched?_ram_iff.mp fetches
    obtain ⟨row, rows, rfl⟩ :=
      (planFor_iff_row fetched _ _ _).mp ⟨executed, intended, plans, left⟩
    exact .intro held held' held'' rows
  · rintro @⟨opcode, a, b, row, held, held', held'', rows⟩
    have fetches : fetched? m.processor m.memory = .ok { opcode, a, b } :=
      fetched?_ram_iff.mpr ⟨held, held', held''⟩
    obtain ⟨executed, intended, plans, left⟩ :=
      (planFor_iff_row { opcode, a, b } { m.processor with state := .running } _ _).mpr
        ⟨row, rows, rfl⟩
    exact ⟨executed, intended, planned_eq_ok_iff.mpr ⟨_, fetches, plans⟩, left⟩

theorem steps_of_outcome (succeeds : outcome (step comparison) m = .ok executed) :
    Steps comparison m (after (step comparison) m) := by
  cases stepped : step comparison m with
  | ok _ m' => exact ⟨_, after_eq_of_ok stepped ▸ stepped⟩
  | error fault m' => cases (outcome_eq_of_error stepped).symm.trans succeeds

theorem Steps.unfailing (steps : Steps comparison m m') (unfailing : m.output.Unfailing) :
    m'.output.Unfailing := by
  obtain ⟨executed, stepped⟩ := steps
  exact after_eq_of_ok stepped ▸ unfailing_step comparison unfailing

theorem table_of_sequence (unfailing : m.output.Unfailing)
    (sequence : Relation.ReflTransGen (Steps comparison) m m') :
    Relation.ReflTransGen (InstructionTable.Step comparison) m.snapshot m'.snapshot := by
  induction sequence using Relation.ReflTransGen.head_induction_on with
  | refl => exact .refl
  | head steps _ inductionHypothesis =>
    have first := (steps_iff_step unfailing).mp ⟨_, steps, rfl⟩
    exact .head first (inductionHypothesis (steps.unfailing unfailing))

theorem sequence_of_table (unfailing : m.output.Unfailing) (start : m.snapshot = s)
    (sequence : Relation.ReflTransGen (InstructionTable.Step comparison) s s') :
    ∃ m', Relation.ReflTransGen (Steps comparison) m m' ∧ m'.snapshot = s' := by
  induction sequence using Relation.ReflTransGen.head_induction_on generalizing m with
  | refl => exact ⟨m, .refl, start⟩
  | head first _ inductionHypothesis =>
    obtain ⟨m₁, steps, left⟩ := (steps_iff_step unfailing).mpr (start ▸ first)
    obtain ⟨m', later, ends⟩ := inductionHypothesis (steps.unfailing unfailing) left
    exact ⟨m', .head steps later, ends⟩

/-- Whatever the state of the machine, also where operands or stack cells coincide: a step that
succeeds is a step by the table and the other way round, and so are sequences of steps, whose stores
may change what is fetched later. -/
theorem steps_go_by_table (unfailing : m.output.Unfailing) (s : Snapshot) :
    ((∃ m', Steps comparison m m' ∧ m'.snapshot = s) ↔
      InstructionTable.Step comparison m.snapshot s) ∧
    ((∃ m', Relation.ReflTransGen (Steps comparison) m m' ∧ m'.snapshot = s) ↔
      Relation.ReflTransGen (InstructionTable.Step comparison) m.snapshot s) := by
  refine ⟨steps_iff_step unfailing, ?_, sequence_of_table unfailing rfl⟩
  rintro ⟨m', sequence, rfl⟩
  exact table_of_sequence unfailing sequence

/-- The third instruction overwrites the fourth, a print, with a halt. -/
theorem steps_go_by_table_own_code :
    let ram : Ram := Bank.ofImagePrefix [0x82, 7, 9, 0x82, 0, 1, 0x45, 0, 0x47, 0]
    let m : Machine Ram Sink := { memory := ram, output := {}, diagnostics := {} }
    let s := (stepped .contents 4 m).snapshot
    m.output.Unfailing ∧
      Relation.ReflTransGen (InstructionTable.Step .contents) m.snapshot s ∧
      s.pc = 8 ∧ s.registers.toList = [1, 0, 0, 0, 0, 0, 0, 8] ∧ s.cells[8]? = some 1 ∧
      s.printed = [] := by
  intro ram m s
  have unfailing : m.output.Unfailing := ⟨rfl, by simp [m]⟩
  have first : outcome (step .contents) m = .ok (.instruction .ldi) := by decide +kernel
  have second : outcome (step .contents) (stepped .contents 1 m) = .ok (.instruction .ldi) := by
    decide +kernel
  have third : outcome (step .contents) (stepped .contents 2 m) = .ok (.instruction .push) := by
    decide +kernel
  have fourth : outcome (step .contents) (stepped .contents 3 m) = .ok (.instruction .hlt) := by
    decide +kernel
  have sequence : Relation.ReflTransGen (Steps .contents) m (stepped .contents 4 m) :=
    (((Relation.ReflTransGen.single (steps_of_outcome first)).tail
      (steps_of_outcome second)).tail (steps_of_outcome third)).tail (steps_of_outcome fourth)
  refine ⟨unfailing, (steps_go_by_table unfailing s).2.mp ⟨_, sequence, rfl⟩, ?_⟩
  decide +kernel

end Machine

end ByteMachine
