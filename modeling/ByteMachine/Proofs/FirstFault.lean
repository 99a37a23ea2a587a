import ByteMachine.Proofs.Operands
import ByteMachine.Proofs.Termination

/-!
# Which fault a step ends with

The checks of a step in the order in which they are made: its three reads, then those of its
instruction. Main statement: a step faults exactly by the first of them that fails, and succeeds if
none does.
-/

namespace ByteMachine

section Accesses

variable {M : Type} [Memory M]

/-- A read at the address gets this byte. -/
def Holds (memory : M) (address : Nat) (value : UInt8) : Prop :=
  (Memory.read memory address).result = .ok value

def Unreadable (memory : M) (address : Nat) : Prop :=
  ∃ fault, (Memory.read memory address).result = .error fault

/-- The memory refuses to store this byte there. -/
def Unwritable (memory : M) (address : Nat) (value : UInt8) : Prop :=
  ∃ fault, (Memory.write memory address value).result = .error fault

variable {memory : M} {address : Nat} {value : UInt8}

variable [PlainMemory M]

theorem holds_iff : Holds memory address value ↔ PlainMemory.get memory address = .ok value := by
  rw [Holds, PlainMemory.read_eq]

theorem unreadable_iff :
    Unreadable memory address ↔ PlainMemory.get memory address = .error (.addressing address) := by
  simp only [Unreadable, PlainMemory.read_eq]
  constructor
  · rintro ⟨fault, refused⟩
    rw [refused, PlainMemory.get_fault refused]
  · intro refused
    exact ⟨_, refused⟩

theorem get_eq_error_iff {fault : Fault} :
    PlainMemory.get memory address = .error fault ↔
      Unreadable memory address ∧ fault = .addressing address := by
  rw [unreadable_iff]
  constructor
  · intro refused
    obtain rfl := PlainMemory.get_fault refused
    exact ⟨refused, rfl⟩
  · rintro ⟨refused, rfl⟩
    exact refused

theorem unwritable_iff :
    Unwritable memory address value ↔
      PlainMemory.set memory address value = .error (.addressing address) := by
  simp only [Unwritable, PlainMemory.write_eq]
  constructor
  · rintro ⟨fault, refused⟩
    cases stored : PlainMemory.set memory address value with
    | ok memory' => simp [stored] at refused
    | error fault' => rw [PlainMemory.set_fault stored]
  · intro refused
    exact ⟨.addressing address, by simp only [refused]⟩

end Accesses

/-- The encodings of the instructions that use the register named by their first operand only. -/
def oneRegister : List UInt8 := [0b10000010, 0b01000111, 0b01000101, 0b01000110]

/-- The encodings of the instructions that use the registers named by both operands. A comparison of
indices uses no register. -/
def twoRegisters : Comparison → List UInt8
  | .contents => [0b10100000, 0b10100001, 0b10100010, 0b10100011, 0b10100111]
  | .indices => [0b10100000, 0b10100001, 0b10100010, 0b10100011]

section Instructions

variable {M W : Type} [Memory M] [Writer W]

/-- The line that prints a value. -/
def printedLine (value : UInt8) : List UInt8 := Text.utf8Encode (toString value.toNat ++ "\n")

/-- How an instruction with the operands `a` and `b` can fail: by a register that does not exist, by
a zero divisor, by the stack cell or by the output. The encoding stands before the fault. -/
inductive InstructionFault (comparison : Comparison) (registers : Registers) (memory : M)
    (output : W) (a b : UInt8) : UInt8 → Fault → Prop where
  | first {op} : op ∈ oneRegister ++ twoRegisters comparison → 8 ≤ a.toNat →
      InstructionFault comparison registers memory output a b op (.register a)
  | second {op} : op ∈ twoRegisters comparison → a.toNat < 8 → 8 ≤ b.toNat →
      InstructionFault comparison registers memory output a b op (.register b)
  | divisor {t : RegisterIndex} : a.toNat < 8 → b.toNat = t → registers.get t = 0 →
      InstructionFault comparison registers memory output a b 0b10100011 .divisionByZero
  | push {r : RegisterIndex} {top : UInt8} : a.toNat = r → top = registers.get 7 - 1 →
      Unwritable memory top.toNat (registers.get r) →
      InstructionFault comparison registers memory output a b 0b01000101 (.addressing top.toNat)
  | pop : a.toNat < 8 → Unreadable memory (registers.get 7).toNat →
      InstructionFault comparison registers memory output a b 0b01000110
        (.addressing (registers.get 7).toNat)
  | write {r : RegisterIndex} {cause} : a.toNat = r →
      (Writer.write output (printedLine (registers.get r))).1 = .error cause →
      InstructionFault comparison registers memory output a b 0b01000111 (.output cause)
  | flush {r : RegisterIndex} {cause} : a.toNat = r →
      (Writer.write output (printedLine (registers.get r))).1 = .ok () →
      (Writer.flush (Writer.write output (printedLine (registers.get r))).2).1 = .error cause →
      InstructionFault comparison registers memory output a b 0b01000111 (.output cause)

/-- The fault of the first check of a step that fails. -/
inductive FirstFault (comparison : Comparison) (m : Machine M W) : Fault → Prop where
  | opcode : Unreadable m.memory m.processor.pc →
      FirstFault comparison m (.addressing m.processor.pc)
  | firstOperand {op} : Holds m.memory m.processor.pc op →
      Unreadable m.memory ((m.processor.pc + 1) % 256) →
      FirstFault comparison m (.addressing ((m.processor.pc + 1) % 256))
  | secondOperand {op a} : Holds m.memory m.processor.pc op →
      Holds m.memory ((m.processor.pc + 1) % 256) a →
      Unreadable m.memory ((m.processor.pc + 2) % 256) →
      FirstFault comparison m (.addressing ((m.processor.pc + 2) % 256))
  | instruction {op a b fault} : Holds m.memory m.processor.pc op →
      Holds m.memory ((m.processor.pc + 1) % 256) a →
      Holds m.memory ((m.processor.pc + 2) % 256) b →
      InstructionFault comparison m.processor.registers m.memory m.output a b op fault →
      FirstFault comparison m fault

end Instructions

namespace Alu

variable {comparison : Comparison} {operation : AluOperation} {a b : UInt8} {registers : Registers}
  {fault : Fault}

/-- All arithmetic checks both operands, and a division its divisor after that. -/
theorem evaluate_eq_error_iff :
    evaluate comparison operation a b registers = .error fault ↔
      ((Opcode.alu operation).byte ∈ twoRegisters comparison ∧
          operands registers a b = .error fault) ∨
        (operation = .div ∧ ∃ r x, operands registers a b = .ok (r, x, 0) ∧
          fault = .divisionByZero) := by
  have computes : operation ≠ .cmp → (Opcode.alu operation).byte ∈ twoRegisters comparison := by
    cases operation <;> cases comparison <;> decide
  cases operation with
  | div => simp [computes, evaluate_div_eq_error_iff]
  | cmp =>
    rw [evaluate_cmp_eq_error_iff]
    cases comparison <;> simp [twoRegisters, Opcode.byte]
  | add | sub | mul => simp [computes, evaluate_eq_error_iff_of_total]

end Alu

theorem Writer.print_eq_error_iff {W : Type} [Writer W] {writer : W} {text : String}
    {cause : WriteError} :
    (print writer text).1 = .error cause ↔
      (write writer (Text.utf8Encode text)).1 = .error cause ∨
        ((write writer (Text.utf8Encode text)).1 = .ok () ∧
          (flush (write writer (Text.utf8Encode text)).2).1 = .error cause) := by
  unfold print
  cases write writer (Text.utf8Encode text) with
  | mk result left => cases result <;> simp

variable {M W : Type} [Memory M] [Writer W] [PlainMemory M]

/-- How carrying out what was intended can fail. -/
def Intent.FailsWith (p : Processor) (memory : M) (output : W) : Intent → Fault → Prop
  | .update _, _ => False
  | .print text, fault =>
    ∃ cause, (Writer.print output text).1 = .error cause ∧ fault = .output cause
  | .push value, fault =>
    PlainMemory.set memory (p.stackPointer - 1).toNat value = .error fault

namespace Machine

variable {comparison : Comparison} {a b op : UInt8} {opcode : Opcode} {p : Processor} {memory : M}
  {output : W} {fault : Fault} {intended : Intent} {m : Machine M W}

theorem outcome_step_eq_error_iff :
    outcome (step comparison) m = .error fault ↔
      planned comparison m = .error fault ∨
        ∃ executed intended, planned comparison m = .ok (executed, intended) ∧
          intended.FailsWith m.processor m.memory m.output fault := by
  constructor
  · intro faults
    cases step_error (eq_error_of_outcome faults) with
    | intact refused => exact .inl refused
    | output text plans unprinted => exact .inr ⟨_, _, plans, _, unprinted, rfl⟩
    | lowered value plans unstored => exact .inr ⟨_, _, plans, unstored⟩
  · rintro (refused | ⟨executed, intended, plans, fails⟩)
    · obtain ⟨m', faulted, -⟩ := (sameEnd_step_of_refused refused).eq_error
      exact outcome_eq_of_error faulted
    · cases intended with
      | update p => exact fails.elim
      | print text =>
        obtain ⟨cause, unprinted, rfl⟩ := fails
        obtain ⟨m', faulted, -⟩ := (sameEnd_step_of_unprinted plans unprinted).eq_error
        exact outcome_eq_of_error faulted
      | push value =>
        obtain ⟨m', faulted, -⟩ := (sameEnd_step_of_unstored plans fails).eq_error
        exact outcome_eq_of_error faulted

theorem intent_eq_error_iff :
    intent comparison opcode a b p memory = .error fault ↔
      (opcode.byte ∈ oneRegister ∧ 8 ≤ a.toNat ∧ fault = .register a) ∨
        (opcode = .pop ∧ a.toNat < 8 ∧
          PlainMemory.get memory p.stackPointer.toNat = .error fault) ∨
        ∃ operation, opcode = .alu operation ∧
          Alu.evaluate comparison operation a b p.registers = .error fault := by
  have unnamed : Registers.index a = .error fault ↔ 8 ≤ a.toNat ∧ fault = .register a :=
    Registers.index_eq_error_iff
  cases opcode with
  | hlt => simp [intent, oneRegister, Opcode.byte]
  | ldi => simp [intent, Except.map_eq_error_iff, unnamed, oneRegister, Opcode.byte]
  | prn =>
    simp [intent, Registers.read, Except.map_eq_error_iff, unnamed, oneRegister, Opcode.byte]
  | push =>
    simp [intent, Registers.read, Except.map_eq_error_iff, unnamed, oneRegister, Opcode.byte]
  | pop =>
    have checked : Opcode.pop.byte ∈ oneRegister := by decide
    have whole : intent comparison .pop a b p memory = .error fault ↔
        Registers.index a = .error fault ∨ ∃ r, Registers.index a = .ok r ∧
          PlainMemory.get memory p.stackPointer.toNat = .error fault :=
      Except.bind_eq_error_iff.trans (or_congr_right (exists_congr fun r =>
        and_congr_right fun _ => Except.bind_eq_error_iff_of_passes fun _ => ⟨_, rfl⟩))
    simp [whole, exists_and_right, Registers.exists_index_iff, unnamed, checked]
  | alu operation =>
    have other : (Opcode.alu operation).byte ∉ oneRegister := by cases operation <;> decide
    simp [intent, Except.map_eq_error_iff, other]

theorem exists_operation_of_twoRegisters (checked : opcode.byte ∈ twoRegisters comparison) :
    ∃ operation, opcode = .alu operation := by
  cases opcode with
  | alu operation => exact ⟨operation, rfl⟩
  | _ => cases comparison <;> simp [Opcode.byte, twoRegisters] at checked

omit [PlainMemory M] in
theorem instructionFault_of_evaluate {operation : AluOperation}
    (failed : Alu.evaluate comparison operation a b p.registers = .error fault) :
    InstructionFault comparison p.registers memory output a b (Opcode.alu operation).byte
      fault := by
  rcases Alu.evaluate_eq_error_iff.mp failed with ⟨checked, failed⟩ | ⟨rfl, r, x, found, rfl⟩
  · rcases Alu.operands_eq_error_iff.mp failed with ⟨unnamed, rfl⟩ | ⟨named, unnamed, rfl⟩
    · exact .first (List.mem_append_right _ checked) unnamed
    · exact .second checked named unnamed
  · obtain ⟨named, -, t, named', zero⟩ := Alu.operands_eq_ok_iff.mp found
    exact .divisor (named ▸ r.isLt) named' zero

theorem intent_error_of_operands (checked : opcode.byte ∈ twoRegisters comparison)
    (failed : Alu.operands p.registers a b = .error fault) :
    intent comparison opcode a b p memory = .error fault := by
  obtain ⟨operation, rfl⟩ := exists_operation_of_twoRegisters checked
  exact Except.map_eq_error_iff.mpr (Alu.evaluate_eq_error_iff.mpr (.inl ⟨checked, failed⟩))

theorem instructionFault_of_refused
    (refused : intent comparison opcode a b p memory = .error fault) :
    InstructionFault comparison p.registers memory output a b opcode.byte fault := by
  rcases intent_eq_error_iff.mp refused with ⟨checked, unnamed, rfl⟩ | ⟨rfl, named, unpopped⟩ |
    ⟨operation, rfl, unevaluated⟩
  · exact .first (List.mem_append_left _ checked) unnamed
  · obtain rfl := PlainMemory.get_fault unpopped
    exact .pop named (unreadable_iff.mpr unpopped)
  · exact instructionFault_of_evaluate unevaluated

theorem instructionFault_of_failsWith
    (intends : intent comparison opcode a b p memory = .ok intended)
    (fails : intended.FailsWith p memory output fault) :
    InstructionFault comparison p.registers memory output a b opcode.byte fault := by
  cases intended with
  | update p => exact fails.elim
  | print text =>
    obtain ⟨rfl, value, found, rfl⟩ := intent_eq_print_iff.mp intends
    obtain ⟨r, named, rfl⟩ := Registers.read_eq_ok_iff.mp found
    obtain ⟨cause, unprinted, rfl⟩ := fails
    rw [Text.decimal_eq_toString] at unprinted
    rcases Writer.print_eq_error_iff.mp unprinted with unwritten | ⟨written, unflushed⟩
    · exact .write named unwritten
    · exact .flush named written unflushed
  | push value =>
    obtain ⟨rfl, found⟩ := intent_eq_push_iff.mp intends
    obtain ⟨r, named, rfl⟩ := Registers.read_eq_ok_iff.mp found
    obtain rfl := PlainMemory.set_fault fails
    exact .push named rfl (unwritable_iff.mpr fails)

theorem failsWith_of_unprinted {r : RegisterIndex} {cause : WriteError} (named : a.toNat = r)
    (unprinted :
      (Writer.print output (toString (p.registers.get r).toNat ++ "\n")).1 = .error cause) :
    ∃ intended, intent comparison .prn a b p memory = .ok intended ∧
      intended.FailsWith p memory output (.output cause) := by
  have read := Registers.read_of_named named p.registers
  refine ⟨_, intent_eq_print_iff.mpr ⟨rfl, _, read, rfl⟩, cause, ?_, rfl⟩
  rwa [Text.decimal_eq_toString]

/-- What goes wrong with an instruction shows before it is carried out, or then. -/
theorem instructionFault_iff :
    InstructionFault comparison p.registers memory output a b opcode.byte fault ↔
      intent comparison opcode a b p memory = .error fault ∨
        ∃ intended, intent comparison opcode a b p memory = .ok intended ∧
          intended.FailsWith p memory output fault := by
  constructor
  · generalize byte : opcode.byte = op
    intro fails
    cases fails with
    | first checked unnamed =>
      subst byte
      rcases List.mem_append.mp checked with checked | checked
      · exact .inl (intent_eq_error_iff.mpr (.inl ⟨checked, unnamed, rfl⟩))
      · have failed : Alu.operands p.registers a b = .error _ :=
          Alu.operands_eq_error_iff.mpr (.inl ⟨unnamed, rfl⟩)
        exact .inl (intent_error_of_operands checked failed)
    | second checked named unnamed =>
      subst byte
      have failed : Alu.operands p.registers a b = .error _ :=
        Alu.operands_eq_error_iff.mpr (.inr ⟨named, unnamed, rfl⟩)
      exact .inl (intent_error_of_operands checked failed)
    | divisor named named' zero =>
      obtain rfl : opcode = .alu .div := Opcode.byte_injective byte
      obtain ⟨r, index⟩ := Registers.exists_index_iff.mpr named
      have found := Alu.operands_eq_ok_iff.mpr
        ⟨Registers.index_eq_ok_iff.mp index, rfl, _, named', zero⟩
      exact .inl (Except.map_eq_error_iff.mpr
        (Alu.evaluate_div_eq_error_iff.mpr (.inr ⟨r, _, found, rfl⟩)))
    | push named lowered refused =>
      obtain rfl : opcode = .push := Opcode.byte_injective byte
      subst lowered
      have read := Registers.read_of_named named p.registers
      exact .inr ⟨_, intent_eq_push_iff.mpr ⟨rfl, read⟩, unwritable_iff.mp refused⟩
    | pop named refused =>
      obtain rfl : opcode = .pop := Opcode.byte_injective byte
      exact .inl (intent_eq_error_iff.mpr (.inr (.inl ⟨rfl, named, unreadable_iff.mp refused⟩)))
    | write named failed =>
      obtain rfl : opcode = .prn := Opcode.byte_injective byte
      exact .inr (failsWith_of_unprinted named (Writer.print_eq_error_iff.mpr (.inl failed)))
    | flush named written failed =>
      obtain rfl : opcode = .prn := Opcode.byte_injective byte
      have unprinted := Writer.print_eq_error_iff.mpr (.inr ⟨written, failed⟩)
      exact .inr (failsWith_of_unprinted named unprinted)
  · rintro (refused | ⟨intended, intends, fails⟩)
    · exact instructionFault_of_refused refused
    · exact instructionFault_of_failsWith intends fails

omit [PlainMemory M] in
theorem exists_opcode_of_instructionFault {registers : Registers}
    (fails : InstructionFault comparison registers memory output a b op fault) :
    ∃ opcode : Opcode, opcode.byte = op := by
  have encodings : ∀ op ∈ oneRegister ++ twoRegisters comparison,
      op ∈ Opcode.all.map Opcode.byte := by
    cases comparison <;> simp [oneRegister, twoRegisters, Opcode.all, Opcode.byte]
  have known {op} (checked : op ∈ oneRegister ++ twoRegisters comparison) :
      ∃ opcode : Opcode, opcode.byte = op := by
    obtain ⟨opcode, -, byte⟩ := List.mem_map.mp (encodings op checked)
    exact ⟨opcode, byte⟩
  cases fails with
  | first checked _ => exact known checked
  | second checked _ _ => exact known (List.mem_append_right _ checked)
  | divisor => exact ⟨.alu .div, rfl⟩
  | push => exact ⟨.push, rfl⟩
  | pop => exact ⟨.pop, rfl⟩
  | write => exact ⟨.prn, rfl⟩
  | flush => exact ⟨.prn, rfl⟩

theorem planFor_fails_iff {fetched : Fetched} :
    (planFor comparison fetched p memory = .error fault ∨
        ∃ executed intended, planFor comparison fetched p memory = .ok (executed, intended) ∧
          intended.FailsWith p memory output fault) ↔
      InstructionFault comparison p.registers memory output fetched.a fetched.b fetched.opcode
        fault := by
  unfold planFor
  split
  · rename_i unknown
    constructor
    · rintro (⟨⟨⟩⟩ | ⟨_, _, ⟨⟩, never⟩)
      exact never.elim
    · intro fails
      obtain ⟨opcode, byte⟩ := exists_opcode_of_instructionFault fails
      cases unknown.symm.trans (Opcode.ofByte?_eq_some_iff.mpr byte)
  · rename_i opcode known
    rw [← Opcode.ofByte?_eq_some_iff.mp known, instructionFault_iff, Except.map_eq_error_iff]
    apply or_congr_right
    simp only [Except.map_eq_ok_iff, Prod.mk.injEq]
    constructor
    · rintro ⟨_, intended, ⟨_, intends, rfl, rfl⟩, fails⟩
      exact ⟨_, intends, fails⟩
    · rintro ⟨intended, intends, fails⟩
      exact ⟨_, intended, ⟨_, intends, rfl, rfl⟩, fails⟩

theorem fetched?_eq_error_iff :
    fetched? p memory = .error fault ↔
      (Unreadable memory p.pc ∧ fault = .addressing p.pc) ∨
        ∃ op, Holds memory p.pc op ∧
          ((Unreadable memory ((p.pc + 1) % 256) ∧ fault = .addressing ((p.pc + 1) % 256)) ∨
            ∃ a, Holds memory ((p.pc + 1) % 256) a ∧
              Unreadable memory ((p.pc + 2) % 256) ∧ fault = .addressing ((p.pc + 2) % 256)) := by
  have passes (fetched : Fetched) : (pure fetched : Except Fault Fetched) ≠ .error fault := nofun
  simp only [fetched?, Except.bind_eq_error_iff, get_eq_error_iff, ← holds_iff]
  simp [passes]

theorem fetched?_eq_ok_iff_holds {fetched : Fetched} :
    fetched? p memory = .ok fetched ↔
      Holds memory p.pc fetched.opcode ∧ Holds memory ((p.pc + 1) % 256) fetched.a ∧
        Holds memory ((p.pc + 2) % 256) fetched.b := by
  simp only [holds_iff]
  exact fetched?_eq_ok_iff

theorem firstFault_iff :
    FirstFault comparison m fault ↔
      fetched? m.processor m.memory = .error fault ∨
        ∃ fetched, fetched? m.processor m.memory = .ok fetched ∧
          InstructionFault comparison m.processor.registers m.memory m.output fetched.a fetched.b
            fetched.opcode fault := by
  simp only [fetched?_eq_error_iff, fetched?_eq_ok_iff_holds]
  constructor
  · intro faults
    cases faults with
    | opcode refused => exact .inl (.inl ⟨refused, rfl⟩)
    | firstOperand held refused => exact .inl (.inr ⟨_, held, .inl ⟨refused, rfl⟩⟩)
    | secondOperand held held' refused =>
      exact .inl (.inr ⟨_, held, .inr ⟨_, held', refused, rfl⟩⟩)
    | @instruction op a b _ held held' held'' fails =>
      exact .inr ⟨⟨op, a, b⟩, ⟨held, held', held''⟩, fails⟩
  · rintro ((⟨refused, rfl⟩ | ⟨op, held, ⟨refused, rfl⟩ | ⟨a, held', refused, rfl⟩⟩) |
      ⟨fetched, ⟨held, held', held''⟩, fails⟩)
    · exact .opcode refused
    · exact .firstOperand held refused
    · exact .secondOperand held held' refused
    · exact .instruction held held' held'' fails

theorem outcome_step_eq_error_iff_firstFault :
    outcome (step comparison) m = .error fault ↔ FirstFault comparison m fault := by
  have planned_eq_error_iff : planned comparison m = .error fault ↔
      fetched? m.processor m.memory = .error fault ∨
        ∃ fetched, fetched? m.processor m.memory = .ok fetched ∧
          planFor comparison fetched { m.processor with state := .running } m.memory =
            .error fault := Except.bind_eq_error_iff
  have instructed (fetched : Fetched) : _ ↔ InstructionFault comparison m.processor.registers
      m.memory m.output fetched.a fetched.b fetched.opcode fault :=
    planFor_fails_iff (p := { m.processor with state := .running })
  rw [outcome_step_eq_error_iff, firstFault_iff]
  constructor
  · rintro (refused | ⟨executed, intended, plans, fails⟩)
    · rcases planned_eq_error_iff.mp refused with unfetched | ⟨fetched, fetches, unplanned⟩
      · exact .inl unfetched
      · exact .inr ⟨fetched, fetches, (instructed fetched).mp (.inl unplanned)⟩
    · obtain ⟨fetched, fetches, plans⟩ := planned_eq_ok_iff.mp plans
      exact .inr ⟨fetched, fetches, (instructed fetched).mp (.inr ⟨_, _, plans, fails⟩)⟩
  · rintro (unfetched | ⟨fetched, fetches, fails⟩)
    · exact .inl (planned_eq_error_iff.mpr (.inl unfetched))
    · rcases (instructed fetched).mpr fails with unplanned | ⟨executed, intended, plans, fails⟩
      · exact .inl (planned_eq_error_iff.mpr (.inr ⟨fetched, fetches, unplanned⟩))
      · exact .inr ⟨executed, intended, planned_eq_ok_iff.mpr ⟨fetched, fetches, plans⟩, fails⟩

/-- A step ends with the fault of its first check that fails, and succeeds if there is none; where
the memory ends early enough, no build aborts it. -/
theorem step_faults_by_first_check {cells : M → Nat} (counted : EndsAfter cells)
    (small : cells m.memory ≤ 65532) (comparison : Comparison) :
    (∀ fault, outcome (step comparison) m = .error fault ↔ FirstFault comparison m fault) ∧
      ((∃ executed, outcome (step comparison) m = .ok executed) ↔
        ∀ fault, ¬FirstFault comparison m fault) ∧
      ∀ overflow, m.Completes overflow comparison := by
  have faults : ∀ fault, outcome (step comparison) m = .error fault ↔
      FirstFault comparison m fault := fun _ => outcome_step_eq_error_iff_firstFault
  have confined : m.Confined := ⟨cells, counted, small⟩
  refine ⟨faults, ?_, fun overflow => confined.completes overflow comparison⟩
  simp only [← faults]
  cases outcome (step comparison) m <;> simp

/-- The second operand is behind the last cell, so neither the missing register nor the missing
stack cell is looked at. -/
theorem step_faults_by_first_check_short_push :
    let memory : HostMemory := HostMemory.ofSize 2 [0x45, 9]
    let m : Machine HostMemory Sink := { memory, output := {}, diagnostics := {} }
    EndsAfter HostMemory.size ∧ m.memory.size ≤ 65532 ∧
      FirstFault .contents m (.addressing 2) ∧ ¬FirstFault .contents m (.register 9) ∧
      ¬∃ executed, outcome (step .contents) m = .ok executed := by
  intro memory m
  have small : m.memory.size ≤ 65532 := by decide
  obtain ⟨faults, succeeds, -⟩ := step_faults_by_first_check EndsAfter.host small .contents
  have failed : outcome (step .contents) m = .error (.addressing 2) := by decide +kernel
  have first := (faults _).mp failed
  refine ⟨EndsAfter.host, small, first, ?_, fun ok => succeeds.mp ok _ first⟩
  intro second
  cases failed.symm.trans ((faults _).mpr second)

end Machine

end ByteMachine
