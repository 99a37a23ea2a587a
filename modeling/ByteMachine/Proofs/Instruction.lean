import ByteMachine.Proofs.Output
import ByteMachine.Proofs.PlainMemory
import ByteMachine.Proofs.Run

/-!
# What each instruction does

Equations for the instructions once their operands are known, and whom their faults blame.
-/

namespace ByteMachine

/-- The fault of an output or of the diagnostics, not of the program. -/
def Fault.IsOutput (fault : Fault) : Prop := ∃ cause, fault = .output cause

/-- The memory is to blame: it refuses an access. -/
def Fault.IsAddressing (fault : Fault) : Prop := ∃ address, fault = .addressing address

/-- The operands are to blame: one names no register, or a divisor is zero. -/
def Fault.OfOperands (fault : Fault) : Prop :=
  fault = .divisionByZero ∨ ∃ index, fault = .register index

/-- If this fails, then with such a fault. -/
def FailsOnly {α : Type} (allowed : Fault → Prop) (result : Except Fault α) : Prop :=
  ∀ fault, result = .error fault → allowed fault

/-- The stack pointer as a push leaves it. -/
def Processor.lowered (p : Processor) : Processor :=
  p.setRegister Registers.stackPointer (p.stackPointer - 1)

/-- The stack pointer as a pop leaves it. -/
def Processor.raised (p : Processor) : Processor :=
  p.setRegister Registers.stackPointer (p.stackPointer + 1)

theorem Fault.IsAddressing.not_isOutput {fault : Fault} (refused : fault.IsAddressing) :
    ¬fault.IsOutput := by
  obtain ⟨address, rfl⟩ := refused
  exact fun ⟨_, same⟩ => nomatch same

theorem Fault.OfOperands.not_isOutput {fault : Fault} (own : fault.OfOperands) :
    ¬fault.IsOutput := by
  rintro ⟨cause, rfl⟩
  rcases own with same | ⟨index, same⟩ <;> cases same

theorem Fault.OfOperands.not_isAddressing {fault : Fault} (own : fault.OfOperands) :
    ¬fault.IsAddressing := by
  rintro ⟨address, rfl⟩
  rcases own with same | ⟨index, same⟩ <;> cases same

namespace FailsOnly

variable {α β : Type} {allowed : Fault → Prop}

theorem ok (value : α) : FailsOnly allowed (.ok value) := fun _ same => nomatch same

theorem error {fault : Fault} (own : allowed fault) :
    FailsOnly allowed (.error fault : Except Fault α) := by
  rintro _ ⟨⟩
  exact own

theorem imp {allowed' : Fault → Prop} {result : Except Fault α} (first : FailsOnly allowed result)
    (wider : ∀ {fault}, allowed fault → allowed' fault) : FailsOnly allowed' result :=
  fun fault failed => wider (first fault failed)

theorem bind {result : Except Fault α} {next : α → Except Fault β}
    (first : FailsOnly allowed result) (second : ∀ value, FailsOnly allowed (next value)) :
    FailsOnly allowed (result >>= next) := by
  cases result with
  | ok value => exact second value
  | error fault => exact error (first fault rfl)

theorem map {result : Except Fault α} (first : FailsOnly allowed result) (f : α → β) :
    FailsOnly allowed (result.map f) := by
  cases result with
  | ok value => exact ok (f value)
  | error fault => exact error (first fault rfl)

theorem index (i : UInt8) : FailsOnly Fault.OfOperands (Registers.index i) :=
  fun _ unnamed => .inr ⟨i, (Registers.index_eq_error_iff.mp unnamed).2⟩

theorem operands (registers : Registers) (a b : UInt8) :
    FailsOnly Fault.OfOperands (Alu.operands registers a b) :=
  (index a).bind fun _ => ((index b).map _).bind fun _ => ok _

theorem evaluate (comparison : Comparison) (operation : AluOperation) (a b : UInt8)
    (registers : Registers) :
    FailsOnly Fault.OfOperands (Alu.evaluate comparison operation a b registers) := by
  cases operation with
  | add => exact (operands registers a b).bind fun _ => ok _
  | sub => exact (operands registers a b).bind fun _ => ok _
  | mul => exact (operands registers a b).bind fun _ => ok _
  | div =>
    refine (operands registers a b).bind fun (target, x, y) => ?_
    by_cases zero : y = 0
    · simp only [zero, if_true]
      exact error (.inl rfl)
    · simp only [zero, if_false]
      exact ok _
  | cmp =>
    cases comparison with
    | contents => exact ((operands registers a b).map _).bind fun _ => ok _
    | indices => exact ok _

variable {M W : Type} [Memory M] [Writer W] [PlainMemory M]

theorem get (memory : M) (address : Nat) :
    FailsOnly Fault.IsAddressing (PlainMemory.get memory address) :=
  fun _ refused => ⟨address, PlainMemory.get_fault refused⟩

theorem fetched? (p : Processor) (memory : M) :
    FailsOnly Fault.IsAddressing (Machine.fetched? p memory) :=
  (get memory _).bind fun _ => (get memory _).bind fun _ => (get memory _).bind fun _ => ok _

end FailsOnly

namespace Machine

variable {M W α : Type} {comparison : Comparison} {a b : UInt8} {r : RegisterIndex} {fault : Fault}

theorem getRegister_named (named : Registers.index a = .ok r) (m : Machine M W) :
    getRegister a m = .ok (m.processor.registers.get r) m := by
  simp only [getRegister, Registers.read, named, Except.map, settle]

theorem getRegister_unnamed (unnamed : Registers.index a = .error fault) (m : Machine M W) :
    getRegister a m = .error fault m := by
  simp only [getRegister, Registers.read, unnamed, Except.map, settle]

variable [Memory M] [Writer W]

theorem perform_ldi (named : Registers.index a = .ok r) (m : Machine M W) :
    perform comparison .ldi a b m =
      .ok () { m with processor := m.processor.setRegister r b } := by
  simp only [perform, setRegister, named, settle, bind, EStateM.bind, updateProcessor]

theorem perform_prn (named : Registers.index a = .ok r) (m : Machine M W) :
    perform comparison .prn a b m =
      print (Text.decimal (m.processor.registers.get r).toNat ++ "\n") m := by
  simp only [perform, bind, EStateM.bind, getRegister_named named]

theorem perform_push (named : Registers.index a = .ok r) (m : Machine M W) :
    perform comparison .push a b m =
      write (m.processor.stackPointer - 1).toNat (m.processor.registers.get r)
        { m with processor := m.processor.lowered } := by
  simp only [perform, bind, EStateM.bind, getRegister_named named, push_apply, setStackPointer,
    updateProcessor, Processor.lowered]

/-- The target is checked before anything is read, and written after the stack pointer. -/
theorem perform_pop [PlainMemory M] (named : Registers.index a = .ok r) (m : Machine M W) :
    perform comparison .pop a b m =
      match PlainMemory.get m.memory m.processor.stackPointer.toNat with
      | .ok value => .ok () { m with processor := m.processor.raised.setRegister r value }
      | .error fault => .error fault m := by
  simp only [perform, named, bind, EStateM.bind, settle, pop_apply, read_plain]
  cases PlainMemory.get m.memory m.processor.stackPointer.toNat <;> rfl

theorem perform_unnamed (unnamed : Registers.index a = .error fault) {opcode : Opcode}
    (simple : opcode ∈ [.ldi, .prn, .push, .pop]) (m : Machine M W) :
    perform comparison opcode a b m = .error fault m := by
  simp only [List.mem_cons, List.not_mem_nil, or_false] at simple
  rcases simple with rfl | rfl | rfl | rfl
  · simp only [perform, setRegister, unnamed, settle, bind, EStateM.bind]
  · simp only [perform, bind, EStateM.bind, getRegister_unnamed unnamed]
  · simp only [perform, bind, EStateM.bind, getRegister_unnamed unnamed]
  · simp only [perform, unnamed, settle, bind, EStateM.bind]

theorem perform_alu_ok {operation : AluOperation} {effect : Alu.Effect} {m : Machine M W}
    (evaluated : Alu.evaluate comparison operation a b m.processor.registers = .ok effect) :
    perform comparison (.alu operation) a b m = apply effect m := by
  simp only [perform_alu, evaluated, settle, bind, EStateM.bind]

theorem perform_alu_error {operation : AluOperation} {m : Machine M W}
    (evaluated : Alu.evaluate comparison operation a b m.processor.registers = .error fault) :
    perform comparison (.alu operation) a b m = .error fault m := by
  simp only [perform_alu, evaluated, settle, bind, EStateM.bind]

variable [PlainMemory M]

/-- A step needs no more of the machine than what it fetches. -/
theorem step_plain (comparison : Comparison) (m : Machine M W) :
    step comparison m =
      attempt (settle (fetched? m.processor m.memory) >>= execute comparison) m := by
  have fetches : fetch { m with processor.state := .running } =
      settle (fetched? m.processor m.memory) { m with processor.state := .running } :=
    fetch_plain _
  have started : (fetch >>= execute comparison) { m with processor.state := .running } =
      (settle (fetched? m.processor m.memory) >>= execute comparison)
        { m with processor.state := .running } := by
    simp only [bind, EStateM.bind, fetches]
  exact attempt_congr started

end Machine

end ByteMachine
