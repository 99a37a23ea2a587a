import ByteMachine.Proofs.Plan

/-!
# Steps that fault

A step faults before it has done anything, or the one thing that it does fails. Main statement: a
step that faults leaves the machine as it was but for its state, what the output took, and the stack
pointer of a push that the memory refused.
-/

namespace ByteMachine

theorem FailsOnly.intent {M : Type} [Memory M] [PlainMemory M] (comparison : Comparison)
    (opcode : Opcode) (a b : UInt8) (p : Processor) (memory : M) :
    FailsOnly (fun fault => fault.OfOperands ∨
        PlainMemory.get memory p.stackPointer.toNat = .error fault)
      (Machine.intent comparison opcode a b p memory) := by
  have named : FailsOnly (fun fault => fault.OfOperands ∨
      PlainMemory.get memory p.stackPointer.toNat = .error fault) (Registers.index a) :=
    (index a).imp .inl
  cases opcode with
  | hlt => exact ok _
  | ldi => exact named.map _
  | prn => exact (named.map _).map _
  | push => exact (named.map _).map _
  | pop => exact named.bind fun _ => bind (fun _ refused => .inr refused) fun _ => ok _
  | alu operation => exact ((evaluate _ _ _ _ _).imp .inl).map _

namespace Machine

variable {M W : Type} {α : Type}

theorem eq_error_of_outcome {act : Action M W α} {m : Machine M W} {fault : Fault}
    (faults : outcome act m = .error fault) : act m = .error fault (after act m) := by
  cases acted : act m with
  | ok value m' => cases (outcome_eq_of_ok acted).symm.trans faults
  | error fault' m' =>
    cases (outcome_eq_of_error acted).symm.trans faults
    rw [after_eq_of_error acted]

variable [Memory M] [PlainMemory M]

/-- The checks that a step makes: it fetches, it looks at its operands, and it pops. -/
theorem planned_error {comparison : Comparison} {m : Machine M W} {fault : Fault}
    (refused : planned comparison m = .error fault) :
    fetched? m.processor m.memory = .error fault ∨ fault.OfOperands ∨
      PlainMemory.get m.memory m.processor.stackPointer.toNat = .error fault := by
  have checks : FailsOnly (fun fault => fetched? m.processor m.memory = .error fault ∨
      fault.OfOperands ∨ PlainMemory.get m.memory m.processor.stackPointer.toNat = .error fault)
      (planned comparison m) := by
    refine FailsOnly.bind (fun _ unfetched => .inl unfetched) fun fetched => ?_
    unfold planFor
    split
    · exact FailsOnly.ok _
    · exact ((FailsOnly.intent _ _ _ _ _ _).map _).imp .inr
  exact checks fault refused

theorem not_isOutput_of_planned {comparison : Comparison} {m : Machine M W} {fault : Fault}
    (refused : planned comparison m = .error fault) : ¬fault.IsOutput := by
  rcases planned_error refused with unfetched | own | unpopped
  · exact (FailsOnly.fetched? _ _ _ unfetched).not_isOutput
  · exact own.not_isOutput
  · exact (FailsOnly.get _ _ _ unpopped).not_isOutput

/-- The next step is a push, and the memory refuses to store what it pushes. -/
def PushRefused (m : Machine M W) : Prop :=
  ∃ fetched value fault, fetched? m.processor m.memory = .ok fetched ∧
    fetched.opcode = Opcode.push.byte ∧ m.processor.registers.read fetched.a = .ok value ∧
      PlainMemory.set m.memory (m.processor.stackPointer - 1).toNat value = .error fault

theorem PushRefused.planned {m : Machine M W} (refused : m.PushRefused) (comparison : Comparison) :
    ∃ value, Machine.planned comparison m = .ok (.instruction .push, .push value) := by
  obtain ⟨fetched, value, -, fetches, pushes, found, -⟩ := refused
  exact ⟨value, planned_eq_push_iff.mpr ⟨rfl, fetched, fetches, pushes, found⟩⟩

theorem not_pushRefused_ram (m : Machine Ram W) : ¬m.PushRefused := by
  rintro ⟨_, value, fault, -, -, -, refused⟩
  have stored := Bank.set_of_lt m.memory value (m.processor.stackPointer - 1).toNat_lt
  cases stored.symm.trans refused

variable [Writer W]

/-- How a step can fault, and what it then leaves of the machine, up to what is recorded. -/
inductive Spoiled (comparison : Comparison) (m : Machine M W) : Fault → Machine M W → Prop where
  | intact {fault m'} : planned comparison m = .error fault →
      Coincide m' { m with processor.state := .faulted } → Spoiled comparison m fault m'
  | output {executed cause m'} (text : String) :
      planned comparison m = .ok (executed, .print text) →
      (Writer.print m.output text).1 = .error cause →
      Coincide m' { m with
        processor.state := .faulted
        output := (Writer.print m.output text).2 } →
      Spoiled comparison m (.output cause) m'
  /-- A push has lowered the stack pointer when its store is refused. -/
  | lowered {executed fault m'} (value : UInt8) :
      planned comparison m = .ok (executed, .push value) →
      PlainMemory.set m.memory (m.processor.stackPointer - 1).toNat value = .error fault →
      Coincide m' { m with processor := { m.processor.lowered with state := .faulted } } →
      Spoiled comparison m fault m'

variable {comparison : Comparison} {m m' : Machine M W} {fault : Fault}

theorem step_error (failed : step comparison m = .error fault m') :
    Spoiled comparison m fault m' := by
  cases plans : planned comparison m with
  | error fault' =>
    have ends := sameEnd_step_of_refused plans
    rw [failed] at ends
    obtain ⟨_, ⟨⟩, coincide⟩ := ends.of_error
    exact .intact plans coincide
  | ok chosen =>
    obtain ⟨executed, intent⟩ := chosen
    cases intent with
    | update p =>
      have ends := sameEnd_step_of_update plans
      rw [failed] at ends
      obtain ⟨_, ⟨⟩, -⟩ := ends.of_error
    | print text =>
      cases printed : (Writer.print m.output text).1 with
      | ok _ =>
        have ends := sameEnd_step_of_printed plans printed
        rw [failed] at ends
        obtain ⟨_, ⟨⟩, -⟩ := ends.of_error
      | error cause =>
        have ends := sameEnd_step_of_unprinted plans printed
        rw [failed] at ends
        obtain ⟨_, ⟨⟩, coincide⟩ := ends.of_error
        exact .output text plans printed coincide
    | push value =>
      cases stored : PlainMemory.set m.memory (m.processor.stackPointer - 1).toNat value with
      | ok memory =>
        have ends := sameEnd_step_of_stored plans stored
        rw [failed] at ends
        obtain ⟨_, ⟨⟩, -⟩ := ends.of_error
      | error fault' =>
        have ends := sameEnd_step_of_unstored plans stored
        rw [failed] at ends
        obtain ⟨_, ⟨⟩, coincide⟩ := ends.of_error
        exact .lowered value plans stored coincide

/-- Only a print faults by the output. -/
theorem step_output_error {cause : WriteError}
    (failed : step comparison m = .error (.output cause) m') :
    ∃ text, planned comparison m = .ok (.instruction .prn, .print text) ∧
      (Writer.print m.output text).1 = .error cause ∧
      Coincide m' { m with
        processor.state := .faulted
        output := (Writer.print m.output text).2 } := by
  cases step_error failed with
  | intact refused => exact absurd ⟨cause, rfl⟩ (not_isOutput_of_planned refused)
  | output text plans refused left =>
    obtain ⟨rfl, -⟩ := planned_eq_print_iff.mp plans
    exact ⟨text, plans, refused, left⟩
  | lowered value _ refused => cases PlainMemory.set_fault refused

/-- What a step that ends with this fault leaves of the machine. -/
structure LeftIntact (comparison : Comparison) (m : Machine M W) (fault : Fault)
    (m' : Machine M W) : Prop where
  pc : m'.processor.pc = m.processor.pc
  flags : m'.processor.flags = m.processor.flags
  executed : m'.processor.executed = m.processor.executed
  memory : m'.memory = m.memory
  state : m'.processor.state = .faulted
  output : ¬fault.IsOutput → m'.output = m.output
  registers : ¬m.PushRefused → m'.processor.registers = m.processor.registers
  lowered : m.PushRefused → m'.processor.registers = m.processor.lowered.registers
  /-- On any output, the next step ends with the same fault and changes nothing. -/
  again : ¬fault.IsOutput → ¬m.PushRefused → ∀ output,
    SameEnd (step comparison { m' with output }) (.error fault { m' with output })

theorem again_of_refused (refused : planned comparison m = .error fault)
    (left : Coincide m' { m with processor.state := .faulted }) (output : W) :
    SameEnd (step comparison { m' with output }) (.error fault { m' with output }) := by
  obtain ⟨processor, memory, -⟩ := left
  have refused' : planned comparison { m' with output } = .error fault := by
    simp only [planned, processor, memory]
    exact refused
  apply (sameEnd_step_of_refused refused').trans
  exact .error ⟨by rw [processor], rfl, rfl⟩

/-- A step checks all that it can before it does anything, except that a push lowers the stack
pointer before the memory can refuse its store, which the machine's own memory never does. -/
theorem faulted_step_leaves_intact (failed : step comparison m = .error fault m') :
    LeftIntact comparison m fault m' ∧ ∀ computer : Machine Ram W, ¬computer.PushRefused := by
  refine ⟨?_, not_pushRefused_ram⟩
  cases step_error failed with
  | intact refused left =>
    obtain ⟨processor, memory, output⟩ := left
    have unpushed : ¬m.PushRefused := by
      intro pushes
      obtain ⟨value, plans⟩ := pushes.planned comparison
      cases plans.symm.trans refused
    constructor
    case memory => exact memory
    case output => exact fun _ => output
    case lowered => exact fun pushes => absurd pushes unpushed
    case again => exact fun _ _ => again_of_refused refused ⟨processor, memory, output⟩
    all_goals rw [processor]
    exact fun _ => rfl
  | output text plans refused left =>
    obtain ⟨processor, memory, -⟩ := left
    have unpushed : ¬m.PushRefused := by
      intro pushes
      obtain ⟨value, plans'⟩ := pushes.planned comparison
      cases plans.symm.trans plans'
    constructor
    case memory => exact memory
    case output => exact fun own => absurd ⟨_, rfl⟩ own
    case lowered => exact fun pushes => absurd pushes unpushed
    case again => exact fun own => absurd ⟨_, rfl⟩ own
    all_goals rw [processor]
    exact fun _ => rfl
  | lowered value plans refused left =>
    obtain ⟨processor, memory, output⟩ := left
    have pushes : m.PushRefused := by
      obtain ⟨-, fetched, fetches, isPush, found⟩ := planned_eq_push_iff.mp plans
      exact ⟨fetched, value, fault, fetches, isPush, found, refused⟩
    constructor
    case memory => exact memory
    case output => exact fun _ => output
    case registers => exact fun unpushed => absurd pushes unpushed
    case again => exact fun _ unpushed => absurd pushes unpushed
    all_goals rw [processor]
    · rfl
    · rfl
    · rfl
    · exact fun _ => rfl

/-- A memory of three cells holds a push but nothing for it to store into. -/
theorem faulted_step_leaves_intact_push_outside :
    let m : Machine HostMemory Sink :=
      { memory := HostMemory.ofSize 3 [0x45, 0, 1], output := {}, diagnostics := {} }
    let left := after (step .contents) m
    step .contents m = .error (.addressing 0xF3) left ∧ m.PushRefused ∧
      LeftIntact .contents m (.addressing 0xF3) left ∧ left.processor.stackPointer = 0xF3 := by
  intro m left
  have failed : step .contents m = .error (.addressing 0xF3) left :=
    eq_error_of_outcome (by decide +kernel)
  have top : (m.processor.stackPointer - 1).toNat = 0xF3 := by decide +kernel
  have pushes : m.PushRefused := by
    refine ⟨{ opcode := 0x45, a := 0, b := 1 }, 0, .addressing 0xF3, by decide +kernel, rfl, rfl,
      ?_⟩
    rw [top]
    rfl
  have intact := (faulted_step_leaves_intact failed).1
  have lowered : m.processor.lowered.stackPointer = 0xF3 := by decide +kernel
  refine ⟨failed, pushes, intact, ?_⟩
  rw [Processor.stackPointer, intact.lowered pushes]
  exact lowered

end Machine

end ByteMachine
