import ByteMachine.Machine.Frame
import ByteMachine.Machine.Report
import ByteMachine.Memory.Bank

/-!
# One step

Fetch three bytes, decode the first and execute it on the other two. Main statement: what is
executed passes control on by its length, unless it halts the machine.
-/

namespace ByteMachine

/-- The three bytes at the program counter: an opcode and what would be its operands. -/
structure Fetched where
  opcode : UInt8
  a : UInt8
  b : UInt8
  deriving DecidableEq, Repr

/-- What a step did: execute an instruction, or skip a byte that encodes none. -/
inductive Executed where
  | instruction (opcode : Opcode)
  | unknown (byte : UInt8)
  deriving DecidableEq, Repr

/-- The bytes that a step passes over, unless it halts the machine. -/
def Executed.length : Executed → Nat
  | .instruction opcode => opcode.length
  | .unknown byte => instructionLength byte

theorem Executed.length_pos (executed : Executed) : 0 < executed.length := by
  cases executed <;> exact instructionLength_pos _

theorem Executed.length_le_four (executed : Executed) : executed.length ≤ 4 := by
  cases executed <;> exact instructionLength_le_four _

/-- What a build makes of a sum that its sixteen bits do not hold: the sum wraps around, or the
program is aborted. -/
inductive Overflow where
  | wraps
  | aborts
  deriving DecidableEq, Repr

namespace Machine

variable {M W : Type} [Memory M]

/-- Operand addresses wrap at the top of memory, the address of the opcode does not. Both operands
are fetched whether the instruction uses them or not. -/
def fetch : Action M W Fetched := do
  let pc := (← get).processor.pc
  let opcode ← read pc
  let a ← read ((pc + 1) % memorySize)
  let b ← read ((pc + 2) % memorySize)
  return { opcode, a, b }

theorem Keeps.fetch {γ : Type} {view : Machine M W → γ}
    (reads : ∀ address, Keeps view (Machine.read address)) : Keeps view fetch :=
  Keeps.bind Keeps.get fun _ => Keeps.bind (reads _) fun _ => Keeps.bind (reads _) fun _ =>
    Keeps.bind (reads _) fun _ => Keeps.pure _

theorem keeps_processor_fetch : Keeps (M := M) (W := W) Machine.processor fetch :=
  Keeps.fetch fun _ => Keeps.read fun _ _ _ => rfl

theorem fetch_apply (m : Machine M W) :
    fetch m =
      (do
        let opcode ← read m.processor.pc
        let a ← read ((m.processor.pc + 1) % memorySize)
        let b ← read ((m.processor.pc + 2) % memorySize)
        return { opcode, a, b } : Action M W Fetched) m := rfl

/-- Try to execute something: it is counted if that succeeds, and a fault shows in the state. -/
def attempt (act : Action M W Executed) : Action M W Executed := fun m =>
  match (do setState .running; act : Action M W Executed) m with
  | .ok executed m =>
    .ok executed { m with processor.executed := m.processor.executed + 1 }
  | .error fault m =>
    .error fault { m with
      processor.state := .faulted
      log := m.log.push (Report.faulted m.processor.pc fault) }

omit [Memory M] in
theorem attempt_apply (act : Action M W Executed) (m : Machine M W) :
    attempt act m =
      match act { m with processor.state := .running } with
      | .ok executed m =>
        .ok executed { m with processor.executed := m.processor.executed + 1 }
      | .error fault m =>
        .error fault { m with
          processor.state := .faulted
          log := m.log.push (Report.faulted m.processor.pc fault) } := rfl

omit [Memory M] in
theorem attempt_congr {f g : Action M W Executed} {m : Machine M W}
    (same : f { m with processor.state := .running } = g { m with processor.state := .running }) :
    attempt f m = attempt g m := by
  rw [attempt_apply, attempt_apply, same]

def advance (length : Nat) : Action M W Unit := updateProcessor (·.advance length)

def apply : Alu.Effect → Action M W Unit
  | .register r value => updateProcessor (·.setRegister r value)
  | .flags flags => updateProcessor fun p => { p with flags }

variable [Writer W]

/-- What an instruction does, apart from passing control on. -/
def perform (comparison : Comparison) (opcode : Opcode) (a b : UInt8) : Action M W Unit :=
  match opcode with
  | .hlt => setState .halted
  | .ldi => setRegister a b
  | .prn => do
    let value ← getRegister a
    print (Text.decimal value.toNat ++ "\n")
  | .push => do
    let value ← getRegister a
    push value
  | .pop => do
    let target ← settle (Registers.index a)
    let value ← pop
    updateProcessor (·.setRegister target value)
  | .alu operation => do
    let registers := (← get).processor.registers
    let effect ← settle (Alu.evaluate comparison operation a b registers)
    apply effect

/-- Execute what was fetched. No instruction jumps, so all but the halt pass control to the bytes
that follow them. -/
def execute (comparison : Comparison) (fetched : Fetched) : Action M W Executed := do
  let pc := (← get).processor.pc
  match Opcode.ofByte? fetched.opcode with
  | none =>
    report (Report.unknownOpcode pc fetched.opcode)
    advance (instructionLength fetched.opcode)
    return .unknown fetched.opcode
  | some opcode =>
    report (Report.decoded pc opcode fetched.a fetched.b)
    perform comparison opcode fetched.a fetched.b
    unless opcode = .hlt do advance opcode.length
    return .instruction opcode

def step (comparison : Comparison) : Action M W Executed :=
  attempt do execute comparison (← fetch)

/-- The next step moves the program counter past sixteen bits. -/
def Overruns (comparison : Comparison) (m : Machine M W) : Prop :=
  match step comparison m with
  | .ok executed _ =>
    executed ≠ .instruction .hlt ∧ addressSpace ≤ m.processor.pc + executed.length
  | .error .. => False

/-- The next step comes to an end, with a value or a fault. -/
def Completes (overflow : Overflow) (comparison : Comparison) (m : Machine M W) : Prop :=
  overflow = .aborts → ¬m.Overruns comparison

/-- An instruction changes the memory only if it is a push, the output only if it prints, the state
only if it halts, and never what control goes by. -/
theorem Keeps.perform {γ : Type} {view : Machine M W → γ} (comparison : Comparison)
    (opcode : Opcode) (a b : UInt8)
    (update : ∀ (m : Machine M W) (p : Processor), p.pc = m.processor.pc →
      p.executed = m.processor.executed → (opcode ≠ .hlt → p.state = m.processor.state) →
      view { m with processor := p } = view m)
    (reads : ∀ address, Keeps view (Machine.read address))
    (writes : opcode = .push → ∀ address value, Keeps view (Machine.write address value))
    (prints : opcode = .prn → ∀ text, Keeps view (Machine.print text)) :
    Keeps view (Machine.perform comparison opcode a b) := by
  cases opcode with
  | hlt => exact fun m => update m _ rfl rfl fun running => absurd rfl running
  | ldi => exact Keeps.setRegister fun m _ => update m _ rfl rfl fun _ => rfl
  | prn => exact Keeps.bind (Keeps.getRegister a) fun _ => prints rfl _
  | push =>
    exact Keeps.bind (Keeps.getRegister a) fun _ =>
      Keeps.push (fun m _ => update m _ rfl rfl fun _ => rfl) fun address => writes rfl address _
  | pop =>
    exact Keeps.bind (Keeps.settle _) fun _ =>
      Keeps.bind (Keeps.pop (fun m _ => update m _ rfl rfl fun _ => rfl) reads) fun _ =>
        Keeps.updateProcessor fun m => update m _ rfl rfl fun _ => rfl
  | alu operation =>
    refine Keeps.bind Keeps.get fun _ => Keeps.bind (Keeps.settle _) fun effect => ?_
    cases effect <;> exact fun m => update m _ rfl rfl fun _ => rfl

/-- What control goes by: where the program is, and how far. -/
theorem keeps_control_perform (comparison : Comparison) (opcode : Opcode) (a b : UInt8) :
    Keeps (M := M) (W := W) (fun m => (m.processor.pc, m.processor.executed))
      (perform comparison opcode a b) :=
  Keeps.perform comparison opcode a b (fun _ _ pc executed _ => Prod.ext pc executed)
    (fun _ => Keeps.read fun _ _ _ => rfl) (fun _ _ _ => Keeps.write fun _ _ _ => rfl)
    (fun _ _ => Keeps.print fun _ _ => rfl)

theorem keeps_state_perform (comparison : Comparison) {opcode : Opcode} (running : opcode ≠ .hlt)
    (a b : UInt8) : Keeps (M := M) (W := W) (·.processor.state) (perform comparison opcode a b) :=
  Keeps.perform comparison opcode a b (fun _ _ _ _ state => state running)
    (fun _ => Keeps.read fun _ _ _ => rfl) (fun _ _ _ => Keeps.write fun _ _ _ => rfl)
    (fun _ _ => Keeps.print fun _ _ => rfl)

/-- Executing keeps what its instruction keeps, apart from the program counter. -/
theorem Keeps.execute {γ : Type} {view : Machine M W → γ} (comparison : Comparison)
    (fetched : Fetched) (reports : ∀ (m : Machine M W) log, view { m with log } = view m)
    (advances : ∀ (m : Machine M W) counter, view { m with processor.counter := counter } = view m)
    (performs : ∀ opcode, Opcode.ofByte? fetched.opcode = some opcode →
      Keeps view (Machine.perform comparison opcode fetched.a fetched.b)) :
    Keeps view (Machine.execute comparison fetched) := by
  have advance (length : Nat) : Keeps view (Machine.advance length) :=
    Keeps.updateProcessor fun m => advances m (m.processor.advance length).counter
  refine Keeps.bind Keeps.get fun _ => ?_
  cases decoded : Opcode.ofByte? fetched.opcode with
  | none =>
    exact Keeps.bind (Keeps.report reports) fun _ => Keeps.bind (advance _) fun _ => Keeps.pure _
  | some opcode =>
    refine Keeps.bind (Keeps.report reports) fun _ =>
      Keeps.bind (performs opcode decoded) fun _ => ?_
    by_cases halts : opcode = .hlt
    · simp only [halts, if_true]
      exact Keeps.bind (Keeps.pure _) fun _ => Keeps.pure _
    · simp only [halts, if_false]
      exact Keeps.bind (advance _) fun _ => Keeps.pure _

theorem execute_of_unknown {fetched : Fetched} (unknown : Opcode.ofByte? fetched.opcode = none)
    (comparison : Comparison) (m : Machine M W) :
    execute comparison fetched m = .ok (.unknown fetched.opcode)
      { m with
        processor := m.processor.advance (instructionLength fetched.opcode)
        log := m.log.push (Report.unknownOpcode m.processor.pc fetched.opcode) } := by
  rw [execute, get_bind]
  simp only [unknown]
  rfl

theorem execute_of_known {fetched : Fetched} {opcode : Opcode}
    (known : Opcode.ofByte? fetched.opcode = some opcode) (comparison : Comparison)
    (m : Machine M W) :
    execute comparison fetched m =
      match perform comparison opcode fetched.a fetched.b
        { m with log := m.log.push (Report.decoded m.processor.pc opcode fetched.a fetched.b) } with
      | .error fault m => .error fault m
      | .ok _ m => .ok (.instruction opcode)
          (if opcode = .hlt then m
            else { m with processor := m.processor.advance opcode.length }) := by
  rw [execute, get_bind]
  simp only [known, bind, EStateM.bind, report]
  cases perform comparison opcode fetched.a fetched.b
    { m with log := m.log.push (Report.decoded m.processor.pc opcode fetched.a fetched.b) } with
  | error fault m => rfl
  | ok value m =>
    by_cases halts : opcode = .hlt
    · subst halts
      rfl
    · simp only [if_neg halts]
      rfl

theorem executed_eq_instruction_iff {comparison : Comparison} {fetched : Fetched}
    {m m' : Machine M W} {executed : Executed}
    (executes : execute comparison fetched m = .ok executed m') {opcode : Opcode} :
    executed = .instruction opcode ↔ fetched.opcode = opcode.byte := by
  cases decoded : Opcode.ofByte? fetched.opcode with
  | none =>
    rw [execute_of_unknown decoded] at executes
    cases executes
    have other : fetched.opcode ≠ opcode.byte := by
      intro same
      rw [same, Opcode.ofByte?_byte] at decoded
      cases decoded
    simp [other]
  | some opcode' =>
    have byte := Opcode.ofByte?_eq_some_iff.mp decoded
    rw [execute_of_known decoded] at executes
    split at executes
    · cases executes
    · cases executes
      rw [← byte, Executed.instruction.injEq]
      exact ⟨congrArg Opcode.byte, fun same => Opcode.byte_injective same⟩

/-- What is executed passes over as many bytes as its first one says. -/
theorem length_of_execute {comparison : Comparison} {fetched : Fetched} {m m' : Machine M W}
    {executed : Executed} (executes : execute comparison fetched m = .ok executed m') :
    executed.length = instructionLength fetched.opcode := by
  cases decoded : Opcode.ofByte? fetched.opcode with
  | none =>
    rw [execute_of_unknown decoded] at executes
    cases executes
    rfl
  | some opcode =>
    have byte := Opcode.ofByte?_eq_some_iff.mp decoded
    rw [execute_of_known decoded] at executes
    split at executes
    · cases executes
    · cases executes
      rw [← byte]
      rfl

theorem perform_hlt (comparison : Comparison) (a b : UInt8) (m : Machine M W) :
    perform comparison .hlt a b m = .ok () { m with processor.state := .halted } := rfl

theorem perform_alu (comparison : Comparison) (operation : AluOperation) (a b : UInt8)
    (m : Machine M W) :
    perform comparison (.alu operation) a b m =
      (do
        let effect ← settle (Alu.evaluate comparison operation a b m.processor.registers)
        apply effect : Action M W Unit) m := rfl

/-- How executing passes control on: past the instruction, unless that halts the machine. -/
def Passes (fetched : Fetched) (p q : Processor) : Prop :=
  if fetched.opcode = Opcode.hlt.byte then q.pc = p.pc ∧ q.state = .halted
  else q.pc = (p.pc + instructionLength fetched.opcode) % addressSpace ∧ q.state = p.state

theorem Passes.halted {fetched : Fetched} {p q : Processor} (passes : Passes fetched p q)
    (halts : fetched.opcode = Opcode.hlt.byte) : q.pc = p.pc ∧ q.state = .halted := by
  rwa [Passes, if_pos halts] at passes

theorem Passes.onwards {fetched : Fetched} {p q : Processor} (passes : Passes fetched p q)
    (running : fetched.opcode ≠ Opcode.hlt.byte) :
    q.pc = (p.pc + instructionLength fetched.opcode) % addressSpace ∧ q.state = p.state := by
  rwa [Passes, if_neg running] at passes

theorem execute_ok {comparison : Comparison} {fetched : Fetched} {m m' : Machine M W}
    {executed : Executed} (h : execute comparison fetched m = .ok executed m') :
    Passes fetched m.processor m'.processor ∧ m'.processor.executed = m.processor.executed := by
  cases decoded : Opcode.ofByte? fetched.opcode with
  | none =>
    rw [execute_of_unknown decoded] at h
    cases h
    have other : fetched.opcode ≠ Opcode.hlt.byte := by
      intro halts
      rw [halts, Opcode.ofByte?_byte] at decoded
      cases decoded
    rw [Passes, if_neg other]
    exact ⟨⟨Processor.pc_advance _ _, rfl⟩, rfl⟩
  | some opcode =>
    have byte := Opcode.ofByte?_eq_some_iff.mp decoded
    rw [execute_of_known decoded] at h
    have control := keeps_control_perform comparison opcode fetched.a fetched.b
      { m with log := m.log.push (Report.decoded m.processor.pc opcode fetched.a fetched.b) }
    have state := fun running : opcode ≠ .hlt =>
      keeps_state_perform comparison running fetched.a fetched.b
        { m with log := m.log.push (Report.decoded m.processor.pc opcode fetched.a fetched.b) }
    split at h
    · cases h
    · rename_i performed
      rw [after_eq_of_ok performed] at control state
      obtain ⟨pc, count⟩ := Prod.mk.inj control
      by_cases halts : opcode = .hlt
      · subst halts
        rw [perform_hlt] at performed
        cases performed
        cases h
        rw [Passes, if_pos byte.symm]
        exact ⟨⟨rfl, rfl⟩, rfl⟩
      · have other : fetched.opcode ≠ Opcode.hlt.byte :=
          fun same => halts (Opcode.byte_injective (byte.trans same))
        rw [if_neg halts] at h
        cases h
        rw [Passes, if_neg other, ← byte, Processor.pc_advance, pc]
        exact ⟨⟨rfl, state halts⟩, count⟩

end Machine

end ByteMachine
