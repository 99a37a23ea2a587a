import ByteMachine.Proofs.Instruction

/-!
# Plans

On a plain memory a step decides everything before it does anything: it plans, from the processor
and the memory alone, one change of the processor, one line to print or one byte to push, or it
finds a check that fails. Main statements: a step carries out its plan, and faults by a failed
check, by a failed print or by a refused push.
-/

namespace ByteMachine

/-- What is left to do once all checks have passed. -/
inductive Intent where
  | update (p : Processor)
  | print (text : String)
  | push (value : UInt8)
  deriving DecidableEq

def Processor.apply (p : Processor) : Alu.Effect → Processor
  | .register r value => p.setRegister r value
  | .flags flags => { p with flags }

/-- A processor that has done this, and counted it. -/
def Processor.past (p : Processor) (executed : Executed) : Processor :=
  { p with
    counter :=
      if executed = .instruction .hlt then p.counter else (p.advance executed.length).counter
    executed := p.executed + 1 }

theorem Processor.pc_past (p : Processor) (executed : Executed) :
    (p.past executed).pc =
      if executed = .instruction .hlt then p.pc else (p.pc + executed.length) % addressSpace := by
  unfold Processor.past
  split
  · rfl
  · exact p.pc_advance executed.length

theorem Except.map_eq_ok_iff {α β : Type} {result : Except Fault α} {f : α → β} {value : β} :
    result.map f = .ok value ↔ ∃ found, result = .ok found ∧ f found = value := by
  cases result <;> simp [Except.map]

theorem Except.bind_eq_ok_iff {α β : Type} {result : Except Fault α} {next : α → Except Fault β}
    {value : β} :
    result >>= next = .ok value ↔ ∃ found, result = .ok found ∧ next found = .ok value := by
  cases result <;> simp [bind, Except.bind]

namespace Machine

variable {M W : Type} [Memory M] [PlainMemory M]

theorem fetched?_eq_ok_iff {p : Processor} {memory : M} {fetched : Fetched} :
    fetched? p memory = .ok fetched ↔
      PlainMemory.get memory p.pc = .ok fetched.opcode ∧
        PlainMemory.get memory ((p.pc + 1) % memorySize) = .ok fetched.a ∧
        PlainMemory.get memory ((p.pc + 2) % memorySize) = .ok fetched.b := by
  simp only [fetched?, Except.bind_eq_ok_iff]
  constructor
  · rintro ⟨opcode, held, a, held', b, held'', ⟨⟩⟩
    exact ⟨held, held', held''⟩
  · rintro ⟨held, held', held''⟩
    exact ⟨_, held, _, held', _, held'', rfl⟩

/-- What an instruction is about to do, or the fault of the first check that it does not pass. -/
def intent (comparison : Comparison) (opcode : Opcode) (a b : UInt8) (p : Processor) (memory : M) :
    Except Fault Intent :=
  match opcode with
  | .hlt => .ok (.update { p with state := .halted })
  | .ldi => (Registers.index a).map fun r => .update (p.setRegister r b)
  | .prn => (p.registers.read a).map fun value => .print (Text.decimal value.toNat ++ "\n")
  | .push => (p.registers.read a).map .push
  | .pop => do
    let r ← Registers.index a
    let value ← PlainMemory.get memory p.stackPointer.toNat
    return .update (p.raised.setRegister r value)
  | .alu operation =>
    (Alu.evaluate comparison operation a b p.registers).map fun effect => .update (p.apply effect)

/-- What is planned for the bytes that have been fetched. -/
def planFor (comparison : Comparison) (fetched : Fetched) (p : Processor) (memory : M) :
    Except Fault (Executed × Intent) :=
  match Opcode.ofByte? fetched.opcode with
  | none => .ok (.unknown fetched.opcode, .update p)
  | some opcode =>
    (intent comparison opcode fetched.a fetched.b p memory).map (.instruction opcode, ·)

/-- What a step plans, or the fault of the first check that fails. -/
def plan (comparison : Comparison) (p : Processor) (memory : M) :
    Except Fault (Executed × Intent) := do
  planFor comparison (← fetched? p memory) p memory

/-- What the next step plans, when the machine is running. -/
def planned (comparison : Comparison) (m : Machine M W) : Except Fault (Executed × Intent) :=
  plan comparison { m.processor with state := .running } m.memory

section Inversion

variable {comparison : Comparison} {opcode : Opcode} {a b value : UInt8} {p : Processor}
  {memory : M} {text : String} {executed : Executed} {intended : Intent} {m : Machine M W}

/-- All but a print and a push intend no more than a change of the processor. -/
theorem update_of_intent (silent : opcode ≠ .prn) (storeless : opcode ≠ .push)
    (intends : intent comparison opcode a b p memory = .ok intended) :
    ∃ q, intended = .update q := by
  cases opcode with
  | prn => exact absurd rfl silent
  | push => exact absurd rfl storeless
  | hlt => exact ⟨_, (Except.ok.inj intends).symm⟩
  | ldi =>
    obtain ⟨r, -, rfl⟩ := Except.map_eq_ok_iff.mp intends
    exact ⟨_, rfl⟩
  | pop =>
    obtain ⟨r, -, popped⟩ := Except.bind_eq_ok_iff.mp intends
    obtain ⟨value, -, ⟨⟩⟩ := Except.bind_eq_ok_iff.mp popped
    exact ⟨_, rfl⟩
  | alu operation =>
    obtain ⟨effect, -, rfl⟩ := Except.map_eq_ok_iff.mp intends
    exact ⟨_, rfl⟩

theorem intent_eq_print_iff :
    intent comparison opcode a b p memory = .ok (.print text) ↔
      opcode = .prn ∧ ∃ value, p.registers.read a = .ok value ∧
        Text.decimal value.toNat ++ "\n" = text := by
  constructor
  · intro intends
    by_cases prints : opcode = .prn
    · subst prints
      obtain ⟨value, found, same⟩ := Except.map_eq_ok_iff.mp intends
      exact ⟨rfl, value, found, Intent.print.inj same⟩
    · by_cases pushes : opcode = .push
      · subst pushes
        obtain ⟨value, -, ⟨⟩⟩ := Except.map_eq_ok_iff.mp intends
      · obtain ⟨q, ⟨⟩⟩ := update_of_intent prints pushes intends
  · rintro ⟨rfl, value, found, rfl⟩
    exact Except.map_eq_ok_iff.mpr ⟨value, found, rfl⟩

theorem intent_eq_push_iff :
    intent comparison opcode a b p memory = .ok (.push value) ↔
      opcode = .push ∧ p.registers.read a = .ok value := by
  constructor
  · intro intends
    by_cases pushes : opcode = .push
    · subst pushes
      obtain ⟨value, found, ⟨⟩⟩ := Except.map_eq_ok_iff.mp intends
      exact ⟨rfl, found⟩
    · by_cases prints : opcode = .prn
      · subst prints
        obtain ⟨value, -, ⟨⟩⟩ := Except.map_eq_ok_iff.mp intends
      · obtain ⟨q, ⟨⟩⟩ := update_of_intent prints pushes intends
  · rintro ⟨rfl, found⟩
    exact Except.map_eq_ok_iff.mpr ⟨value, found, rfl⟩

theorem planned_eq_ok_iff :
    planned comparison m = .ok (executed, intended) ↔
      ∃ fetched, fetched? m.processor m.memory = .ok fetched ∧
        planFor comparison fetched { m.processor with state := .running } m.memory =
          .ok (executed, intended) := Except.bind_eq_ok_iff

/-- A byte that encodes no instruction is passed over, and changes nothing. -/
theorem planFor_eq_ok_iff {fetched : Fetched} (notUpdate : intended ≠ .update p) :
    planFor comparison fetched p memory = .ok (executed, intended) ↔
      ∃ opcode, opcode.byte = fetched.opcode ∧ executed = .instruction opcode ∧
        intent comparison opcode fetched.a fetched.b p memory = .ok intended := by
  unfold planFor
  split
  · rename_i unknown
    constructor
    · rintro ⟨⟩
      exact absurd rfl notUpdate
    · rintro ⟨opcode, encodes, -⟩
      rw [← encodes, Opcode.ofByte?_byte] at unknown
      cases unknown
  · rename_i opcode known
    have byte := Opcode.ofByte?_eq_some_iff.mp known
    constructor
    · intro plans
      obtain ⟨found, intends, ⟨⟩⟩ := Except.map_eq_ok_iff.mp plans
      exact ⟨opcode, byte, rfl, intends⟩
    · rintro ⟨opcode', byte', rfl, intends⟩
      cases Opcode.byte_injective (byte.trans byte'.symm)
      exact Except.map_eq_ok_iff.mpr ⟨intended, intends, rfl⟩

theorem planned_eq_print_iff :
    planned comparison m = .ok (executed, .print text) ↔
      executed = .instruction .prn ∧ ∃ fetched value,
        fetched? m.processor m.memory = .ok fetched ∧ fetched.opcode = Opcode.prn.byte ∧
          m.processor.registers.read fetched.a = .ok value ∧
            Text.decimal value.toNat ++ "\n" = text := by
  rw [planned_eq_ok_iff]
  constructor
  · rintro ⟨fetched, fetches, plans⟩
    obtain ⟨opcode, byte, rfl, intends⟩ := (planFor_eq_ok_iff (by simp)).mp plans
    obtain ⟨rfl, value, found, line⟩ := intent_eq_print_iff.mp intends
    exact ⟨rfl, fetched, value, fetches, byte.symm, found, line⟩
  · rintro ⟨rfl, fetched, value, fetches, prints, found, line⟩
    refine ⟨fetched, fetches, (planFor_eq_ok_iff (by simp)).mpr ⟨.prn, prints.symm, rfl, ?_⟩⟩
    exact intent_eq_print_iff.mpr ⟨rfl, value, found, line⟩

theorem planned_eq_push_iff :
    planned comparison m = .ok (executed, .push value) ↔
      executed = .instruction .push ∧ ∃ fetched,
        fetched? m.processor m.memory = .ok fetched ∧ fetched.opcode = Opcode.push.byte ∧
          m.processor.registers.read fetched.a = .ok value := by
  rw [planned_eq_ok_iff]
  constructor
  · rintro ⟨fetched, fetches, plans⟩
    obtain ⟨opcode, byte, rfl, intends⟩ := (planFor_eq_ok_iff (by simp)).mp plans
    obtain ⟨rfl, found⟩ := intent_eq_push_iff.mp intends
    exact ⟨rfl, fetched, fetches, byte.symm, found⟩
  · rintro ⟨rfl, fetched, fetches, pushes, found⟩
    refine ⟨fetched, fetches, (planFor_eq_ok_iff (by simp)).mpr ⟨.push, pushes.symm, rfl, ?_⟩⟩
    exact intent_eq_push_iff.mpr ⟨rfl, found⟩

theorem intent_of_planned {opcode : Opcode}
    (plans : planned comparison m = .ok (.instruction opcode, intended)) :
    ∃ fetched, fetched? m.processor m.memory = .ok fetched ∧
      Opcode.ofByte? fetched.opcode = some opcode ∧
      intent comparison opcode fetched.a fetched.b
        { m.processor with state := .running } m.memory = .ok intended := by
  obtain ⟨fetched, fetches, plans⟩ := planned_eq_ok_iff.mp plans
  unfold planFor at plans
  split at plans
  · cases plans
  · rename_i known
    obtain ⟨found, intends, ⟨⟩⟩ := Except.map_eq_ok_iff.mp plans
    exact ⟨fetched, fetches, known, intends⟩

theorem planned_of_intent {fetched : Fetched} {opcode : Opcode}
    (fetches : fetched? m.processor m.memory = .ok fetched) (byte : fetched.opcode = opcode.byte)
    (intends : intent comparison opcode fetched.a fetched.b
      { m.processor with state := .running } m.memory = .ok intended) :
    planned comparison m = .ok (.instruction opcode, intended) := by
  refine planned_eq_ok_iff.mpr ⟨fetched, fetches, ?_⟩
  rw [planFor, byte, Opcode.ofByte?_byte]
  exact Except.map_eq_ok_iff.mpr ⟨intended, intends, rfl⟩

theorem unknown_of_planned {byte : UInt8}
    (plans : planned comparison m = .ok (.unknown byte, intended)) :
    ∃ fetched, fetched? m.processor m.memory = .ok fetched ∧
      Opcode.ofByte? fetched.opcode = none := by
  obtain ⟨fetched, fetches, plans⟩ := planned_eq_ok_iff.mp plans
  unfold planFor at plans
  split at plans
  · exact ⟨fetched, fetches, ‹_›⟩
  · obtain ⟨found, -, ⟨⟩⟩ := Except.map_eq_ok_iff.mp plans

end Inversion

variable [Writer W]

def carry : Intent → Action M W Unit
  | .update p => updateProcessor fun _ => p
  | .print text => print text
  | .push value => push value

/-- Do what was intended, and pass control on unless that was to halt. -/
def fulfil (planned : Executed × Intent) : Action M W Executed := do
  carry planned.2
  unless planned.1 = .instruction .hlt do advance planned.1.length
  return planned.1

/-- Plan, and carry the plan out. -/
def carryPlan (comparison : Comparison) : Action M W Executed := fun m =>
  (settle (plan comparison m.processor m.memory) >>= fulfil) m

theorem perform_eq_carry (comparison : Comparison) (opcode : Opcode) (a b : UInt8)
    (m : Machine M W) :
    perform comparison opcode a b m =
      (settle (intent comparison opcode a b m.processor m.memory) >>= carry) m := by
  cases opcode with
  | hlt => rfl
  | ldi =>
    simp only [perform, setRegister, intent]
    cases Registers.index a <;> rfl
  | prn =>
    simp only [perform, getRegister, intent, bind, EStateM.bind]
    cases m.processor.registers.read a <;> rfl
  | push =>
    simp only [perform, getRegister, intent, bind, EStateM.bind]
    cases m.processor.registers.read a <;> rfl
  | pop =>
    cases named : Registers.index a with
    | error fault =>
      rw [perform_unnamed named (by simp), intent, named]
      rfl
    | ok r =>
      rw [perform_pop named, intent, named]
      cases PlainMemory.get m.memory m.processor.stackPointer.toNat <;> rfl
  | alu operation =>
    rw [perform_alu, intent]
    cases Alu.evaluate comparison operation a b m.processor.registers with
    | error fault => rfl
    | ok effect => cases effect <;> rfl

omit [PlainMemory M] in
theorem alike_carry (intent : Intent) :
    Alike (Coincide (M := M) (W := W)) unparted (carry intent) (carry intent) := by
  cases intent with
  | update p =>
    have constant : Processor.Respects fun _ => p := fun _ _ _ => ⟨rfl, rfl, rfl⟩
    exact Coincide.simulation.updateProcessor constant
  | print text => exact Coincide.simulation.print text
  | push value => exact Coincide.simulation.push value

theorem sameEnd_execute (comparison : Comparison) (fetched : Fetched) (m : Machine M W) :
    SameEnd (execute comparison fetched m)
      ((settle (planFor comparison fetched m.processor m.memory) >>= fulfil) m) := by
  cases decoded : Opcode.ofByte? fetched.opcode with
  | none =>
    rw [execute_of_unknown decoded, planFor, decoded]
    exact .ok ⟨rfl, rfl, rfl⟩
  | some opcode =>
    rw [execute_of_known decoded, planFor, decoded, perform_eq_carry]
    cases intended : intent comparison opcode fetched.a fetched.b m.processor m.memory with
    | error fault =>
      simp only [intended, Except.map, settle, bind, EStateM.bind]
      exact .error ⟨rfl, rfl, rfl⟩
    | ok intent =>
      simp only [intended, Except.map, settle, bind, EStateM.bind, fulfil]
      have logged : Coincide
          { m with log := m.log.push (Report.decoded m.processor.pc opcode fetched.a fetched.b) }
          m := ⟨rfl, rfl, rfl⟩
      rcases (alike_carry intent logged).inv_unparted with ⟨_, m₁, m₂, carried, carried', same⟩ |
        ⟨_, m₁, m₂, carried, carried', same⟩
      · rw [carried, carried']
        by_cases halts : opcode = .hlt
        · simp only [halts, if_true]
          exact .ok same
        · have other : Executed.instruction opcode ≠ .instruction .hlt := by
            rintro ⟨⟩
            exact halts rfl
          simp only [halts, other, if_false]
          have advances := Processor.respects_advance opcode.length
          exact .ok (Coincide.simulation.update advances same)
      · rw [carried, carried']
        exact .error same

/-- A step carries out its plan; what it says about that is only recorded. -/
theorem sameEnd_step_carryPlan (comparison : Comparison) (m : Machine M W) :
    SameEnd (step comparison m) (attempt (carryPlan comparison) m) := by
  rw [step_plain]
  apply Coincide.simulation.attempt_of_running (.refl m)
  intro _
  have fetches : fetched? { m.processor with state := .running } m.memory =
      fetched? m.processor m.memory := rfl
  simp only [carryPlan, plan, fetches]
  cases fetched? m.processor m.memory with
  | ok fetched => exact sameEnd_execute comparison fetched _
  | error fault => exact .error (.refl _)

section Planned

variable {comparison : Comparison} {m m' : Machine M W} {fault : Fault} {executed : Executed}
  {intent : Intent}

theorem sameEnd_step_of_refused (refused : planned comparison m = .error fault) :
    SameEnd (step comparison m) (.error fault { m with processor.state := .faulted }) := by
  apply (sameEnd_step_carryPlan comparison m).trans
  have stopped : carryPlan comparison { m with processor.state := .running } =
      .error fault { m with processor.state := .running } := by
    rw [planned] at refused
    simp only [carryPlan, refused, settle, bind, EStateM.bind]
  rw [attempt_apply, stopped]
  exact .error ⟨rfl, rfl, rfl⟩

theorem carryPlan_of_planned (plans : planned comparison m = .ok (executed, intent)) :
    carryPlan comparison { m with processor.state := .running } =
      fulfil (executed, intent) { m with processor.state := .running } := by
  rw [planned] at plans
  simp only [carryPlan, plans, settle, bind, EStateM.bind]

theorem sameEnd_step_of_carried (plans : planned comparison m = .ok (executed, intent))
    (carried : carry intent { m with processor.state := .running } = .ok () m') :
    SameEnd (step comparison m)
      (.ok executed { m' with processor := m'.processor.past executed }) := by
  apply (sameEnd_step_carryPlan comparison m).trans
  rw [attempt_apply, carryPlan_of_planned plans]
  simp only [fulfil, bind, EStateM.bind, carried]
  by_cases halts : executed = .instruction .hlt
  · simp only [Processor.past, halts, if_true]
    exact .ok ⟨rfl, rfl, rfl⟩
  · simp only [Processor.past, halts, if_false]
    exact .ok ⟨rfl, rfl, rfl⟩

theorem sameEnd_step_of_failed (plans : planned comparison m = .ok (executed, intent))
    (failed : carry intent { m with processor.state := .running } = .error fault m') :
    SameEnd (step comparison m) (.error fault { m' with processor.state := .faulted }) := by
  apply (sameEnd_step_carryPlan comparison m).trans
  rw [attempt_apply, carryPlan_of_planned plans]
  simp only [fulfil, bind, EStateM.bind, failed]
  exact .error ⟨rfl, rfl, rfl⟩

theorem sameEnd_step_of_update {p : Processor}
    (plans : planned comparison m = .ok (executed, .update p)) :
    SameEnd (step comparison m) (.ok executed { m with processor := p.past executed }) :=
  sameEnd_step_of_carried plans rfl

section Print

variable {text : String}

omit [PlainMemory M] in
theorem carry_print (text : String) (m : Machine M W) :
    carry (.print text) m = settle ((Writer.print m.output text).1.mapError Fault.output)
      { m with output := (Writer.print m.output text).2 } := rfl

theorem sameEnd_step_of_printed (plans : planned comparison m = .ok (executed, .print text))
    (printed : (Writer.print m.output text).1 = .ok ()) :
    SameEnd (step comparison m) (.ok executed { m with
      processor := { m.processor with state := .running }.past executed
      output := (Writer.print m.output text).2 }) := by
  have carried := carry_print text { m with processor.state := .running }
  simp only [printed] at carried
  exact sameEnd_step_of_carried plans carried

theorem sameEnd_step_of_unprinted (plans : planned comparison m = .ok (executed, .print text))
    {cause : WriteError} (refused : (Writer.print m.output text).1 = .error cause) :
    SameEnd (step comparison m) (.error (.output cause) { m with
      processor.state := .faulted
      output := (Writer.print m.output text).2 }) := by
  have failed := carry_print text { m with processor.state := .running }
  simp only [refused] at failed
  exact sameEnd_step_of_failed plans failed

end Print

section Push

variable {value : UInt8}

theorem sameEnd_step_of_stored (plans : planned comparison m = .ok (executed, .push value))
    {memory : M}
    (stored : PlainMemory.set m.memory (m.processor.stackPointer - 1).toNat value = .ok memory) :
    SameEnd (step comparison m) (.ok executed { m with
      processor := { m.processor.lowered with state := .running }.past executed
      memory }) := by
  have carried : carry (.push value) { m with processor.state := .running } = .ok ()
      { m with processor := { m.processor.lowered with state := .running }, memory } :=
    write_of_stored (m := { m with processor := { m.processor.lowered with state := .running } })
      stored
  exact sameEnd_step_of_carried plans carried

theorem sameEnd_step_of_unstored (plans : planned comparison m = .ok (executed, .push value))
    (refused :
      PlainMemory.set m.memory (m.processor.stackPointer - 1).toNat value = .error fault) :
    SameEnd (step comparison m)
      (.error fault { m with processor := { m.processor.lowered with state := .faulted } }) := by
  have failed : carry (.push value) { m with processor.state := .running } = .error fault
      { m with processor := { m.processor.lowered with state := .running } } :=
    write_of_refused (m := { m with processor := { m.processor.lowered with state := .running } })
      refused
  exact sameEnd_step_of_failed plans failed

end Push

/-- What a step has executed was planned. -/
theorem planned_of_step (stepped : step comparison m = .ok executed m') :
    ∃ intent, planned comparison m = .ok (executed, intent) := by
  cases plans : planned comparison m with
  | error fault =>
    obtain ⟨_, failed, -⟩ := (sameEnd_step_of_refused plans).eq_error
    cases failed.symm.trans stepped
  | ok chosen =>
    obtain ⟨executed', intent⟩ := chosen
    cases carried : carry intent { m with processor.state := .running } with
    | ok value left =>
      obtain ⟨_, stepped', -⟩ := (sameEnd_step_of_carried plans carried).eq_ok
      cases stepped'.symm.trans stepped
      exact ⟨intent, rfl⟩
    | error fault left =>
      obtain ⟨_, failed, -⟩ := (sameEnd_step_of_failed plans carried).eq_error
      cases failed.symm.trans stepped

end Planned

end Machine

end ByteMachine
