import ByteMachine.Proofs.Termination
import ByteMachine.Proofs.Tracing
import ByteMachine.Proofs.Wording

/-!
# What a trace line tells

A trace line is made of what the next step fetches, and nothing is done to make it but the reads
that fetching does. Main statement: below the top of memory the line and the step go by the same
three bytes or end with the same fault, and the line can be read back: it tells the program counter,
the three bytes and all registers.
-/

namespace ByteMachine.Machine

section Machine

variable {M W : Type} [Memory M] {m : Machine M W} {line : String}

/-- Inspecting and fetching differ only in how they take a program counter past the top of
memory. -/
theorem inspect_eq_fetch (inside : m.processor.pc < memorySize) : inspect m = fetch m := by
  rw [fetch_apply, inspect, get_bind, Nat.mod_eq_of_lt inside]

theorem Keeps.inspect {γ : Type} {view : Machine M W → γ}
    (reads : ∀ address, Keeps view (Machine.read address)) : Keeps view Machine.inspect :=
  Keeps.bind Keeps.get fun _ => Keeps.bind (reads _) fun _ => Keeps.bind (reads _) fun _ =>
    Keeps.bind (reads _) fun _ => Keeps.pure _

/-- A trace line shows what is inspected, beside the processor as it is. -/
theorem traceLine_eq (m : Machine M W) :
    traceLine m = (inspect >>= fun shown => pure (traceText m.processor shown)) m := by
  have kept : (after inspect m).processor = m.processor :=
    Keeps.inspect (fun _ => Keeps.read fun _ _ _ => rfl) m
  simp only [traceLine, bind, EStateM.bind]
  cases inspected : inspect m with
  | ok shown left =>
    rw [after_eq_of_ok inspected] at kept
    rw [← kept]
    rfl
  | error fault left => rfl

theorem outcome_traceLine (m : Machine M W) :
    outcome traceLine m = (outcome inspect m).map (traceText m.processor) := by
  rw [outcome, traceLine_eq, ← outcome, outcome_bind, outcome]
  cases inspect m <;> rfl

theorem after_traceLine (m : Machine M W) : after traceLine m = after inspect m := by
  rw [after, traceLine_eq, ← after, after_bind, after]
  cases inspect m <;> rfl

theorem after_traceLine_plain [PlainMemory M] (m : Machine M W) : after traceLine m = m := by
  have reads (address : Nat) : Keeps (M := M) (W := W) id (read address) := by
    intro m
    rw [after, read_plain, ← after]
    exact Keeps.settle _ m
  exact Keeps.traceLine reads m

theorem exists_inspected (traced : outcome traceLine m = .ok line) :
    ∃ shown, outcome inspect m = .ok shown ∧ line = traceText m.processor shown := by
  rw [outcome_traceLine] at traced
  obtain ⟨shown, inspected, same⟩ := Except.map_eq_ok_iff.mp traced
  exact ⟨shown, inspected, same.symm⟩

/-- What is traced in place of a step is what the step would fetch. -/
theorem outcome_traceLine_eq_fetched (inside : m.processor.pc < memorySize) :
    outcome traceLine m =
      (outcome fetch { m with processor.state := .running }).map (traceText m.processor) := by
  rw [outcome_traceLine, outcome_fetch_running, outcome, inspect_eq_fetch inside, ← outcome]

theorem after_traceLine_eq_fetched (inside : m.processor.pc < memorySize) :
    after traceLine m = after fetch m := by
  rw [after_traceLine, after, inspect_eq_fetch inside, ← after]

variable [Writer W] {comparison : Comparison}

/-- What tracing a machine and stepping it have in common. -/
structure TellsNextStep (comparison : Comparison) (m : Machine M W) : Prop where
  /-- There is a line if the three bytes can be fetched, and it shows these bytes. -/
  shown : outcome traceLine m =
    (outcome fetch { m with processor.state := .running }).map (traceText m.processor)
  /-- Tracing makes no accesses but those of a fetch. -/
  accesses : after traceLine m = after fetch m
  faults : ∀ fault, outcome traceLine m = .error fault →
    outcome (step comparison) m = .error fault
  /-- The bytes that are shown are those that the step executes. -/
  executes : ∀ line, outcome traceLine m = .ok line →
    ∃ fetched between, fetch { m with processor.state := .running } = .ok fetched between ∧
      line = traceText m.processor fetched ∧
      outcome (step comparison) m = outcome (execute comparison fetched) between

theorem tellsNextStep (comparison : Comparison) (inside : m.processor.pc < memorySize) :
    TellsNextStep comparison m := by
  have shown := outcome_traceLine_eq_fetched inside
  constructor
  case shown => exact shown
  case accesses => exact after_traceLine_eq_fetched inside
  case faults =>
    intro fault failed
    rw [failed, outcome_fetch_running] at shown
    cases stepBegins comparison m with
    | refused _ unfound ended =>
      rw [unfound] at shown
      cases shown
      exact ended
    | fetched _ found _ =>
      rw [found] at shown
      cases shown
  case executes =>
    intro line traced
    rw [traced, outcome_fetch_running] at shown
    cases stepBegins comparison m with
    | refused _ unfound _ =>
      rw [unfound] at shown
      cases shown
    | fetched fetching found executes =>
      rw [found] at shown
      cases shown
      exact ⟨_, _, fetching, rfl, executes⟩

/-- Past the top of the machine's own memory there is nothing to fetch. -/
theorem step_past_top {m : Machine Ram W} (outside : memorySize ≤ m.processor.pc) :
    outcome (step comparison) m = .error (.addressing m.processor.pc) := by
  cases stepBegins comparison m with
  | fetched _ found _ =>
    exact absurd (pc_lt_cells_of_fetch EndsAfter.bank found) (Nat.not_lt.mpr outside)
  | refused refused _ ended =>
    rw [fetch_plain] at refused
    cases unfetched : fetched? { m.processor with state := .running } m.memory with
    | ok fetched =>
      rw [unfetched] at refused
      cases refused
    | error fault =>
      rw [unfetched] at refused
      cases refused
      rw [ended, (fetched?_ram unfetched).2]

end Machine

/-- What the trace lines of all machines tell about them. -/
structure TraceLinesTell (comparison : Comparison) : Prop where
  nextStep {M W : Type} [Memory M] [Writer W] (m : Machine M W) :
    m.processor.pc < memorySize → TellsNextStep comparison m
  /-- The machine's own memory has a line to show for any program counter, also for one from which
  there is no step. -/
  wraps {W : Type} [Writer W] (m : Machine Ram W) :
    outcome traceLine m = .ok (traceText m.processor
      { opcode := m.memory.wrapped m.processor.pc
        a := m.memory.wrapped (m.processor.pc + 1)
        b := m.memory.wrapped (m.processor.pc + 2) }) ∧
    (memorySize ≤ m.processor.pc →
      outcome (step comparison) m = .error (.addressing m.processor.pc))
  /-- The processor stays as it is, and so does whatever no read changes. -/
  observes {M W γ : Type} [Memory M] (m : Machine M W) :
    (after traceLine m).processor = m.processor ∧
    ∀ view : Machine M W → γ, (∀ address, Keeps view (read address)) →
      view (after traceLine m) = view m
  leaves {M W : Type} [Memory M] [PlainMemory M] (m : Machine M W) : after traceLine m = m
  /-- Machines that show the same line have in common all that it is made of. -/
  decodes {M N V W : Type} [Memory M] [Memory N] (m : Machine M V) (n : Machine N W)
    (line : String) :
    outcome traceLine m = .ok line → outcome traceLine n = .ok line →
      m.processor.pc = n.processor.pc ∧ m.processor.registers = n.processor.registers ∧
      ∃ shown, outcome inspect m = .ok shown ∧ outcome inspect n = .ok shown

/-- A trace line shows what the next step fetches, is had without changing anything, and tells apart
all machines that differ in what it shows. -/
theorem trace_lines_tell (comparison : Comparison) : TraceLinesTell comparison := by
  constructor
  case nextStep => exact fun m inside => tellsNextStep comparison inside
  case wraps =>
    intro W _ m
    exact ⟨outcome_eq_of_ok (traceLine_ram m), step_past_top⟩
  case observes =>
    intro M W γ _ m
    exact ⟨keeps_processor_traceLine m, fun view reads => Keeps.traceLine reads m⟩
  case leaves => exact after_traceLine_plain
  case decodes =>
    intro M N V W _ _ m n line traced traced'
    obtain ⟨shown, inspected, rfl⟩ := exists_inspected traced
    obtain ⟨shown', inspected', same⟩ := exists_inspected traced'
    obtain ⟨pc, rfl, registers⟩ := traceText_eq_iff.mp same
    exact ⟨pc, registers, shown, inspected, inspected'⟩

/-- The last operand of the first instruction is closed to reading. On the machine's own memory a
program counter past its top shows the last cell and the first two. -/
theorem trace_lines_tell_closed_operand :
    let image : List UInt8 := [0x82, 0, 8, 1]
    let closed := (HostMemory.ofSize 5 image).restrict (· = 2) fun _ => false
    let m : Machine HostMemory Sink := { memory := closed, output := {}, diagnostics := {} }
    let ram : Ram := Bank.ofImagePrefix image
    let p : Processor := { Processor.powerOn with counter := 0x1FF }
    let n : Machine Ram Sink := { processor := p, memory := ram, output := {}, diagnostics := {} }
    outcome (step .contents) m = .error (.addressing 2) ∧
      outcome traceLine n = .ok "TRACE: 1FF | 00 82 00 | 00 00 00 00 00 00 00 F4" ∧
      outcome (step .contents) n = .error (.addressing 0x1FF) := by
  intro image closed m ram p n
  have told := trace_lines_tell .contents
  have untraced : outcome traceLine m = .error (.addressing 2) := by decide +kernel
  have line : traceText n.processor n.shown =
      "TRACE: 1FF | 00 82 00 | 00 00 00 00 00 00 00 F4" := by decide +kernel
  refine ⟨(told.nextStep m (by decide)).faults _ untraced, ?_, (told.wraps n).2 (by decide)⟩
  exact (told.wraps n).1.trans (congrArg _ line)

end ByteMachine.Machine
