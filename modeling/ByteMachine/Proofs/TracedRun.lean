import ByteMachine.Proofs.Tracing
import ByteMachine.Proofs.Wording

/-!
# Traced runs

The trace of a run is its history. Main statement: a traced run writes a line for each step that the
plain run attempts, with the machine as it is just before that step, and a trace sink that runs full
stops it after the steps whose lines it took.
-/

namespace ByteMachine

namespace Text

theorem newline_not_mem_numeral (width n : Nat) : '\n' ∉ numeral 16 width n :=
  not_mem_numeral (by decide) (by decide) width n

end Text

namespace Machine

theorem newline_not_mem_spaced (bytes : List UInt8) : '\n' ∉ (spaced bytes).toList := by
  induction bytes with
  | nil => simp [spaced]
  | cons b rest inductionHypothesis =>
    simp [spaced, Text.hexByte, Text.newline_not_mem_numeral, inductionHypothesis]

theorem newline_not_mem_shownLine (m : Machine Ram Sink) : '\n' ∉ m.shownLine.toList := by
  simp [shownLine, traceText, Text.newline_not_mem_numeral, newline_not_mem_spaced]

end Machine

namespace Computer

open Machine

variable {comparison : Comparison} {start : Computer} {trace : Sink}

/-- What a traced run of a computer writes to its trace sink, and how it goes on, next to a plain
run of it. -/
structure FaithfulTrace (comparison : Comparison) (start : Computer) (trace : Sink) : Prop where
  /-- The steps attempted are those that succeed, and the one that faults. -/
  attempts : start.processor.executed + (visited comparison start).length =
    (after (Call.run.action comparison) start).processor.executed +
      match outcome (Call.run.action comparison) start with
      | .ok _ => 0
      | .error _ => 1
  /-- The machines that the trace shows are those before each step of the plain run. -/
  machines : visited comparison start =
    (List.range (visited comparison start).length).map (stepped comparison · start)
  ends : Coincide (after (Call.run.action comparison) start)
    (stepped comparison (visited comparison start).length start)
  /-- What shows a machine is a single line: its program counter, the three cells there, of which
  each wraps, and its registers. -/
  lines : ∀ before ∈ visited comparison start, '\n' ∉ before.shownLine.toList ∧
    LineWords before.processor.pc
      [before.memory.wrapped before.processor.pc, before.memory.wrapped (before.processor.pc + 1),
        before.memory.wrapped (before.processor.pc + 2)]
      before.processor.registers.toList (Text.split ' ' before.shownLine.toList)
  /-- A sink with room for all lines gets them all, and the run ends as the plain one. -/
  whole : (∀ limit, trace.capacity = some limit →
      (traceBytes (visited comparison start)).length ≤ limit) →
    SameEnd (Call.runTraced.action comparison { start with diagnostics := trace })
        (Call.run.action comparison start) ∧
      (after (Call.runTraced.action comparison)
        { start with diagnostics := trace }).diagnostics.accepted.toList =
          traceBytes (visited comparison start)
  cut : ∀ limit, trace.capacity = some limit →
    (after (Call.runTraced.action comparison)
      { start with diagnostics := trace }).diagnostics.accepted.toList =
        (traceBytes (visited comparison start)).take
          (min limit (traceBytes (visited comparison start)).length)
  /-- A line that does not fit stops the run before its step. -/
  stops : ∀ limit, trace.capacity = some limit →
    limit < (traceBytes (visited comparison start)).length →
    ∃ count left, count < (visited comparison start).length ∧
      (traceBytes ((visited comparison start).take count)).length ≤ limit ∧
      limit < (traceBytes ((visited comparison start).take (count + 1))).length ∧
      Call.runTraced.action comparison { start with diagnostics := trace } =
        .error (.output trace.whenFull) left ∧
      Coincide left (stepped comparison count start) ∧
      left.processor.executed = start.processor.executed + count

theorem runTraced_of_running (running : start.processor.state ≠ .halted) :
    Call.runTraced.action comparison { start with diagnostics := trace } =
      untilHalted (tracedStep comparison) { start with diagnostics := trace } := if_neg running

theorem after_runTraced (running : start.processor.state ≠ .halted) :
    after (Call.runTraced.action comparison) { start with diagnostics := trace } =
      after (untilHalted (tracedStep comparison)) { start with diagnostics := trace } := by
  simp only [after, runTraced_of_running running]

theorem faithfulTrace (running : start.processor.state ≠ .halted) (empty : trace.accepted = #[]) :
    FaithfulTrace comparison start trace := by
  have ends : Ends (step comparison) start := ends_ram comparison start
  have plain := sameEnd_run ends running
  have same : Coincide { start with diagnostics := trace } start := ⟨rfl, rfl, rfl⟩
  have beside := traced_of_coincide comparison same
  have accepted := congrArg (·.accepted.toList) beside.diagnostics
  simp only [Sink.accepted_accept, empty, List.nil_append] at accepted
  constructor
  case attempts =>
    have counted := length_visited ends
    rwa [← plain.outcome_eq, ← plain.after.1] at counted
  case machines => exact visited_eq_stepped ends
  case ends => exact after_untilHalted_eq_stepped ends ▸ plain.after
  case lines =>
    exact fun before _ =>
      ⟨newline_not_mem_shownLine before, lineWords_traceText before.processor before.shown⟩
  case whole =>
    intro room
    have takes := (Sink.takes_iff_of_empty empty).mpr room
    rw [runTraced_of_running running, after_runTraced running]
    exact ⟨(beside.same takes).trans plain.symm, accepted.trans takes⟩
  case cut =>
    intro limit limited
    rw [after_runTraced running, accepted, Sink.fitting_of_empty empty limited,
      List.take_eq_take_min]
  case stops =>
    intro limit limited overflow
    have taken_iff (bytes : List UInt8) : trace.Takes bytes ↔ bytes.length ≤ limit := by
      simp [Sink.takes_iff_of_empty empty, limited]
    obtain ⟨count, left, ⟨inside, taken, cut⟩, stopped, unmoved⟩ :=
      exists_cutAt same (mt (taken_iff _).mp (Nat.not_le.mpr overflow))
    refine ⟨count, left, inside, (taken_iff _).mp taken, Nat.not_le.mp (mt (taken_iff _).mpr cut),
      ?_, unmoved, ?_⟩
    · rw [runTraced_of_running running, stopped]
    · rw [unmoved.1]
      exact executed_of_rounds (rounds_stepped ends inside)

/-- The trace of an image just loaded is the history of its run, as far as its sink takes it. -/
theorem traced_run_writes_history (comparison : Comparison) {image : List UInt8}
    (fits : image.length ≤ memorySize) (output : Sink) {trace : Sink}
    (empty : trace.accepted = #[]) :
    ∃ ram, Bank.ofImage image = .ok ram ∧
      FaithfulTrace comparison { ofRam ram with output } trace := by
  have running : RunState.ready ≠ .halted := by decide
  exact ⟨_, Bank.ofImage_of_length_le fits, faithfulTrace running empty⟩

/-- Two bytes of the second line are taken, so only one instruction is executed. -/
theorem traced_run_writes_history_one_line :
    let image := [0x82, 0, 8, 0x47, 0, 1]
    let trace : Sink := { capacity := some 49, whenFull := .incomplete }
    let start : Computer := { ofRam (Bank.ofImagePrefix image) with diagnostics := trace }
    image.length ≤ memorySize ∧ trace.accepted = #[] ∧
      (∃ ram, Bank.ofImage image = .ok ram ∧
        FaithfulTrace .contents { ofRam ram with output := {} } trace) ∧
      outcome (Call.runTraced.action .contents) start = .error (.output .incomplete) ∧
      (after (Call.runTraced.action .contents) start).processor.executed = 1 := by
  intro image trace start
  have fits : image.length ≤ memorySize := by decide
  refine ⟨fits, rfl, traced_run_writes_history .contents fits {} rfl, ?_, ?_⟩
  · simp only [Call.action, runTraced_ram]
    decide +kernel
  · simp only [Call.action, runTraced_ram]
    decide +kernel

end Computer

end ByteMachine
