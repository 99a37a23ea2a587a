import ByteMachine.Proofs.History
import ByteMachine.Proofs.Termination

/-!
# The life cycle

A step that is attempted leaves its outcome in the state of the processor and in its counter, and
nothing else but a power-on touches these. Main statement: after every history the state tells how
the last attempt ended, the counter how many of them succeeded, and a run ends in the state that
its own outcome tells of.
-/

namespace ByteMachine

open Machine

/-- The state in which an attempt leaves the processor. -/
def Attempt.leaves (attempt : Attempt) : RunState :=
  match attempt.outcome with
  | .error _ => .faulted
  | .ok executed => if executed = .instruction .hlt then .halted else .running

namespace Attempt

variable {attempt : Attempt}

theorem leaves_ne_ready : attempt.leaves ≠ .ready := by
  unfold leaves
  split
  · nofun
  · split <;> nofun

theorem leaves_eq_faulted_iff :
    attempt.leaves = .faulted ↔ ∃ fault, attempt.outcome = .error fault := by
  cases ended : attempt.outcome with
  | error fault => simp [leaves, ended]
  | ok executed =>
    simp only [leaves, ended, reduceCtorEq, exists_false, iff_false]
    split <;> nofun

theorem leaves_eq_halted_iff :
    attempt.leaves = .halted ↔ attempt.outcome = .ok (.instruction .hlt) := by
  cases ended : attempt.outcome with
  | error fault => simp [leaves, ended]
  | ok executed => simp [leaves, ended]

theorem leaves_eq_running_iff :
    attempt.leaves = .running ↔
      ∃ executed, attempt.outcome = .ok executed ∧ executed ≠ .instruction .hlt := by
  cases ended : attempt.outcome with
  | error fault => simp [leaves, ended]
  | ok executed => simp [leaves, ended]

end Attempt

/-- What state and counter tell of the attempts since the last power-on or reset. -/
def Processor.Tells (attempts : List Attempt) (p : Processor) : Prop :=
  p.state = attempts.getLast?.elim .ready Attempt.leaves ∧
    p.executed = attempts.countP (·.outcome.isOk)

namespace Machine

variable {M W : Type} [Memory M] [Writer W] {comparison : Comparison}

theorem state_after_step (comparison : Comparison) (m : Machine M W) :
    (after (step comparison) m).processor.state = (m.attempted comparison).leaves := by
  cases stepped : step comparison m with
  | error fault m' =>
    have ended : (m.attempted comparison).outcome = .error fault := outcome_eq_of_error stepped
    rw [after_eq_of_error stepped, state_of_step_error stepped]
    exact (Attempt.leaves_eq_faulted_iff.mpr ⟨fault, ended⟩).symm
  | ok executed m' =>
    obtain ⟨fetched, -, halts, -, passes⟩ := passes_of_step stepped
    have ended : (m.attempted comparison).outcome = .ok executed := outcome_eq_of_ok stepped
    rw [after_eq_of_ok stepped]
    by_cases halt : executed = .instruction .hlt
    · rw [(passes.halted (halts.mp halt)).2]
      exact (Attempt.leaves_eq_halted_iff.mpr (halt ▸ ended)).symm
    · rw [(passes.onwards (mt halts.mpr halt)).2]
      exact (Attempt.leaves_eq_running_iff.mpr ⟨executed, ended, halt⟩).symm

/-- A step that succeeds leaves the machine running, unless what it executes is a halt. -/
theorem state_of_step_ok {executed : Executed} {m left : Machine M W}
    (stepped : step comparison m = .ok executed left) :
    left.processor.state = if executed = .instruction .hlt then .halted else .running := by
  have state := state_after_step comparison m
  rw [after_eq_of_ok stepped] at state
  rw [state, Attempt.leaves, attempted, outcome_eq_of_ok stepped]

theorem keeps_lifeCycle_carryOut (comparison : Comparison) {op : Operation}
    (other : op ∉ [.step, .run, .reset]) :
    Keeps (M := M) (W := W) (fun m => (m.processor.state, m.processor.executed))
      (op.carryOut comparison) :=
  Keeps.carryOut comparison other (fun _ _ _ => rfl) fun _ _ _ => rfl

/-- A run that comes to an end does so with a halt or with a fault, and its state shows which. -/
theorem run_cases {m : Machine M W} (ends : Ends (step comparison) m)
    (running : m.processor.state ≠ .halted) :
    (outcome (run comparison) m = .ok () ∧
        (after (run comparison) m).processor.state = .halted) ∨
      ∃ fault, outcome (run comparison) m = .error fault ∧
        (after (run comparison) m).processor.state = .faulted := by
  have whole := sameEnd_run ends running
  obtain ⟨count, last, rounds, ended⟩ := untilHalted_cases ends
  rcases ended with ⟨fault, final, failed, ended⟩ | ⟨executed, final, -, halted, ended⟩
  · rw [ended] at whole
    obtain ⟨left, ran, same⟩ := whole.eq_error
    rw [outcome_eq_of_error ran, after_eq_of_error ran, same.1]
    exact .inr ⟨fault, rfl, state_of_step_error failed⟩
  · rw [ended] at whole
    obtain ⟨left, ran, same⟩ := whole.eq_ok
    rw [outcome_eq_of_ok ran, after_eq_of_ok ran, same.1]
    exact .inl ⟨rfl, halted⟩

end Machine

theorem preserved_tells (comparison : Comparison) : Preserved comparison fun attempts p =>
    p.Tells attempts where
  step := by
    intro M W _ _ past m told
    constructor
    · rw [state_after_step, List.getLast?_concat]
      rfl
    · rw [executed_after_step, told.2, List.countP_append, List.countP_singleton, Machine.attempted]
      cases (outcome (step comparison) m).isOk <;> rfl
  other := by
    intro M W _ _ past op m other told
    obtain ⟨state, executed⟩ := Prod.mk.inj (keeps_lifeCycle_carryOut comparison other m)
    rwa [Processor.Tells, state, executed]

/-- What the processor tells of its history. -/
structure History.ToldByProcessor (history : History) : Prop where
  ready : history.processor.state = .ready ↔ history.attempts = []
  faulted : history.processor.state = .faulted ↔
    ∃ last ∈ history.attempts.getLast?, ∃ fault, last.outcome = .error fault
  halted : history.processor.state = .halted ↔
    ∃ last ∈ history.attempts.getLast?, last.outcome = .ok (.instruction .hlt)
  running : history.processor.state = .running ↔
    ∃ last ∈ history.attempts.getLast?, ∃ executed,
      last.outcome = .ok executed ∧ executed ≠ .instruction .hlt
  /-- Halts and skipped bytes count, faults do not. -/
  executed : history.processor.executed = history.attempts.countP (·.outcome.isOk)

theorem Processor.Tells.toldByProcessor {history : History}
    (told : history.processor.Tells history.attempts) : history.ToldByProcessor := by
  obtain ⟨state, executed⟩ := told
  constructor
  case ready =>
    rw [state]
    cases ended : history.attempts.getLast? with
    | none => simpa using ended
    | some last =>
      have some : history.attempts ≠ [] := by
        intro empty
        rw [empty] at ended
        cases ended
      simp [Attempt.leaves_ne_ready, some]
  case faulted =>
    rw [state]
    cases history.attempts.getLast? <;> simp [Attempt.leaves_eq_faulted_iff]
  case halted =>
    rw [state]
    cases history.attempts.getLast? <;> simp [Attempt.leaves_eq_halted_iff]
  case running =>
    rw [state]
    cases history.attempts.getLast? <;> simp [Attempt.leaves_eq_running_iff]
  case executed => exact executed

namespace Machine

/-- How operations go by the state of a machine, whatever its past, and what they make of it. -/
structure RunsByState {M W : Type} [Memory M] [Writer W] (overflow : Overflow)
    (comparison : Comparison) (m : Machine M W) : Prop where
  others (op : Operation) : op ∉ [.step, .run, .reset] →
    (after (op.carryOut comparison) m).processor.state = m.processor.state ∧
      (after (op.carryOut comparison) m).processor.executed = m.processor.executed
  /-- Nothing is accessed, printed or changed. -/
  halted : m.processor.state = .halted →
    m.RunCompletes overflow comparison ∧ run comparison m = .ok () m
  /-- The attempts of a run are the steps it comes down to. -/
  attempts : m.processor.state ≠ .halted → m.RunCompletes overflow comparison →
    ∃ count, 0 < count ∧
      Operation.run.attempts comparison m =
        (List.range count).map (fun earlier =>
          (stepped comparison earlier m).attempted comparison) ∧
      Coincide (after (run comparison) m) (stepped comparison count m)
  ok_iff : m.processor.state ≠ .halted → m.RunCompletes overflow comparison →
    (outcome (run comparison) m = .ok () ↔
      (after (run comparison) m).processor.state = .halted)
  fault_iff : m.processor.state ≠ .halted → m.RunCompletes overflow comparison →
    ((∃ fault, outcome (run comparison) m = .error fault) ↔
      (after (run comparison) m).processor.state = .faulted)

theorem runsByState {M W : Type} [Memory M] [Writer W] (overflow : Overflow)
    (comparison : Comparison) (m : Machine M W) : m.RunsByState overflow comparison := by
  constructor
  case others =>
    intro op other
    exact Prod.mk.inj (keeps_lifeCycle_carryOut comparison other m)
  case halted =>
    intro halted
    exact ⟨.of_halted halted, run_of_halted comparison halted⟩
  case attempts => exact fun running completes => exists_attempts_eq (completes.1 running) running
  case ok_iff =>
    intro running completes
    rcases run_cases (completes.1 running) running with ⟨ended, state⟩ | ⟨fault, ended, state⟩ <;>
      simp [ended, state]
  case fault_iff =>
    intro running completes
    rcases run_cases (completes.1 running) running with ⟨ended, state⟩ | ⟨fault, ended, state⟩ <;>
      simp [ended, state]

end Machine

/-- After every history the processor tells of the attempts since it was last powered on or reset,
and only steps, runs and resets have a part in that. -/
theorem History.processor_tells_attempts (overflow : Overflow) (comparison : Comparison) :
    (∀ events, History.Completes overflow comparison events →
      (History.ofEvents comparison events).ToldByProcessor) ∧
    ∀ {M W : Type} [Memory M] [Writer W] (m : Machine M W), m.RunsByState overflow comparison := by
  constructor
  · intro events completes
    exact ((preserved_tells comparison).ofEvents ⟨rfl, rfl⟩ completes).toldByProcessor
  · intro M W _ _ m
    exact m.runsByState overflow comparison

/-- A refused register, a skipped byte and a second run of a halted machine. -/
theorem History.processor_tells_attempts_halted_twice :
    let ram : Ram := Bank.ofImagePrefix [0x82, 0, 8, 0, 1]
    let asked (op : Operation) : Event := .operation op ram ({} : Sink) {} #[]
    let events :=
      [asked .step, asked .reset, asked .step, asked (.getRegister 9), asked .run, asked .run]
    let history := History.ofEvents .contents events
    History.Completes .aborts .contents events ∧ history.ToldByProcessor ∧
      history.processor.state = .halted ∧ history.processor.executed = 3 ∧
      history.attempts.length = 3 := by
  intro ram asked events history
  have completes : History.Completes .aborts .contents events :=
    History.completes_of_confined (by simp [events, asked, Event.Confined, Confined.ram])
  have told := (History.processor_tells_attempts .aborts .contents).1 events completes
  refine ⟨completes, told, ?_⟩
  simp only [history, events, asked, History.ofEvents, List.foldl, History.extend,
    Operation.attempts, Operation.carryOut, run_ram, course_ram]
  decide +kernel

end ByteMachine
