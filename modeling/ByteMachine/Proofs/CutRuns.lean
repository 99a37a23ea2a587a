import ByteMachine.Proofs.Flags
import ByteMachine.Proofs.LastComparison
import ByteMachine.Proofs.LifeCycle

/-!
# Runs cut into steps

A run has no memory of its own: it goes by the machine alone, and by no more of it than a step does.
Main statement: it may be cut wherever the host likes, it is the repetition of its steps, and after
a repair it continues as a run would that begins there.
-/

namespace ByteMachine

namespace Machine

variable {M W : Type} [Memory M] {comparison : Comparison} {m n : Machine M W}

section Cut

variable [Writer W]

/-- What comes of repeating steps until one of them executes a halt or faults. -/
inductive Repeats (comparison : Comparison) :
    Machine M W → EStateM.Result Fault (Machine M W) Unit → Prop where
  | faulted {m left fault} : step comparison m = .error fault left →
      Repeats comparison m (.error fault left)
  | halted {m left} : step comparison m = .ok (.instruction .hlt) left →
      Repeats comparison m (.ok () left)
  | onwards {m between executed result} : step comparison m = .ok executed between →
      executed ≠ .instruction .hlt → Repeats comparison between result →
      Repeats comparison m result

theorem Repeats.eq_untilHalted {result : EStateM.Result Fault (Machine M W) Unit}
    (repeats : Repeats comparison m result) :
    untilHalted (step comparison) m = result := by
  induction repeats with
  | faulted failed => exact untilHalted_of_error failed
  | halted stepped =>
    apply untilHalted_of_halted stepped
    rw [state_of_step_ok stepped, if_pos rfl]
  | onwards stepped other _ inductionHypothesis =>
    have running := state_of_step_ok stepped
    rw [if_neg other] at running
    rw [untilHalted_of_running stepped (by simp [running]), inductionHypothesis]

theorem Repeats.of_rounds {count : Nat} {last : Machine M W}
    {result : EStateM.Result Fault (Machine M W) Unit}
    (rounds : Rounds (step comparison) count m last) (rest : Repeats comparison last result) :
    Repeats comparison m result := by
  induction rounds with
  | refl => exact rest
  | cons stepped running _ inductionHypothesis =>
    refine .onwards stepped ?_ (inductionHypothesis rest)
    rintro rfl
    rw [state_of_step_ok stepped, if_pos rfl] at running
    exact running rfl

theorem exists_repeats (ends : Ends (step comparison) m) :
    ∃ result, Repeats comparison m result := by
  obtain ⟨count, last, rounds, ended⟩ := untilHalted_cases ends
  rcases ended with ⟨fault, left, failed, -⟩ | ⟨executed, left, stepped, halted, -⟩
  · exact ⟨_, .of_rounds rounds (.faulted failed)⟩
  · obtain rfl := (executed_eq_hlt_iff stepped).mpr halted
    exact ⟨_, .of_rounds rounds (.halted stepped)⟩

/-- The first `count` steps succeed, and none of them executes a halt. -/
def PassesSteps (comparison : Comparison) (m : Machine M W) (count : Nat) : Prop :=
  ∀ earlier < count, ∃ executed,
    outcome (step comparison) (stepped comparison earlier m) = .ok executed ∧
      executed ≠ .instruction .hlt

theorem PassesSteps.rounds {count : Nat} (passes : PassesSteps comparison m count) :
    Rounds (step comparison) count m (stepped comparison count m) := by
  induction count with
  | zero => exact .refl m
  | succ count inductionHypothesis =>
    have begun := inductionHypothesis fun earlier before =>
      passes earlier (Nat.lt_succ_of_lt before)
    obtain ⟨executed, ended, other⟩ := passes count (Nat.lt_succ_self count)
    cases taken : step comparison (stepped comparison count m) with
    | error fault left => cases (outcome_eq_of_error taken).symm.trans ended
    | ok executed' left =>
      cases (outcome_eq_of_ok taken).symm.trans ended
      have running : left.processor.state ≠ .halted := by
        rw [state_of_step_ok taken, if_neg other]
        decide
      rw [stepped, after_eq_of_ok taken]
      exact begun.trans (.cons taken running (.refl left))

/-- A run can be taken apart into its steps. -/
structure RunCuts (comparison : Comparison) (m : Machine M W) : Prop where
  /-- Steps that do not end it may come first. -/
  cut (count : Nat) : PassesSteps comparison m count →
    SameEnd (run comparison (stepped comparison count m)) (run comparison m)
  ends : ∃ result, Repeats comparison m result
  completes (overflow : Overflow) : m.RunCompletes overflow comparison
  repeats (result : EStateM.Result Fault (Machine M W) Unit) : Repeats comparison m result →
    SameEnd (run comparison m) result

theorem runCuts (confined : m.Confined) (running : m.processor.state ≠ .halted)
    (comparison : Comparison) : RunCuts comparison m := by
  have loops : Ends (step comparison) m := confined.ends
  have whole := sameEnd_run loops running
  constructor
  case cut =>
    intro count passes
    have rounds := passes.rounds
    have running' : (stepped comparison count m).processor.state ≠ .halted :=
      rounds.invariant (fun _ _ _ _ _ onwards => onwards) running
    have rest := sameEnd_run (rounds.ends_iff.mp loops) running'
    rw [← untilHalted_of_rounds rounds] at rest
    exact rest.trans whole.symm
  case ends => exact exists_repeats loops
  case completes => exact fun overflow => confined.runCompletes overflow comparison
  case repeats =>
    intro result repeats
    rwa [repeats.eq_untilHalted] at whole

end Cut

section Repair

/-- What a host can do about the cause of a fault. -/
inductive Repair where
  | setRegister (index value : UInt8)
  | write (address : Nat) (value : UInt8)
  deriving DecidableEq, Repr

def Repair.action : Repair → Action M W Unit
  | setRegister index value => Machine.setRegister index value
  | write address value => Machine.write address value

/-- The machine after repairs, of which some may have been refused. -/
def repaired (m : Machine M W) (repairs : List Repair) : Machine M W :=
  repairs.foldl (fun m repair => after repair.action m) m

/-- What a repair leaves alone. -/
def control (m : Machine M W) : Nat × UInt8 × RunState × Nat × W :=
  (m.processor.pc, m.processor.flags, m.processor.state, m.processor.executed, m.output)

theorem control_repaired (repairs : List Repair) (m : Machine M W) :
    (m.repaired repairs).control = m.control := by
  induction repairs generalizing m with
  | nil => rfl
  | cons repair rest inductionHypothesis =>
    have kept : Keeps (M := M) (W := W) control repair.action := by
      cases repair with
      | setRegister index value => exact Keeps.setRegister fun _ _ => rfl
      | write address value => exact Keeps.write fun _ _ _ => rfl
    exact (inductionHypothesis _).trans (kept m)

theorem Confined.repaired (confined : m.Confined) (repairs : List Repair) :
    (m.repaired repairs).Confined := by
  obtain ⟨cells, counted, small⟩ := confined
  have kept (repair : Repair) : Keeps (M := M) (W := W) (cells ·.memory) repair.action := by
    cases repair with
    | setRegister index value => exact Keeps.setRegister fun _ _ => rfl
    | write address value =>
      intro m
      rw [Repair.action, after_write]
      exact counted.cells_write m.memory address value
  refine ⟨cells, counted, ?_⟩
  induction repairs generalizing m with
  | nil => exact small
  | cons repair rest inductionHypothesis =>
    exact inductionHypothesis (Nat.le_trans (Nat.le_of_eq (kept repair m)) small)

/-- `ready` has executed nothing yet, and is as `m` is in what a program goes by. -/
structure BeginsAt (m ready : Machine M W) : Prop where
  state : ready.processor.state = .ready
  pc : ready.processor.pc = m.processor.pc
  registers : ready.processor.registers = m.processor.registers
  flags : ready.processor.flags = m.processor.flags
  memory : ready.memory = m.memory
  output : ready.output = m.output

/-- What `m` and `n` have become, which differ in their counts only, and these have grown by the
same. -/
structure Level (m n m' n' : Machine M W) : Prop where
  abreast : Abreast m n m' n'
  flags : m'.processor.flags = n'.processor.flags

variable {o p : Machine M W}

omit [Memory M] in
theorem Level.unseen {m' n' : Machine M W} (first : Coincide m' m) (second : Coincide n' n)
    (level : Level o p m n) : Level o p m' n' := by
  refine ⟨level.abreast.unseen first second, ?_⟩
  rw [first.1, second.1]
  exact level.flags

variable [Writer W]

theorem attempted_eq (agree : AgreeButFlags m n) (comparison : Comparison) :
    m.attempted comparison = n.attempted comparison := by
  have matched : Matched AgreeButFlags unparted (step comparison m) (step comparison n) :=
    AgreeButFlags.simulation.step comparison agree (Paired.alike_read _)
  rw [attempted, attempted, outcome_fetch_congr agree.processor.1 agree.memory,
    agree.processor.2.1, matched.outcome_eq]

/-- Steps attempted alike leave the flags alike. -/
theorem alike_step_level (comparison : Comparison) :
    Alike (Level o p) unparted (step comparison) (step comparison) := by
  intro m n level
  have told := flagsAfter_step comparison m
  have told' := flagsAfter_step comparison n
  rw [← attempted_eq level.abreast.agree comparison, ← level.flags] at told'
  have flags := told.unique told'
  rcases (alike_step_abreast comparison level.abreast).inv_unparted with
    ⟨executed, m', n', stepped, stepped', abreast⟩ | ⟨fault, m', n', stepped, stepped', abreast⟩
  · rw [after_eq_of_ok stepped, after_eq_of_ok stepped'] at flags
    rw [stepped, stepped']
    exact .ok ⟨abreast, flags⟩
  · rw [after_eq_of_error stepped, after_eq_of_error stepped'] at flags
    rw [stepped, stepped']
    exact .error ⟨abreast, flags⟩

/-- A loop of steps does not see in which state it begins. -/
theorem untilHalted_running (comparison : Comparison) (m : Machine M W) :
    untilHalted (step comparison) m =
      untilHalted (step comparison) { m with processor.state := .running } :=
  untilHalted_congr rfl

theorem matched_run_of_beginsAt (confined : m.Confined) (running : m.processor.state ≠ .halted)
    (begins : BeginsAt m n) (comparison : Comparison) :
    Matched (Level m n) unparted (run comparison m) (run comparison n) := by
  have running' : n.processor.state ≠ .halted := by
    rw [begins.state]
    decide
  have confined' : n.Confined := by
    rwa [Confined, begins.memory]
  apply matched_run Level.unseen confined.ends confined'.ends running running'
  -- The first step sets both machines running, so their loops begin as if they were.
  rw [untilHalted_running comparison m, untilHalted_running comparison n]
  have started : Machine.Confined { m with processor.state := .running } := confined
  apply alike_untilHalted (fun level => level.abreast.agree.processor) (alike_step_level comparison)
    started.ends
  constructor
  case abreast =>
    have agree : Processor.Agree { m.processor with state := .running }
        { n.processor with state := .running } :=
      ⟨begins.pc.symm, begins.registers.symm, rfl⟩
    exact ⟨⟨agree, begins.memory.symm, begins.output.symm⟩, 0, rfl, rfl⟩
  case flags => exact begins.flags.symm

/-- What becomes of a run when the cause of a fault has been repaired. -/
structure ResumesRepaired (comparison : Comparison) (m : Machine M W) (repairs : List Repair) :
    Prop where
  control : (m.repaired repairs).control = m.control
  cuts : RunCuts comparison (m.repaired repairs)
  continues (ready : Machine M W) : BeginsAt (m.repaired repairs) ready →
    Matched (Level (m.repaired repairs) ready) unparted (run comparison (m.repaired repairs))
      (run comparison ready)

/-- A run may be cut anywhere, and resumed after the cause of a fault has been repaired. -/
theorem run_cuts_and_resumes (confined : m.Confined) (running : m.processor.state ≠ .halted)
    (comparison : Comparison) :
    RunCuts comparison m ∧
      (m.processor.state = .faulted → ∀ repairs, ResumesRepaired comparison m repairs) := by
  refine ⟨runCuts confined running comparison, ?_⟩
  intro faulted repairs
  have control := control_repaired repairs m
  have state : (m.repaired repairs).processor.state = m.processor.state :=
    congrArg (·.2.2.1) control
  have running' : (m.repaired repairs).processor.state ≠ .halted := by rwa [state]
  constructor
  case control => exact control
  case cuts => exact runCuts (confined.repaired repairs) running' comparison
  case continues =>
    intro ready begins
    exact matched_run_of_beginsAt (confined.repaired repairs) running' begins comparison

/-- A division by a register that is zero, which is then set to two. -/
theorem run_cuts_and_resumes_divisor_set :
    let ram : Ram := Bank.ofImagePrefix [0x82, 0, 8, 0xA3, 0, 1, 0x47, 0, 1]
    let start : Machine Ram Sink := { memory := ram, output := {}, diagnostics := {} }
    let m := after (run .contents) start
    let repairs : List Repair := [.setRegister 1 2]
    m.Confined ∧ m.processor.state = .faulted ∧ RunCuts .contents m ∧
      ResumesRepaired .contents m repairs ∧
      outcome (run .contents) (m.repaired repairs) = .ok () ∧
      (after (run .contents) (m.repaired repairs)).output.accepted.toList =
        Text.utf8Encode "4\n" := by
  intro ram start m repairs
  have confined : m.Confined := .ram m
  have faulted : m.processor.state = .faulted := by
    simp only [m, run_ram]
    decide +kernel
  have running : m.processor.state ≠ .halted := by
    rw [faulted]
    decide
  obtain ⟨cuts, resumes⟩ := run_cuts_and_resumes confined running .contents
  refine ⟨confined, faulted, cuts, resumes faulted repairs, ?_⟩
  simp only [m, run_ram]
  decide +kernel

end Repair

end Machine

end ByteMachine
