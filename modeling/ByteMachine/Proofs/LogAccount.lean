import ByteMachine.Proofs.Confinement
import ByteMachine.Proofs.Recording
import ByteMachine.Proofs.Wording

/-!
# The account that the log gives

Whatever steps and runs a host asks for, one after the other, the log tells of every step that is
attempted what it has fetched and the fault it ends with, and of every run how it starts and halts.
Main statement: messages that say this in words come in order, nobody but the memory says anything
else, and they can be counted instead of the steps.
-/

namespace ByteMachine

namespace Log.Entry

/-- The entry is a message of this severity. -/
def hasLevel (level : Level) : Entry → Bool
  | message level' _ _ => level' = level
  | traceLine _ => false

end Log.Entry

/-- One more is counted if it is to be counted. -/
theorem countP_cons_toNat {α : Type} (p : α → Bool) (a : α) (rest : List α) :
    (a :: rest).countP p = rest.countP p + (p a).toNat := by
  rw [List.countP_cons]
  cases p a <;> rfl

/-- What a host can have executed. -/
inductive ExecutionCall where
  | step
  | run
  deriving DecidableEq, Repr

namespace Machine

variable {M W : Type} [Memory M] [Writer W]

/-- What there is to tell of the bytes that a step has fetched. -/
def Told.ofFetched (pc : Nat) (fetched : Fetched) : Told :=
  match Opcode.ofByte? fetched.opcode with
  | none => .skipped pc fetched.opcode
  | some opcode => .fetched pc opcode fetched.a fetched.b

/-- What there is to tell of a step: first what it has fetched, then the fault that it ends with. -/
def stepTold (comparison : Comparison) (m : Machine M W) : List Told :=
  (match outcome fetch m with
    | .ok fetched => [.ofFetched m.processor.pc fetched]
    | .error _ => []) ++
  match outcome (step comparison) m with
    | .ok _ => []
    | .error fault => [.faulted m.processor.pc fault]

def endingTold (comparison : Comparison) (m : Machine M W) : List Told :=
  match run comparison m with
  | .ok _ left => [.halted left.processor.pc left.processor.executed]
  | .error _ _ => []

/-- What there is to tell of a run: its steps, between its start and its end if it halts the
machine. -/
def runTold (comparison : Comparison) (m : Machine M W) : List Told :=
  if m.processor.state = .halted then []
  else .running m.processor.pc ::
    (visited comparison m).flatMap (stepTold comparison) ++ endingTold comparison m

end Machine

namespace ExecutionCall

open Machine

variable {M W : Type} [Memory M] [Writer W]

/-- The machine that a call leaves. -/
def result (comparison : Comparison) (m : Machine M W) : ExecutionCall → Machine M W
  | step => after (Machine.step comparison) m
  | run => after (Machine.run comparison) m

/-- The machines from which a call attempts its steps, in order. -/
def steps (comparison : Comparison) (m : Machine M W) : ExecutionCall → List (Machine M W)
  | step => [m]
  | run => runCourse comparison m

def told (comparison : Comparison) (m : Machine M W) : ExecutionCall → List Told
  | step => m.stepTold comparison
  | run => m.runTold comparison

/-- The call comes to an end. -/
def Completes (overflow : Overflow) (comparison : Comparison) (m : Machine M W) :
    ExecutionCall → Prop
  | step => m.Completes overflow comparison
  | run => m.RunCompletes overflow comparison

/-- The machine that calls leave, one after the other. -/
def resultOf (comparison : Comparison) : Machine M W → List ExecutionCall → Machine M W
  | m, [] => m
  | m, call :: rest => resultOf comparison (call.result comparison m) rest

def stepsOf (comparison : Comparison) : Machine M W → List ExecutionCall → List (Machine M W)
  | _, [] => []
  | m, call :: rest => call.steps comparison m ++ stepsOf comparison (call.result comparison m) rest

def toldOf (comparison : Comparison) : Machine M W → List ExecutionCall → List Told
  | _, [] => []
  | m, call :: rest => call.told comparison m ++ toldOf comparison (call.result comparison m) rest

/-- Each of the calls comes to an end, after those before it. -/
def AllComplete (overflow : Overflow) (comparison : Comparison) :
    Machine M W → List ExecutionCall → Prop
  | _, [] => True
  | m, call :: rest =>
    call.Completes overflow comparison m ∧
      AllComplete overflow comparison (call.result comparison m) rest

end ExecutionCall

namespace Machine

variable {M W : Type} [Memory M] [Writer W] {comparison : Comparison} {m : Machine M W}

section Step

/-- What there is to tell of a step, by how it goes. -/
inductive StepAccount (comparison : Comparison) (m : Machine M W) : List Told → Prop where
  | unfetched {fault : Fault} : outcome fetch m = .error fault →
      outcome (step comparison) m = .error fault →
      (after (step comparison) m).processor.pc = m.processor.pc →
      StepAccount comparison m [.faulted m.processor.pc fault]
  | skipped {fetched : Fetched} : outcome fetch m = .ok fetched →
      Opcode.ofByte? fetched.opcode = none →
      outcome (step comparison) m = .ok (.unknown fetched.opcode) →
      (after (step comparison) m).processor.pc =
        (m.processor.pc + instructionLength fetched.opcode) % addressSpace →
      StepAccount comparison m [.skipped m.processor.pc fetched.opcode]
  | executed {fetched : Fetched} {opcode : Opcode} : outcome fetch m = .ok fetched →
      Opcode.ofByte? fetched.opcode = some opcode →
      outcome (step comparison) m = .ok (.instruction opcode) →
      StepAccount comparison m [.fetched m.processor.pc opcode fetched.a fetched.b]
  | failed {fetched : Fetched} {opcode : Opcode} {fault : Fault} :
      outcome fetch m = .ok fetched → Opcode.ofByte? fetched.opcode = some opcode →
      outcome (step comparison) m = .error fault →
      (after (step comparison) m).processor.pc = m.processor.pc →
      StepAccount comparison m
        [.fetched m.processor.pc opcode fetched.a fetched.b, .faulted m.processor.pc fault]

theorem pc_after_failed_step {fault : Fault} (failed : outcome (step comparison) m = .error fault) :
    (after (step comparison) m).processor.pc = m.processor.pc := by
  cases stepped : step comparison m with
  | ok executed left => cases (outcome_eq_of_ok stepped).symm.trans failed
  | error fault' left => rw [after_eq_of_error stepped, pc_of_step_error stepped]

theorem pc_after_skip {byte : UInt8} (skips : outcome (step comparison) m = .ok (.unknown byte)) :
    (after (step comparison) m).processor.pc =
      (m.processor.pc + instructionLength byte) % addressSpace := by
  cases stepped : step comparison m with
  | ok executed left =>
    cases (outcome_eq_of_ok stepped).symm.trans skips
    rw [after_eq_of_ok stepped]
    exact pc_of_step stepped nofun
  | error fault' left => cases (outcome_eq_of_error stepped).symm.trans skips

/-- What is executed is what was fetched. -/
theorem outcome_execute (comparison : Comparison) (fetched : Fetched) (m : Machine M W) :
    (Opcode.ofByte? fetched.opcode = none ∧
      outcome (execute comparison fetched) m = .ok (.unknown fetched.opcode)) ∨
    ∃ opcode, Opcode.ofByte? fetched.opcode = some opcode ∧
      (outcome (execute comparison fetched) m = .ok (.instruction opcode) ∨
        ∃ fault, outcome (execute comparison fetched) m = .error fault) := by
  cases decoded : Opcode.ofByte? fetched.opcode with
  | none => exact .inl ⟨rfl, outcome_eq_of_ok (execute_of_unknown decoded comparison m)⟩
  | some opcode =>
    refine .inr ⟨opcode, rfl, ?_⟩
    cases executes : execute comparison fetched m with
    | ok executed left =>
      have byte := Opcode.ofByte?_eq_some_iff.mp decoded
      rw [outcome_eq_of_ok executes, (executed_eq_instruction_iff executes).mpr byte.symm]
      exact .inl rfl
    | error fault left => exact .inr ⟨fault, outcome_eq_of_error executes⟩

theorem stepAccount (comparison : Comparison) (m : Machine M W) :
    StepAccount comparison m (m.stepTold comparison) := by
  unfold stepTold
  cases stepBegins comparison m with
  | refused _ unfound ended =>
    simp only [unfound, ended]
    exact .unfetched unfound ended (pc_after_failed_step ended)
  | @fetched fetched between _ found executes =>
    rcases outcome_execute comparison fetched between with ⟨unknown, skips⟩ |
      ⟨opcode, known, completes | ⟨fault, fails⟩⟩
    · have ended := executes.trans skips
      simp only [found, ended, Told.ofFetched, unknown]
      exact .skipped found unknown ended (pc_after_skip ended)
    · simp only [found, executes, completes, Told.ofFetched, known]
      exact .executed found known (executes.trans completes)
    · have ended := executes.trans fails
      simp only [found, ended, Told.ofFetched, known]
      exact .failed found known ended (pc_after_failed_step ended)

/-- The step skips a byte that encodes no instruction. -/
def skips (comparison : Comparison) (m : Machine M W) : Bool :=
  match outcome (step comparison) m with
  | .ok (.unknown _) => true
  | _ => false

/-- The step faults, though all that it is to execute could be fetched. -/
def faultsBehindFetch (comparison : Comparison) (m : Machine M W) : Bool :=
  (outcome fetch m).isOk && !(outcome (step comparison) m).isOk

/-- What is told of a step shows whether it skips a byte, and with its fault how far it goes. -/
theorem counts_of_account {told : List Told} (account : StepAccount comparison m told) :
    told.countP (·.level = .warn) = (skips comparison m).toNat ∧
      (outcome (step comparison) m).isOk.toNat + (faultsBehindFetch comparison m).toNat =
        told.countP (·.level = .warn) + told.countP (·.level = .trace) := by
  cases account with
  | unfetched found ended _ =>
    simp only [skips, faultsBehindFetch, found, ended]
    exact ⟨rfl, rfl⟩
  | skipped found _ ended _ =>
    simp only [skips, faultsBehindFetch, found, ended]
    exact ⟨rfl, rfl⟩
  | executed found _ ended =>
    simp only [skips, faultsBehindFetch, found, ended]
    exact ⟨rfl, rfl⟩
  | failed found _ ended _ =>
    simp only [skips, faultsBehindFetch, found, ended]
    exact ⟨rfl, rfl⟩

/-- The messages of a step are those that say what there is to tell. -/
theorem stepMessages_eq (comparison : Comparison) (m : Machine M W) :
    m.stepMessages comparison = (m.stepTold comparison).map Told.entry := by
  have said (fetched : Fetched) :
      Report.fetched m.processor.pc fetched = (Told.ofFetched m.processor.pc fetched).entry := by
    unfold Report.fetched Told.ofFetched
    cases Opcode.ofByte? fetched.opcode <;> rfl
  unfold stepMessages stepTold
  cases outcome fetch m <;> cases outcome (step comparison) m <;> simp [said, Told.entry]

theorem adds_stepTold (comparison : Comparison) (m : Machine M W) :
    Adds ((m.stepTold comparison).map Told.entry) m (after (step comparison) m) :=
  stepMessages_eq comparison m ▸ adds_step comparison m

end Step

section Run

theorem executed_stepped (comparison : Comparison) (count : Nat) (m : Machine M W) :
    (stepped comparison count m).processor.executed = m.processor.executed +
      ((List.range count).map (stepped comparison · m)).countP
        fun before => (outcome (step comparison) before).isOk := by
  induction count with
  | zero => rfl
  | succ count inductionHypothesis =>
    rw [stepped, executed_after_step, inductionHypothesis, List.range_succ, List.map_append,
      List.countP_append, Nat.add_assoc, List.map_singleton, countP_cons_toNat, List.countP_nil,
      Nat.zero_add]

/-- However many steps are attempted, the log tells of them one by one. -/
theorem adds_stepped (comparison : Comparison) (m : Machine M W) (count : Nat) :
    Adds ((((List.range count).map (stepped comparison · m)).flatMap (stepTold comparison)).map
      Told.entry) m (stepped comparison count m) := by
  induction count with
  | zero => exact .of_log rfl
  | succ count inductionHypothesis =>
    rw [List.range_succ, List.map_append, List.flatMap_append, List.map_append, List.map_singleton,
      List.flatMap_singleton]
    exact inductionHypothesis.trans (adds_stepTold comparison (stepped comparison count m))

theorem ending_eq_map (comparison : Comparison) (m : Machine M W) :
    ending comparison m = (endingTold comparison m).map Told.entry := by
  unfold ending endingTold
  cases run comparison m <;> rfl

/-- A run tells of its start, of its steps and of its end. -/
theorem adds_run (ends : m.processor.state ≠ .halted → Ends (step comparison) m) :
    Adds ((runTold comparison m).map Told.entry) m (after (run comparison) m) := by
  by_cases halted : m.processor.state = .halted
  · rw [runTold, if_pos halted, after_eq_of_ok (run_of_halted comparison halted)]
    exact .of_log rfl
  · have recorded := log_after_run (ends halted) halted
    rw [List.append_assoc] at recorded
    rw [runTold, if_neg halted, List.map_append, List.map_cons, ← ending_eq_map, List.map_flatMap]
    refine ⟨_, recorded, .append (.told (.flatMap ?_)) (.refl _)⟩
    intro before _
    rw [← stepMessages_eq]
    exact amid_tells comparison before

/-- Around the steps of a run nothing is told that is not for debugging. -/
theorem countP_runTold {level : Log.Level} (other : level ≠ .debug) (comparison : Comparison)
    (m : Machine M W) :
    (runTold comparison m).countP (·.level = level) =
      ((runCourse comparison m).flatMap (stepTold comparison)).countP (·.level = level) := by
  have silent : (endingTold comparison m).countP (·.level = level) = 0 := by
    unfold endingTold
    split
    · simp [Told.level, Ne.symm other]
    · rfl
  unfold runTold runCourse
  split
  · rfl
  · rw [List.countP_append, List.countP_cons, silent]
    simp [Told.level, Ne.symm other]

end Run

end Machine

namespace ExecutionCall

open Machine

variable {M W : Type} [Memory M] [Writer W] {overflow : Overflow} {comparison : Comparison}
  {m : Machine M W}

theorem adds_result {call : ExecutionCall} (completes : call.Completes overflow comparison m) :
    Adds ((call.told comparison m).map Told.entry) m (call.result comparison m) := by
  cases call with
  | step => exact adds_stepTold comparison m
  | run => exact adds_run completes.1

theorem executed_result {call : ExecutionCall} (completes : call.Completes overflow comparison m) :
    (call.result comparison m).processor.executed = m.processor.executed +
      (call.steps comparison m).countP
        fun before => (outcome (Machine.step comparison) before).isOk := by
  cases call with
  | step =>
    rw [result, executed_after_step, steps, countP_cons_toNat, List.countP_nil, Nat.zero_add]
  | run =>
    by_cases halted : m.processor.state = .halted
    · rw [result, after_eq_of_ok (run_of_halted comparison halted), steps, runCourse, if_pos halted]
      rfl
    · have ends := completes.1 halted
      rw [result, (coincide_after_run ends).1, executed_stepped, ← runCourse_eq_stepped ends]
      rfl

theorem countP_told {level : Log.Level} (other : level ≠ .debug) (comparison : Comparison)
    (m : Machine M W) (call : ExecutionCall) :
    (call.told comparison m).countP (·.level = level) =
      ((call.steps comparison m).flatMap (stepTold comparison)).countP (·.level = level) := by
  cases call with
  | step => rw [told, steps, List.flatMap_singleton]
  | run => exact countP_runTold other comparison m

theorem adds_resultOf {calls : List ExecutionCall}
    (completes : AllComplete overflow comparison m calls) :
    Adds ((toldOf comparison m calls).map Told.entry) m (resultOf comparison m calls) := by
  induction calls generalizing m with
  | nil => exact .of_log rfl
  | cons call rest inductionHypothesis =>
    rw [toldOf, List.map_append]
    exact (adds_result completes.1).trans (inductionHypothesis completes.2)

theorem executed_resultOf {calls : List ExecutionCall}
    (completes : AllComplete overflow comparison m calls) :
    (resultOf comparison m calls).processor.executed = m.processor.executed +
      (stepsOf comparison m calls).countP
        fun before => (outcome (Machine.step comparison) before).isOk := by
  induction calls generalizing m with
  | nil => rfl
  | cons call rest inductionHypothesis =>
    rw [resultOf, inductionHypothesis completes.2, executed_result completes.1, stepsOf,
      List.countP_append, Nat.add_assoc]

theorem countP_toldOf {level : Log.Level} (other : level ≠ .debug) (comparison : Comparison)
    (m : Machine M W) (calls : List ExecutionCall) :
    (toldOf comparison m calls).countP (·.level = level) =
      ((stepsOf comparison m calls).flatMap (stepTold comparison)).countP (·.level = level) := by
  induction calls generalizing m with
  | nil => rfl
  | cons call rest inductionHypothesis =>
    rw [toldOf, stepsOf, List.flatMap_append, List.countP_append, List.countP_append,
      inductionHypothesis, countP_told other]

/-- All that is asked of a confined machine comes to an end. -/
theorem allComplete_of_confined (confined : m.Confined) (calls : List ExecutionCall) :
    AllComplete overflow comparison m calls := by
  induction calls generalizing m with
  | nil => trivial
  | cons call rest inductionHypothesis =>
    cases call with
    | step =>
      exact ⟨confined.completes overflow comparison,
        inductionHypothesis (confined.after_step comparison)⟩
    | run =>
      exact ⟨confined.runCompletes overflow comparison, inductionHypothesis confined.after_run⟩

end ExecutionCall

namespace Machine

variable {M W : Type} [Memory M] [Writer W]

/-- What is told of steps can be counted instead of the steps. -/
theorem counts_of_steps (comparison : Comparison) (steps : List (Machine M W)) :
    (steps.flatMap (stepTold comparison)).countP (·.level = .warn) =
        steps.countP (skips comparison) ∧
      (steps.countP fun before => (outcome (step comparison) before).isOk) +
          steps.countP (faultsBehindFetch comparison) =
        (steps.flatMap (stepTold comparison)).countP (·.level = .warn) +
          (steps.flatMap (stepTold comparison)).countP (·.level = .trace) := by
  induction steps with
  | nil => exact ⟨rfl, rfl⟩
  | cons before rest inductionHypothesis =>
    obtain ⟨warnings, completed⟩ := inductionHypothesis
    obtain ⟨warning, counted⟩ := counts_of_account (stepAccount comparison before)
    simp only [List.flatMap_cons, List.countP_append, countP_cons_toNat]
    constructor
    · omega
    · omega

/-- One message after the other says what there is to tell. -/
abbrev Say (messages : List Log.Entry) (told : List Told) : Prop :=
  List.Forall₂ Told.SaidIn told messages

theorem say_map_entry (told : List Told) : Say (told.map Told.entry) told := by
  rw [Say, List.forall₂_map_right_iff]
  exact List.forall₂_same.mpr fun told _ => told.saidIn_entry

/-- Messages at a level are as many as there is to tell at that level. -/
theorem Say.countP_hasLevel {messages : List Log.Entry} {told : List Told}
    (say : Say messages told) (level : Log.Level) :
    messages.countP (Log.Entry.hasLevel level) = told.countP (·.level = level) := by
  induction say with
  | nil => rfl
  | cons said _ inductionHypothesis =>
    obtain ⟨text, rfl, -⟩ := said
    rw [List.countP_cons, List.countP_cons, inductionHypothesis]
    rfl

theorem Say.unique {messages : List Log.Entry} {told told' : List Told} (say : Say messages told)
    (say' : Say messages told') : told.map Told.shown = told'.map Told.shown := by
  induction say generalizing told' with
  | nil =>
    cases say'
    rfl
  | cons said _ inductionHypothesis =>
    cases say' with
    | cons said' rest' =>
      rw [List.map_cons, List.map_cons, said.unique said', inductionHypothesis rest']

/-- The messages that steps and runs leave in the log, which a host asks for one after the other. -/
structure AccountsForSteps (comparison : Comparison) (m : Machine M W) (calls : List ExecutionCall)
    (messages : List Log.Entry) : Prop where
  /-- They come in order; whatever else is in the log, the memory has said. -/
  adds : Adds messages m (ExecutionCall.resultOf comparison m calls)
  /-- A memory that has nothing to say leaves the log to them. -/
  adds_no_others : (∀ entry, ¬Says M entry) →
    (ExecutionCall.resultOf comparison m calls).log.toList = m.log.toList ++ messages
  say : Say messages (ExecutionCall.toldOf comparison m calls)
  /-- Their words leave no doubt what is told, but for the cause of a failed write. -/
  clear : ∀ told, Say messages told →
    told.map Told.shown = (ExecutionCall.toldOf comparison m calls).map Told.shown
  steps : ∀ before ∈ ExecutionCall.stepsOf comparison m calls,
    StepAccount comparison before (before.stepTold comparison)
  warnings : messages.countP (Log.Entry.hasLevel .warn) =
    (ExecutionCall.stepsOf comparison m calls).countP (skips comparison)
  /-- The steps that fault behind their fetch are told of, but not counted. -/
  executed : (ExecutionCall.resultOf comparison m calls).processor.executed +
      (ExecutionCall.stepsOf comparison m calls).countP (faultsBehindFetch comparison) =
    m.processor.executed + (messages.countP (Log.Entry.hasLevel .warn) +
      messages.countP (Log.Entry.hasLevel .trace))

/-- The log accounts for every step that is attempted; of a run that does not come to an end it
tells up to any of its steps. -/
theorem log_accounts_for_steps (comparison : Comparison) (m : Machine M W) :
    (∀ (overflow : Overflow) (calls : List ExecutionCall),
      ExecutionCall.AllComplete overflow comparison m calls →
        ∃ messages, AccountsForSteps comparison m calls messages) ∧
    ∀ count, ∃ messages, Adds messages m (stepped comparison count m) ∧
      Say messages
        (((List.range count).map (stepped comparison · m)).flatMap (stepTold comparison)) := by
  refine ⟨fun overflow calls completes => ?_, fun count => ?_⟩
  · have counts := counts_of_steps comparison (ExecutionCall.stepsOf comparison m calls)
    have told (level : Log.Level) (other : level ≠ .debug) :=
      ExecutionCall.countP_toldOf other comparison m calls
    have adds := ExecutionCall.adds_resultOf completes
    have say := say_map_entry (ExecutionCall.toldOf comparison m calls)
    refine ⟨(ExecutionCall.toldOf comparison m calls).map Told.entry, ?_⟩
    constructor
    case adds => exact adds
    case adds_no_others =>
      intro silent
      obtain ⟨added, recorded, amid⟩ := adds
      rw [recorded, amid.eq_of_none silent]
    case say => exact say
    case clear => exact fun told say' => say'.unique say
    case steps => exact fun before _ => stepAccount comparison before
    case warnings =>
      rw [say.countP_hasLevel, told .warn (by decide)]
      exact counts.1
    case executed =>
      rw [say.countP_hasLevel, say.countP_hasLevel, told .warn (by decide),
        told .trace (by decide), ← counts.2, ExecutionCall.executed_resultOf completes,
        Nat.add_assoc]
  · exact ⟨_, adds_stepped comparison m count, say_map_entry _⟩

/-- A byte is skipped, and a print fails for want of its register as often as it is tried. -/
theorem log_accounts_for_steps_missing_register :
    let ram : Ram := Bank.ofImagePrefix [0x82, 1, 7, 0x20, 0x47, 9, 1]
    let m : Machine Ram Sink := { memory := ram, output := {}, diagnostics := {} }
    let calls : List ExecutionCall := [.step, .run, .run]
    ExecutionCall.AllComplete .aborts .contents m calls ∧
      ∃ messages, AccountsForSteps .contents m calls messages ∧
        Say messages [.fetched 0 .ldi 1 7, .running 3, .skipped 3 0x20, .fetched 4 .prn 9 1,
          .faulted 4 (.register 9), .running 4, .fetched 4 .prn 9 1, .faulted 4 (.register 9)] := by
  intro ram m calls
  have completes : ExecutionCall.AllComplete .aborts .contents m calls :=
    ExecutionCall.allComplete_of_confined (.ram m) calls
  obtain ⟨messages, accounts⟩ := (log_accounts_for_steps .contents m).1 .aborts calls completes
  refine ⟨completes, messages, accounts, ?_⟩
  have told : ExecutionCall.toldOf .contents m calls =
      [.fetched 0 .ldi 1 7, .running 3, .skipped 3 0x20, .fetched 4 .prn 9 1,
        .faulted 4 (.register 9), .running 4, .fetched 4 .prn 9 1, .faulted 4 (.register 9)] := by
    simp only [calls, ExecutionCall.toldOf, ExecutionCall.told, ExecutionCall.result, runTold,
      endingTold, visited, run_ram, course_ram]
    decide +kernel
  exact told ▸ accounts.say

end Machine

end ByteMachine
