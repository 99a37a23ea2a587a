import ByteMachine.Proofs.Course
import ByteMachine.Proofs.Instruction

/-!
# What a step records

A step does not look at the log, and takes nothing of it back: it adds what it tells, the same
whatever has been recorded before. Main statement: a step tells of what it has fetched, and then of
the fault that it ends with, if it faults; whatever else is recorded, its memory has said.
-/

namespace ByteMachine.Machine

variable {M W α β : Type}

/-- The same machine with an earlier past: its log begins with these entries, and its diagnostics
have taken other lines. -/
def withPast (past : Array Log.Entry) (diagnostics : W) (m : Machine M W) : Machine M W :=
  { m with log := past ++ m.log, diagnostics }

/-- The same ending on another machine. -/
def mapEnd (f : Machine M W → Machine M W) :
    EStateM.Result Fault (Machine M W) α → EStateM.Result Fault (Machine M W) α
  | .ok value m => .ok value (f m)
  | .error fault m => .error fault (f m)

/-- The action does not look at what was recorded before it, and takes nothing of it back. -/
def Oblivious (act : Action M W α) : Prop :=
  ∀ past diagnostics m,
    act (withPast past diagnostics m) = mapEnd (withPast past diagnostics) (act m)

namespace Oblivious

theorem bind {act : Action M W α} {next : α → Action M W β} (first : Oblivious act)
    (second : ∀ value, Oblivious (next value)) : Oblivious (act >>= next) := by
  intro past diagnostics m
  simp only [Bind.bind, EStateM.bind, first past diagnostics m]
  cases act m with
  | ok value left => exact second value past diagnostics left
  | error fault left => rfl

/-- What is done may depend on the machine, though not on what it has recorded. -/
theorem get_bind {next : Machine M W → Action M W β}
    (blind : ∀ past diagnostics m, next (withPast past diagnostics m) = next m)
    (second : ∀ m, Oblivious (next m)) : Oblivious (MonadState.get >>= next) := by
  intro past diagnostics m
  rw [Machine.get_bind, Machine.get_bind, blind]
  exact second m past diagnostics m

theorem pure (value : α) : Oblivious (Pure.pure value : Action M W α) := fun _ _ _ => rfl

theorem settle (result : Except Fault α) : Oblivious (Machine.settle (M := M) (W := W) result) := by
  intro past diagnostics m
  cases result <;> rfl

theorem updateProcessor (f : Processor → Processor) :
    Oblivious (Machine.updateProcessor (M := M) (W := W) f) := fun _ _ _ => rfl

theorem report (entry : Log.Entry) : Oblivious (Machine.report (M := M) (W := W) entry) := by
  intro past diagnostics m
  simp only [Machine.report, withPast, mapEnd, Array.append_push]

theorem toOutput (use : W → Except WriteError Unit × W) :
    Oblivious (Machine.toOutput (M := M) (W := W) use) := by
  intro past diagnostics m
  exact settle _ past diagnostics { m with output := (use m.output).2 }

theorem print [Writer W] (text : String) :
    Oblivious (Machine.print (M := M) (W := W) text) := toOutput _

theorem getRegister (i : UInt8) : Oblivious (Machine.getRegister (M := M) (W := W) i) :=
  fun past diagnostics m => settle (m.processor.registers.read i) past diagnostics m

theorem setRegister (i value : UInt8) : Oblivious (Machine.setRegister (M := M) (W := W) i value) :=
  (settle _).bind fun _ => updateProcessor _

theorem apply (effect : Alu.Effect) : Oblivious (Machine.apply (M := M) (W := W) effect) := by
  cases effect with
  | register r value => exact updateProcessor (·.setRegister r value)
  | flags flags => exact updateProcessor fun p => { p with flags }

theorem attempt {act : Action M W Executed} (attempted : Oblivious act) :
    Oblivious (Machine.attempt act) := by
  intro past diagnostics m
  have started : act { withPast past diagnostics m with processor.state := .running } =
      mapEnd (withPast past diagnostics) (act { m with processor.state := .running }) :=
    attempted past diagnostics { m with processor.state := .running }
  rw [attempt_apply, attempt_apply, started]
  cases act { m with processor.state := .running } with
  | ok executed left => rfl
  | error fault left => simp only [mapEnd, withPast, Array.append_push]

variable [Memory M]

theorem read (address : Nat) : Oblivious (Machine.read (M := M) (W := W) address) := by
  rintro past diagnostics ⟨p, memory, output, _, log⟩
  have told (entries : List Log.Entry) : past ++ log ++ entries = past ++ (log ++ entries) := by
    simp [← Array.toList_inj]
  simp only [Machine.read, withPast, told]
  cases (Memory.read memory address).result <;> rfl

theorem write (address : Nat) (value : UInt8) :
    Oblivious (Machine.write (M := M) (W := W) address value) := by
  rintro past diagnostics ⟨p, memory, output, _, log⟩
  have told (entries : List Log.Entry) : past ++ log ++ entries = past ++ (log ++ entries) := by
    simp [← Array.toList_inj]
  simp only [Machine.write, withPast, told]
  cases (Memory.write memory address value).result <;> rfl

theorem push (value : UInt8) : Oblivious (Machine.push (M := M) (W := W) value) :=
  get_bind (fun _ _ _ => rfl) fun _ => (updateProcessor _).bind fun _ => write _ value

theorem pop : Oblivious (Machine.pop (M := M) (W := W)) :=
  get_bind (fun _ _ _ => rfl) fun _ => (read _).bind fun value =>
    (updateProcessor _).bind fun _ => pure value

theorem fetch : Oblivious (Machine.fetch (M := M) (W := W)) :=
  get_bind (fun _ _ _ => rfl) fun _ => (read _).bind fun _ => (read _).bind fun _ =>
    (read _).bind fun _ => pure _

variable [Writer W]

theorem perform (comparison : Comparison) (opcode : Opcode) (a b : UInt8) :
    Oblivious (Machine.perform (M := M) (W := W) comparison opcode a b) := by
  cases opcode with
  | hlt => exact updateProcessor fun p => { p with state := .halted }
  | ldi => exact setRegister a b
  | prn => exact (getRegister a).bind fun _ => print _
  | push => exact (getRegister a).bind fun value => push value
  | pop => exact (settle _).bind fun _ => pop.bind fun _ => updateProcessor _
  | alu operation =>
    exact get_bind (fun _ _ _ => rfl) fun _ => (settle _).bind fun effect => apply effect

theorem execute (comparison : Comparison) (fetched : Fetched) :
    Oblivious (Machine.execute (M := M) (W := W) comparison fetched) := by
  refine get_bind (fun _ _ _ => rfl) fun m => ?_
  cases Opcode.ofByte? fetched.opcode with
  | none => exact (report _).bind fun _ => (updateProcessor _).bind fun _ => pure _
  | some opcode =>
    refine (report _).bind fun _ => (perform comparison opcode _ _).bind fun _ => ?_
    by_cases halts : opcode = .hlt
    · simp only [halts, if_true]
      exact (pure _).bind fun _ => pure _
    · simp only [halts, if_false]
      exact (updateProcessor _).bind fun _ => pure _

theorem step (comparison : Comparison) : Oblivious (Machine.step (M := M) (W := W) comparison) :=
  attempt (fetch.bind fun fetched => execute comparison fetched)

end Oblivious

/-- What an action leaves, with all that was recorded before it kept apart. -/
theorem Oblivious.after_eq {act : Action M W α} (oblivious : Oblivious act) (m : Machine M W) :
    after act m = withPast m.log m.diagnostics (after act { m with log := #[] }) := by
  have same : m = withPast m.log m.diagnostics { m with log := #[] } := by simp [withPast]
  conv =>
    lhs
    rw [same, after, oblivious]
  rw [after]
  cases act { m with log := #[] } <;> rfl

section Tells

variable [Memory M] [Writer W] {comparison : Comparison} {m n : Machine M W}

/-- What a step adds to the log. -/
def tells (comparison : Comparison) (m : Machine M W) : List Log.Entry :=
  (after (step comparison) { m with log := #[] }).log.toList

theorem log_after_step (comparison : Comparison) (m : Machine M W) :
    (after (step comparison) m).log.toList = m.log.toList ++ m.tells comparison := by
  rw [(Oblivious.step comparison).after_eq m]
  exact Array.toList_append

theorem diagnostics_after_step (comparison : Comparison) (m : Machine M W) :
    (after (step comparison) m).diagnostics = m.diagnostics := by
  rw [(Oblivious.step comparison).after_eq m]
  rfl

/-- What a step tells does not depend on what has been recorded. -/
theorem Coincide.tells_eq (same : Coincide m n) (comparison : Comparison) :
    m.tells comparison = n.tells comparison := by
  have silent : ({ m with log := #[] } : Machine M W) =
      withPast #[] m.diagnostics { n with log := #[] } := by
    obtain ⟨processor, memory, output⟩ := same
    simp [withPast, processor, memory, output]
  rw [tells, tells, silent, after, Oblivious.step, after]
  cases step comparison { n with log := #[] } <;> simp [mapEnd, withPast]

/-- A loop records what its steps tell, one after the other. -/
theorem log_after_untilHalted (ends : Ends (step comparison) m) :
    (after (untilHalted (step comparison)) m).log.toList =
      m.log.toList ++ (visited comparison m).flatMap (tells comparison) := by
  rw [List.flatMap_def, ← List.foldl_append_eq_append]
  exact view_after_untilHalted (·.log.toList) (fun told m => told ++ m.tells comparison)
    (log_after_step comparison) ends

theorem Coincide.flatMap_tells_eq (same : Coincide m n) (ends : Ends (step comparison) m) :
    (visited comparison m).flatMap (tells comparison) =
      (visited comparison n).flatMap (tells comparison) := by
  rw [List.flatMap_def, List.flatMap_def]
  apply congrArg List.flatten
  exact map_course_eq Coincide.agree (Coincide.alike_step comparison) ends same
    fun same => same.tells_eq comparison

/-- What a run says about its end, if it halts the machine. -/
def ending (comparison : Comparison) (m : Machine M W) : List Log.Entry :=
  match run comparison m with
  | .ok _ left => [Report.halted left.processor.pc left.processor.executed]
  | .error _ _ => []

/-- A run tells of its start, of its steps, and of its end if it halts the machine. -/
theorem log_after_run (ends : Ends (step comparison) m) (running : m.processor.state ≠ .halted) :
    (after (run comparison) m).log.toList =
      m.log.toList ++ Report.running m.processor.pc ::
        (visited comparison m).flatMap (tells comparison) ++ ending comparison m := by
  have logged : Coincide { m with log := m.log.push (Report.running m.processor.pc) } m :=
    ⟨rfl, rfl, rfl⟩
  have ends' := logged.ends_iff.mpr ends
  have recorded := log_after_untilHalted ends'
  rw [logged.flatMap_tells_eq ends', Array.toList_push, List.append_assoc, List.singleton_append]
    at recorded
  simp only [after, ending, run, if_neg running]
  cases looped : untilHalted (step comparison)
      { m with log := m.log.push (Report.running m.processor.pc) } with
  | ok value left =>
    rw [after_eq_of_ok looped] at recorded
    simp only [Array.toList_push, recorded]
  | error fault left =>
    rw [after_eq_of_error looped] at recorded
    simp only [recorded, List.append_nil]

end Tells

/-- What is told about the bytes that a step has fetched, before it executes them. -/
def Report.fetched (pc : Nat) (fetched : Fetched) : Log.Entry :=
  match Opcode.ofByte? fetched.opcode with
  | none => unknownOpcode pc fetched.opcode
  | some opcode => decoded pc opcode fetched.a fetched.b

/-- What the processor has to say of a step: first of what it has fetched, then of the fault that
the step ends with. -/
def stepMessages [Memory M] [Writer W] (comparison : Comparison) (m : Machine M W) :
    List Log.Entry :=
  (match outcome fetch m with
    | .ok fetched => [Report.fetched m.processor.pc fetched]
    | .error _ => []) ++
  match outcome (step comparison) m with
    | .ok _ => []
    | .error fault => [Report.faulted m.processor.pc fault]

/-- A log has these entries in order, amid others. -/
inductive Amid (others : Log.Entry → Prop) : List Log.Entry → List Log.Entry → Prop where
  | nil : Amid others [] []
  | told {entry told log} : Amid others told log → Amid others (entry :: told) (entry :: log)
  | other {entry told log} : others entry → Amid others told log → Amid others told (entry :: log)

namespace Amid

variable {others : Log.Entry → Prop} {told told' log log' : List Log.Entry}

theorem refl (entries : List Log.Entry) : Amid others entries entries := by
  induction entries with
  | nil => exact .nil
  | cons entry rest inductionHypothesis => exact .told inductionHypothesis

theorem of_others (said : ∀ entry ∈ log, others entry) : Amid others [] log := by
  induction log with
  | nil => exact .nil
  | cons entry rest inductionHypothesis =>
    obtain ⟨first, later⟩ := List.forall_mem_cons.mp said
    exact .other first (inductionHypothesis later)

theorem append (first : Amid others told log) (second : Amid others told' log') :
    Amid others (told ++ told') (log ++ log') := by
  induction first with
  | nil => exact second
  | told _ inductionHypothesis => exact .told inductionHypothesis
  | other said _ inductionHypothesis => exact .other said inductionHypothesis

theorem flatMap {messages records : α → List Log.Entry} {list : List α}
    (each : ∀ a ∈ list, Amid others (messages a) (records a)) :
    Amid others (list.flatMap messages) (list.flatMap records) := by
  induction list with
  | nil => exact .nil
  | cons a rest inductionHypothesis =>
    obtain ⟨first, later⟩ := List.forall_mem_cons.mp each
    exact first.append (inductionHypothesis later)

/-- Where nobody else says anything, there is nothing else in the log. -/
theorem eq_of_none (none : ∀ entry, ¬others entry) (amid : Amid others told log) : log = told := by
  induction amid with
  | nil => rfl
  | told _ inductionHypothesis => rw [inductionHypothesis]
  | other said => exact absurd said (none _)

end Amid

section Adds

variable [Memory M] {m n o : Machine M W} {told told' : List Log.Entry}

/-- What a memory of this kind has to say itself. -/
def Says (M : Type) [Memory M] (entry : Log.Entry) : Prop :=
  (∃ (memory : M) (address : Nat), entry ∈ (Memory.read memory address).messages) ∨
    ∃ (memory : M) (address : Nat) (value : UInt8),
      entry ∈ (Memory.write memory address value).messages

/-- Between `m` and `n` these messages have been added to the log, amid what the memory says. -/
def Adds (told : List Log.Entry) (m n : Machine M W) : Prop :=
  ∃ added, n.log.toList = m.log.toList ++ added ∧ Amid (Says M) told added

namespace Adds

theorem of_log (same : n.log = m.log) : Adds [] m n :=
  ⟨[], by rw [same, List.append_nil], .nil⟩

theorem push (entry : Log.Entry) : Adds [entry] m { m with log := m.log.push entry } :=
  ⟨[entry], Array.toList_push, .refl _⟩

theorem trans (first : Adds told m n) (second : Adds told' n o) : Adds (told ++ told') m o := by
  obtain ⟨added, recorded, amid⟩ := first
  obtain ⟨added', recorded', amid'⟩ := second
  refine ⟨added ++ added', ?_, amid.append amid'⟩
  rw [recorded', recorded, List.append_assoc]

theorem trans_quiet (first : Adds told m n) (second : Adds [] n o) : Adds told m o :=
  List.append_nil told ▸ first.trans second

end Adds

/-- The action leaves it to the memory to say something. -/
def Quiet (act : Action M W α) : Prop := ∀ m, Adds [] m (after act m)

namespace Quiet

theorem of_keeps {act : Action M W α} (kept : Keeps Machine.log act) : Quiet act :=
  fun m => .of_log (kept m)

theorem bind {act : Action M W α} {next : α → Action M W β} (first : Quiet act)
    (second : ∀ value, Quiet (next value)) : Quiet (act >>= next) := by
  intro m
  have begun := first m
  rw [after_bind]
  cases acted : act m with
  | ok value between =>
    rw [after_eq_of_ok acted] at begun
    exact begun.trans (second value between)
  | error fault left =>
    rw [after_eq_of_error acted] at begun
    exact begun

theorem read (address : Nat) : Quiet (Machine.read (M := M) (W := W) address) := by
  intro m
  rw [after_read]
  exact ⟨_, Array.toList_appendList, .of_others fun _ said => .inl ⟨m.memory, address, said⟩⟩

theorem write (address : Nat) (value : UInt8) :
    Quiet (Machine.write (M := M) (W := W) address value) := by
  intro m
  rw [after_write]
  exact ⟨_, Array.toList_appendList, .of_others fun _ said => .inr ⟨m.memory, address, value, said⟩⟩

theorem fetch : Quiet (Machine.fetch (M := M) (W := W)) :=
  bind (of_keeps Keeps.get) fun _ => bind (read _) fun _ => bind (read _) fun _ =>
    bind (read _) fun _ => of_keeps (Keeps.pure _)

variable [Writer W]

theorem perform (comparison : Comparison) (opcode : Opcode) (a b : UInt8) :
    Quiet (Machine.perform (M := M) (W := W) comparison opcode a b) := by
  cases opcode with
  | push =>
    refine bind (of_keeps (Keeps.getRegister a)) fun value => ?_
    exact bind (of_keeps Keeps.get) fun _ =>
      bind (of_keeps (Keeps.updateProcessor fun _ => rfl)) fun _ => write _ value
  | pop =>
    refine bind (of_keeps (Keeps.settle _)) fun _ => bind ?_ fun _ =>
      of_keeps (Keeps.updateProcessor fun _ => rfl)
    exact bind (of_keeps Keeps.get) fun _ => bind (read _) fun _ =>
      bind (of_keeps (Keeps.updateProcessor fun _ => rfl)) fun _ => of_keeps (Keeps.pure _)
  | hlt => exact of_keeps fun _ => rfl
  | ldi => exact of_keeps (Keeps.setRegister fun _ _ => rfl)
  | prn =>
    exact of_keeps (Keeps.bind (Keeps.getRegister a) fun _ => Keeps.print fun _ _ => rfl)
  | alu operation =>
    refine bind (of_keeps Keeps.get) fun _ => bind (of_keeps (Keeps.settle _)) fun effect => ?_
    cases effect <;> exact of_keeps fun _ => rfl

end Quiet

/-- An attempt that faults tells of that last. -/
theorem adds_attempt {act : Action M W Executed} {told : List Log.Entry}
    (acts : Adds told m (after act { m with processor.state := .running })) :
    Adds (told ++ match outcome (attempt act) m with
      | .ok _ => []
      | .error fault => [Report.faulted (after (attempt act) m).processor.pc fault])
      m (after (attempt act) m) := by
  rw [outcome_attempt, after, attempt_apply]
  cases acted : act { m with processor.state := .running } with
  | ok executed left =>
    rw [after_eq_of_ok acted] at acts
    rw [outcome_eq_of_ok acted]
    exact acts.trans (.of_log rfl)
  | error fault left =>
    rw [after_eq_of_error acted] at acts
    rw [outcome_eq_of_error acted]
    exact acts.trans (.push _)

variable [Writer W]

/-- Executing tells of what has been fetched. -/
theorem adds_execute (comparison : Comparison) (fetched : Fetched) (m : Machine M W) :
    Adds [Report.fetched m.processor.pc fetched] m (after (execute comparison fetched) m) := by
  cases decoded : Opcode.ofByte? fetched.opcode with
  | none =>
    rw [after_eq_of_ok (execute_of_unknown decoded comparison m), Report.fetched, decoded]
    exact .trans_quiet (.push _) (.of_log rfl)
  | some opcode =>
    rw [after, execute_of_known decoded, Report.fetched, decoded]
    have quiet := Quiet.perform comparison opcode fetched.a fetched.b
      { m with log := m.log.push (Report.decoded m.processor.pc opcode fetched.a fetched.b) }
    cases performed : perform comparison opcode fetched.a fetched.b
        { m with log := m.log.push (Report.decoded m.processor.pc opcode fetched.a fetched.b) } with
    | ok _ left =>
      rw [after_eq_of_ok performed] at quiet
      have added := Adds.trans_quiet (.push _) quiet
      dsimp only
      split <;> exact added
    | error fault left =>
      rw [after_eq_of_error performed] at quiet
      exact .trans_quiet (.push _) quiet

/-- What a step has to say before it is known how it ends. -/
theorem adds_fetch_execute (comparison : Comparison) (m : Machine M W) :
    Adds (match outcome fetch m with
      | .ok fetched => [Report.fetched m.processor.pc fetched]
      | .error _ => []) m (after (fetch >>= execute comparison) m) := by
  have quiet := Quiet.fetch m
  rw [after_bind]
  cases fetching : fetch m with
  | error fault left =>
    rw [after_eq_of_error fetching] at quiet
    rw [outcome_eq_of_error fetching]
    exact quiet
  | ok fetched between =>
    rw [after_eq_of_ok fetching] at quiet
    have executes := adds_execute comparison fetched between
    rw [keeps_processor_fetch.of_ok fetching] at executes
    rw [outcome_eq_of_ok fetching]
    exact quiet.trans executes

/-- A step tells of what it has fetched, and then of the fault that it ends with. -/
theorem adds_step (comparison : Comparison) (m : Machine M W) :
    Adds (m.stepMessages comparison) m (after (step comparison) m) := by
  have begun : Adds (match outcome fetch m with
      | .ok fetched => [Report.fetched m.processor.pc fetched]
      | .error _ => []) m
      (after (fetch >>= execute comparison) { m with processor.state := .running }) := by
    rw [← outcome_fetch_running]
    exact adds_fetch_execute comparison { m with processor.state := .running }
  have ended : Adds (_ ++ match outcome (step comparison) m with
      | .ok _ => []
      | .error fault => [Report.faulted (after (step comparison) m).processor.pc fault])
      m (after (step comparison) m) := adds_attempt begun
  rw [stepMessages]
  cases stepped : step comparison m with
  | ok executed left => rwa [outcome_eq_of_ok stepped] at ended ⊢
  | error fault left =>
    have unmoved : (after (step comparison) m).processor.pc = m.processor.pc := by
      rw [after_eq_of_error stepped, pc_of_step_error stepped]
    rw [unmoved] at ended
    rwa [outcome_eq_of_error stepped] at ended ⊢

/-- What a step adds to the log are its messages, amid what the memory says. -/
theorem amid_tells (comparison : Comparison) (m : Machine M W) :
    Amid (Says M) (m.stepMessages comparison) (m.tells comparison) := by
  obtain ⟨added, recorded, amid⟩ := adds_step comparison m
  rw [log_after_step] at recorded
  rwa [List.append_cancel_left recorded]

end Adds

section Plain

variable [Memory M] [Writer W] [PlainMemory M]

theorem not_says_plain (entry : Log.Entry) : ¬Says M entry := by
  rintro (⟨memory, address, said⟩ | ⟨memory, address, value, said⟩)
  · simp [PlainMemory.read_eq] at said
  · rw [PlainMemory.write_eq] at said
    cases stored : PlainMemory.set memory address value <;> simp [stored] at said

/-- On a plain memory nothing is recorded but what the processor has to say. -/
theorem tells_eq (comparison : Comparison) (m : Machine M W) :
    m.tells comparison = m.stepMessages comparison :=
  (amid_tells comparison m).eq_of_none not_says_plain

end Plain

end ByteMachine.Machine
