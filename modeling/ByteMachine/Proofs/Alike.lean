import ByteMachine.Machine.Step

/-!
# Actions that go alike

Two actions go alike if from related machines they end with the same value or the same fault, on
machines that are related again. The first of them may also part from the second, by faults that
are named beforehand. Main statement: a step goes alike on all machines whose relation the
elementary actions respect, whatever memories they have.
-/

namespace ByteMachine

instance decidableEqExcept {ε α : Type} [DecidableEq ε] [DecidableEq α] :
    DecidableEq (Except ε α)
  | .ok a, .ok b => decidable_of_iff (a = b) (by simp)
  | .error e, .error f => decidable_of_iff (e = f) (by simp)
  | .ok _, .error _ | .error _, .ok _ => isFalse nofun

/-- The two processors differ at most in what the execution of a program never looks at. -/
def Processor.Agree (p q : Processor) : Prop :=
  p.pc = q.pc ∧ p.registers = q.registers ∧ p.state = q.state

/-- A change of the processor that depends on no more than what execution looks at. -/
def Processor.Respects (f : Processor → Processor) : Prop :=
  ∀ p q, Processor.Agree p q → Processor.Agree (f p) (f q)

namespace Processor

theorem respects_setRegister (r : RegisterIndex) (value : UInt8) :
    Respects (·.setRegister r value) := by
  rintro p q ⟨pc, registers, state⟩
  exact ⟨pc, congrArg (·.set r value r.isLt) registers, state⟩

theorem respects_flags (flags : UInt8) : Respects fun p => { p with flags } :=
  fun _ _ agree => agree

theorem respects_advance (length : Nat) : Respects (·.advance length) := by
  rintro p q ⟨pc, registers, state⟩
  refine ⟨?_, registers, state⟩
  rw [pc_advance, pc_advance, pc]

theorem respects_state (state : RunState) : Respects fun p => { p with state } := by
  rintro p q ⟨pc, registers, -⟩
  exact ⟨pc, registers, rfl⟩

theorem respects_count : Respects fun p => { p with executed := p.executed + 1 } :=
  fun _ _ agree => agree

end Processor

/-- The same opcode byte, and the same bytes among the operands that its length takes in. -/
def Fetched.SameInstruction (f g : Fetched) : Prop :=
  f.opcode = g.opcode ∧ (1 < instructionLength f.opcode → f.a = g.a) ∧
    (2 < instructionLength f.opcode → f.b = g.b)

theorem Fetched.SameInstruction.refl (f : Fetched) : f.SameInstruction f :=
  ⟨rfl, fun _ => rfl, fun _ => rfl⟩

namespace Machine

variable {M N W α β : Type}

/-- Operands that an instruction does not have do not matter to it. -/
theorem perform_congr [Memory M] [Writer W] {f g : Fetched} {opcode : Opcode}
    (decoded : Opcode.ofByte? f.opcode = some opcode) (same : f.SameInstruction g)
    (comparison : Comparison) :
    perform (M := M) (W := W) comparison opcode f.a f.b = perform comparison opcode g.a g.b := by
  obtain ⟨-, first, second⟩ := same
  rw [← Opcode.ofByte?_eq_some_iff.mp decoded] at first second
  cases opcode with
  | hlt => rfl
  | push => rw [perform, perform, first (by decide)]
  | pop => rw [perform, perform, first (by decide)]
  | prn => rw [perform, perform, first (by decide)]
  | ldi => rw [first (by decide), second (by decide)]
  | alu operation =>
    have short : 2 < instructionLength (Opcode.alu operation).byte := by
      cases operation <;> decide
    rw [first (by omega), second short]

/-- The value or the fault an action ends with. -/
def outcome (act : Action M W α) (m : Machine M W) : Except Fault α :=
  match act m with
  | .ok value _ => .ok value
  | .error fault _ => .error fault

theorem outcome_eq_of_ok {act : Action M W α} {m m' : Machine M W} {value : α}
    (h : act m = .ok value m') : outcome act m = .ok value := by rw [outcome, h]

theorem outcome_eq_of_error {act : Action M W α} {m m' : Machine M W} {fault : Fault}
    (h : act m = .error fault m') : outcome act m = .error fault := by rw [outcome, h]

theorem outcome_bind (act : Action M W α) (next : α → Action M W β) (m : Machine M W) :
    outcome (act >>= next) m =
      match act m with
      | .ok value m => outcome (next value) m
      | .error fault _ => .error fault := by
  simp only [outcome, bind, EStateM.bind]
  cases act m <;> rfl

theorem outcome_attempt (act : Action M W Executed) (m : Machine M W) :
    outcome (attempt act) m = outcome act { m with processor.state := .running } := by
  rw [outcome, outcome, attempt_apply]
  cases act { m with processor.state := .running } <;> rfl

/-- A step ends with what fetching ends with, or else with what executing does. -/
theorem outcome_step [Memory M] [Writer W] (comparison : Comparison) (m : Machine M W) :
    outcome (step comparison) m =
      match fetch { m with processor.state := .running } with
      | .ok fetched between => outcome (execute comparison fetched) between
      | .error fault _ => .error fault := by
  rw [step, outcome_attempt, outcome_bind]
  cases fetch { m with processor.state := .running } <;> rfl

/-- Two endings with the same value or fault on related machines, or a parting fault. -/
inductive Matched (R : Machine M W → Machine N W → Prop) (parted : Fault → Machine M W → Prop) :
    EStateM.Result Fault (Machine M W) α → EStateM.Result Fault (Machine N W) α → Prop where
  | ok {value m n} : R m n → Matched R parted (.ok value m) (.ok value n)
  | error {fault m n} : R m n → Matched R parted (.error fault m) (.error fault n)
  | parted {fault m result} : parted fault m → Matched R parted (.error fault m) result

/-- No fault parts the machines. -/
def unparted : Fault → Machine M W → Prop := fun _ _ => False

def Alike (R : Machine M W → Machine N W → Prop) (parted : Fault → Machine M W → Prop)
    (f : Action M W α) (g : Action N W α) : Prop :=
  ∀ ⦃m n⦄, R m n → Matched R parted (f m) (g n)

variable {R : Machine M W → Machine N W → Prop} {parted : Fault → Machine M W → Prop}

theorem Matched.inv {first : EStateM.Result Fault (Machine M W) α}
    {second : EStateM.Result Fault (Machine N W) α} (matched : Matched R parted first second) :
    (∃ value m n, first = .ok value m ∧ second = .ok value n ∧ R m n) ∨
      (∃ fault m n, first = .error fault m ∧ second = .error fault n ∧ R m n) ∨
        ∃ fault m, first = .error fault m ∧ parted fault m := by
  cases matched with
  | ok related => exact .inl ⟨_, _, _, rfl, rfl, related⟩
  | error related => exact .inr (.inl ⟨_, _, _, rfl, rfl, related⟩)
  | parted apart => exact .inr (.inr ⟨_, _, rfl, apart⟩)

theorem Matched.inv_unparted {first : EStateM.Result Fault (Machine M W) α}
    {second : EStateM.Result Fault (Machine N W) α} (matched : Matched R unparted first second) :
    (∃ value m n, first = .ok value m ∧ second = .ok value n ∧ R m n) ∨
      ∃ fault m n, first = .error fault m ∧ second = .error fault n ∧ R m n := by
  rcases matched.inv with ended | ended | ⟨fault, m, -, apart⟩
  · exact .inl ended
  · exact .inr ended
  · exact apart.elim

theorem Matched.unparted_or {first : EStateM.Result Fault (Machine M W) α}
    {second : EStateM.Result Fault (Machine N W) α} (matched : Matched R parted first second) :
    Matched R unparted first second ∨ ∃ fault m, first = .error fault m ∧ parted fault m := by
  cases matched with
  | ok related => exact .inl (.ok related)
  | error related => exact .inl (.error related)
  | parted apart => exact .inr ⟨_, _, rfl, apart⟩

theorem Matched.imp {R' : Machine M W → Machine N W → Prop} {parted' : Fault → Machine M W → Prop}
    {first : EStateM.Result Fault (Machine M W) α} {second : EStateM.Result Fault (Machine N W) α}
    (matched : Matched R parted first second) (related : ∀ {m n}, R m n → R' m n)
    (apart : ∀ {fault m}, parted fault m → parted' fault m) : Matched R' parted' first second := by
  cases matched with
  | ok same => exact .ok (related same)
  | error same => exact .error (related same)
  | parted faulted => exact .parted (apart faulted)

theorem Matched.of_ok {value : α} {m : Machine M W} {second : EStateM.Result Fault (Machine N W) α}
    (matched : Matched R parted (.ok value m) second) : ∃ n, second = .ok value n ∧ R m n := by
  cases matched with
  | ok related => exact ⟨_, rfl, related⟩

theorem Matched.of_error {fault : Fault} {m : Machine M W}
    {second : EStateM.Result Fault (Machine N W) α}
    (matched : Matched R unparted (.error fault m) second) :
    ∃ n, second = .error fault n ∧ R m n := by
  cases matched with
  | error related => exact ⟨_, rfl, related⟩
  | parted apart => exact apart.elim

section Action

variable {f : Action M W α} {g : Action N W α} {m : Machine M W} {n : Machine N W}

theorem Matched.outcome_eq (matched : Matched R unparted (f m) (g n)) :
    outcome f m = outcome g n := by
  rcases matched.inv_unparted with ⟨value, m', n', first, second, -⟩ |
    ⟨fault, m', n', first, second, -⟩
  · rw [outcome_eq_of_ok first, outcome_eq_of_ok second]
  · rw [outcome_eq_of_error first, outcome_eq_of_error second]

theorem Matched.after (matched : Matched R unparted (f m) (g n)) : R (after f m) (after g n) := by
  rcases matched.inv_unparted with ⟨value, m', n', first, second, related⟩ |
    ⟨fault, m', n', first, second, related⟩
  · rwa [after_eq_of_ok first, after_eq_of_ok second]
  · rwa [after_eq_of_error first, after_eq_of_error second]

theorem Matched.bind {f' : α → Action M W β} {g' : α → Action N W β}
    (first : Matched R parted (f m) (g n))
    (second : ∀ value, Alike R parted (f' value) (g' value)) :
    Matched R parted ((f >>= f') m) ((g >>= g') n) := by
  simp only [Bind.bind, EStateM.bind]
  rcases first.inv with ⟨value, m', n', hf, hg, related⟩ | ⟨fault, m', n', hf, hg, related⟩ |
    ⟨fault, m', hf, apart⟩
  · rw [hf, hg]
    exact second value related
  · rw [hf, hg]
    exact .error related
  · rw [hf]
    exact .parted apart

end Action

namespace Alike

theorem bind {f : Action M W α} {g : Action N W α} {f' : α → Action M W β} {g' : α → Action N W β}
    (first : Alike R parted f g) (second : ∀ value, Alike R parted (f' value) (g' value)) :
    Alike R parted (f >>= f') (g >>= g') :=
  fun _ _ related => (first related).bind second

theorem settle (result : Except Fault α) :
    Alike R parted (Machine.settle result) (Machine.settle result) := by
  intro m n related
  cases result with
  | ok value => exact .ok related
  | error fault => exact .error related

theorem pure (value : α) : Alike R parted (Pure.pure value) (Pure.pure value) :=
  fun _ _ related => .ok related

/-- Machines with the same output use it alike. -/
theorem toOutput (same : ∀ {m n}, R m n → m.output = n.output)
    (kept : ∀ {m n} output, R m n → R { m with output } { n with output })
    (use : W → Except WriteError Unit × W) :
    Alike R parted (Machine.toOutput use) (Machine.toOutput use) := by
  intro m n related
  simp only [Machine.toOutput, same related]
  exact settle _ (kept _ related)

theorem print [Writer W] (same : ∀ {m n}, R m n → m.output = n.output)
    (kept : ∀ {m n} output, R m n → R { m with output } { n with output }) (text : String) :
    Alike R parted (Machine.print text) (Machine.print text) :=
  toOutput same kept _

end Alike

/-- A relation that the elementary actions respect. Nothing is asked of reads and writes past the
top of memory, or of the log. -/
structure Simulation (R : Machine M W → Machine N W → Prop) (parted : Fault → Machine M W → Prop)
    [Memory M] [Memory N] [Writer W] : Prop where
  agree : ∀ {m n}, R m n → m.processor.Agree n.processor
  update : ∀ {m n f}, Processor.Respects f → R m n →
    R { m with processor := f m.processor } { n with processor := f n.processor }
  log : ∀ {m n} log log', R m n → R { m with log } { n with log := log' }
  read : ∀ {address}, address < memorySize →
    Alike R parted (Machine.read address) (Machine.read address)
  write : ∀ {address} value, address < memorySize →
    Alike R parted (Machine.write address value) (Machine.write address value)
  print : ∀ text, Alike R parted (Machine.print text) (Machine.print text)
  /-- What a step still does after a fault does not bring the machines together again. -/
  parted_faulted : ∀ {fault m} log, parted fault m →
    parted fault { m with processor.state := .faulted, log }

namespace Simulation

variable [Memory M] [Memory N] [Writer W]

theorem updateProcessor (sim : Simulation R parted) {f : Processor → Processor}
    (respects : Processor.Respects f) :
    Alike R parted (updateProcessor f) (updateProcessor f) :=
  fun _ _ related => .ok (sim.update respects related)

theorem getRegister (sim : Simulation R parted) (i : UInt8) :
    Alike R parted (getRegister i) (getRegister i) := by
  intro m n related
  simp only [Machine.getRegister, (sim.agree related).2.1]
  exact Alike.settle _ related

theorem setRegister (sim : Simulation R parted) (i value : UInt8) :
    Alike R parted (setRegister i value) (setRegister i value) :=
  (Alike.settle _).bind fun r => sim.updateProcessor (Processor.respects_setRegister r value)

theorem setStackPointer (sim : Simulation R parted) (value : UInt8) :
    Alike R parted (setStackPointer value) (setStackPointer value) :=
  sim.updateProcessor (Processor.respects_setRegister _ value)

theorem stackPointer_eq (sim : Simulation R parted) {m : Machine M W} {n : Machine N W}
    (related : R m n) : m.processor.stackPointer = n.processor.stackPointer :=
  congrArg (·.get Registers.stackPointer) (sim.agree related).2.1

theorem push (sim : Simulation R parted) (value : UInt8) :
    Alike R parted (push value) (push value) := by
  intro m n related
  rw [push_apply, push_apply, ← sim.stackPointer_eq related]
  exact (sim.setStackPointer _).bind (fun _ => sim.write value (UInt8.toNat_lt _)) related

theorem pop (sim : Simulation R parted) : Alike R parted (pop (M := M) (W := W)) pop := by
  intro m n related
  rw [pop_apply, pop_apply, ← sim.stackPointer_eq related]
  refine (sim.read (UInt8.toNat_lt _)).bind (fun value => ?_) related
  exact (sim.setStackPointer _).bind fun _ => Alike.pure value

theorem apply (sim : Simulation R parted) (effect : Alu.Effect) :
    Alike R parted (Machine.apply effect) (Machine.apply effect) := by
  cases effect with
  | register r value => exact sim.updateProcessor (Processor.respects_setRegister r value)
  | flags flags => exact sim.updateProcessor (Processor.respects_flags flags)

theorem perform (sim : Simulation R parted) (comparison : Comparison) (opcode : Opcode)
    (a b : UInt8) :
    Alike R parted (perform comparison opcode a b) (perform comparison opcode a b) := by
  cases opcode with
  | hlt => exact sim.updateProcessor (Processor.respects_state .halted)
  | ldi => exact sim.setRegister a b
  | prn => exact (sim.getRegister a).bind fun _ => sim.print _
  | push => exact (sim.getRegister a).bind fun value => sim.push value
  | pop =>
    exact (Alike.settle _).bind fun target => sim.pop.bind fun value =>
      sim.updateProcessor (Processor.respects_setRegister target value)
  | alu operation =>
    intro m n related
    rw [perform_alu, perform_alu, ← (sim.agree related).2.1]
    exact (Alike.settle _).bind (fun effect => sim.apply effect) related

/-- Executing goes alike if performing does, whatever the two sides compare. -/
theorem execute_of_perform (sim : Simulation R parted) {c c' : Comparison} {f g : Fetched}
    (same : f.opcode = g.opcode)
    (performs : ∀ opcode, Opcode.ofByte? f.opcode = some opcode →
      Alike R parted (Machine.perform c opcode f.a f.b) (Machine.perform c' opcode g.a g.b)) :
    Alike R parted (Machine.execute c f) (Machine.execute c' g) := by
  intro m n related
  cases decoded : Opcode.ofByte? f.opcode with
  | none =>
    rw [execute_of_unknown decoded, execute_of_unknown (same ▸ decoded), ← same]
    exact .ok (sim.log _ _ (sim.update (Processor.respects_advance _) related))
  | some opcode =>
    rw [execute_of_known decoded, execute_of_known (same ▸ decoded)]
    have logged := sim.log (m.log.push (Report.decoded m.processor.pc opcode f.a f.b))
      (n.log.push (Report.decoded n.processor.pc opcode g.a g.b)) related
    rcases (performs opcode decoded logged).inv with
      ⟨value, m', n', hf, hg, related'⟩ | ⟨fault, m', n', hf, hg, related'⟩ |
      ⟨fault, m', hf, apart⟩
    · rw [hf, hg]
      by_cases halts : opcode = .hlt
      · simp only [halts, if_true]
        exact .ok related'
      · simp only [halts, if_false]
        exact .ok (sim.update (Processor.respects_advance opcode.length) related')
    · rw [hf, hg]
      exact .error related'
    · rw [hf]
      exact .parted apart

theorem execute (sim : Simulation R parted) (comparison : Comparison) {f g : Fetched}
    (same : f.SameInstruction g) :
    Alike R parted (execute comparison f) (execute comparison g) := by
  apply sim.execute_of_perform same.1
  intro opcode decoded
  rw [perform_congr decoded same]
  exact sim.perform comparison opcode g.a g.b

/-- Attempts go alike if what they attempt does, once both machines are running. -/
theorem attempt_of_running (sim : Simulation R parted) {f : Action M W Executed}
    {g : Action N W Executed} {m : Machine M W} {n : Machine N W} (related : R m n)
    (alike : R { m with processor.state := .running } { n with processor.state := .running } →
      Matched R parted (f { m with processor.state := .running })
        (g { n with processor.state := .running })) :
    Matched R parted (attempt f m) (attempt g n) := by
  have started := alike (sim.update (Processor.respects_state .running) related)
  rw [attempt_apply, attempt_apply]
  rcases started.inv with ⟨value, m', n', hf, hg, related'⟩ | ⟨fault, m', n', hf, hg, related'⟩ |
    ⟨fault, m', hf, apart⟩
  · rw [hf, hg]
    exact .ok (sim.update Processor.respects_count related')
  · rw [hf, hg]
    exact .error (sim.log _ _ (sim.update (Processor.respects_state .faulted) related'))
  · rw [hf]
    exact .parted (sim.parted_faulted _ apart)

theorem attempt (sim : Simulation R parted) {f : Action M W Executed} {g : Action N W Executed}
    {m : Machine M W} {n : Machine N W} (related : R m n)
    (alike : ∀ m' n', R m' n' → m'.processor.pc = m.processor.pc → Matched R parted (f m') (g n')) :
    Matched R parted (attempt f m) (attempt g n) := by
  apply sim.attempt_of_running related
  intro started
  exact alike _ _ started rfl

/-- Operand addresses wrap, so only the opcode can lie where the relation says nothing. -/
theorem fetch (sim : Simulation R parted) {m : Machine M W} {n : Machine N W} (related : R m n)
    (opcode : Alike R parted (Machine.read m.processor.pc) (Machine.read m.processor.pc)) :
    Matched R parted (fetch m) (fetch n) := by
  have pc := (sim.agree related).1
  rw [fetch_apply, fetch_apply, ← pc]
  refine opcode.bind (fun _ => ?_) related
  have operand (address : Nat) := sim.read (Nat.mod_lt address (by decide : memorySize > 0))
  exact (operand _).bind fun _ => (operand _).bind fun _ => Alike.pure _

theorem step (sim : Simulation R parted) (comparison : Comparison) {m : Machine M W}
    {n : Machine N W} (related : R m n)
    (opcode : Alike R parted (Machine.read m.processor.pc) (Machine.read m.processor.pc)) :
    Matched R parted (step comparison m) (step comparison n) := by
  apply sim.attempt related
  intro m' n' related' pc
  have fetches := sim.fetch related' (pc ▸ opcode)
  exact fetches.bind fun fetched => sim.execute comparison (.refl fetched)

end Simulation

/-- Machines on the same memory, whose processors and outputs are related. -/
structure Paired (P : Processor → Processor → Prop) (S : W → W → Prop) (m n : Machine M W) :
    Prop where
  processor : P m.processor n.processor
  memory : m.memory = n.memory
  output : S m.output n.output

namespace Paired

variable {P : Processor → Processor → Prop} {S : W → W → Prop}
  {parted : Fault → Machine M W → Prop} [Memory M]

theorem alike_read (address : Nat) :
    Alike (Paired P S) parted (Machine.read (M := M) (W := W) address) (Machine.read address) := by
  rintro ⟨p, memory, output, _, log⟩ ⟨q, _, output', _, log'⟩ ⟨processors, rfl, outputs⟩
  exact Alike.settle _ ⟨processors, rfl, outputs⟩

theorem alike_write (address : Nat) (value : UInt8) :
    Alike (Paired P S) parted (Machine.write (M := M) (W := W) address value)
      (Machine.write address value) := by
  rintro ⟨p, memory, output, _, log⟩ ⟨q, _, output', _, log'⟩ ⟨processors, rfl, outputs⟩
  exact Alike.settle _ ⟨processors, rfl, outputs⟩

/-- What is fetched depends on the program counter and the memory only. -/
theorem alike_fetch (pc : ∀ {p q}, P p q → p.pc = q.pc) :
    Alike (Paired P S) parted (Machine.fetch (M := M) (W := W)) Machine.fetch := by
  intro m n related
  rw [fetch_apply, fetch_apply, ← pc related.processor]
  refine (alike_read _).bind (fun _ => ?_) related
  exact (alike_read _).bind fun _ => (alike_read _).bind fun _ => Alike.pure _

omit [Memory M] in
theorem agree {m n : Machine M W} (related : Paired Eq S m n) : m.processor.Agree n.processor :=
  related.processor ▸ ⟨rfl, rfl, rfl⟩

variable [Writer W]

theorem simulation (agree : ∀ {p q}, P p q → p.Agree q)
    (update : ∀ {p q f}, Processor.Respects f → P p q → P (f p) (f q))
    (print : ∀ text,
      Alike (Paired P S) parted (Machine.print (M := M) (W := W) text) (Machine.print text))
    (parted_faulted : ∀ {fault m} log, parted fault m →
      parted fault { m with processor.state := .faulted, log }) :
    Simulation (Paired P S) parted where
  agree related := agree related.processor
  update respects related := { related with processor := update respects related.processor }
  log _ _ related := { related with }
  read _ := alike_read _
  write _ _ := alike_write _ _
  print := print
  parted_faulted := parted_faulted

/-- Machines that differ in their outputs only step alike if they print alike. -/
theorem alike_step
    (print : ∀ text,
      Alike (Paired Eq S) parted (Machine.print (M := M) (W := W) text) (Machine.print text))
    (parted_faulted : ∀ {fault m} log, parted fault m →
      parted fault { m with processor.state := .faulted, log }) (comparison : Comparison) :
    Alike (Paired Eq S) parted (Machine.step (M := M) (W := W) comparison)
      (Machine.step comparison) := by
  have sim : Simulation (Paired (M := M) (W := W) Eq S) parted :=
    simulation (fun same => same ▸ ⟨rfl, rfl, rfl⟩) (fun {_ _ f} _ same => congrArg f same) print
      parted_faulted
  intro m n related
  exact sim.step comparison related (alike_read _)

end Paired

theorem outcome_fetch_congr [Memory M] {m n : Machine M W}
    (pc : m.processor.pc = n.processor.pc) (memory : m.memory = n.memory) :
    outcome fetch m = outcome fetch n := by
  have related : Paired (fun p q => p.pc = q.pc) (fun _ _ => True) m n := ⟨pc, memory, trivial⟩
  have matched : Matched _ unparted (fetch m) (fetch n) := Paired.alike_fetch id related
  exact matched.outcome_eq

/-- What is fetched, as the step that is about to execute it sees it. -/
theorem outcome_fetch_running [Memory M] (m : Machine M W) :
    outcome fetch { m with processor.state := .running } = outcome fetch m :=
  outcome_fetch_congr rfl rfl

/-- How a step begins: with a fetch whose fault it ends with, or with one whose bytes it
executes. -/
inductive StepBegins [Memory M] [Writer W] (comparison : Comparison) (m : Machine M W) : Prop where
  | refused {fault left} : fetch { m with processor.state := .running } = .error fault left →
      outcome fetch m = .error fault → outcome (step comparison) m = .error fault →
      StepBegins comparison m
  | fetched {fetched between} :
      fetch { m with processor.state := .running } = .ok fetched between →
      outcome fetch m = .ok fetched →
      outcome (step comparison) m = outcome (execute comparison fetched) between →
      StepBegins comparison m

theorem stepBegins [Memory M] [Writer W] (comparison : Comparison) (m : Machine M W) :
    StepBegins comparison m := by
  have found := outcome_fetch_running m
  have stepped := outcome_step comparison m
  cases fetching : fetch { m with processor.state := .running } with
  | error fault left =>
    rw [outcome_eq_of_error fetching] at found
    rw [fetching] at stepped
    exact .refused fetching found.symm stepped
  | ok fetched between =>
    rw [outcome_eq_of_ok fetching] at found
    rw [fetching] at stepped
    exact .fetched fetching found.symm stepped

end Machine

end ByteMachine
