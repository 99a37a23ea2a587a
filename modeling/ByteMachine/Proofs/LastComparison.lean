import ByteMachine.Proofs.History
import ByteMachine.Proofs.InstructionTable

/-!
# The last comparison

Nothing but a comparison that succeeds touches the flags. Main statement: after every history they
tell how the last completed comparison since power-on or reset came out, whatever has been executed,
has faulted or has been asked for since.
-/

namespace ByteMachine

open Machine InstructionTable

namespace Attempt

/-- The attempt has completed a comparison. -/
def HasCompared (attempt : Attempt) : Prop := attempt.outcome = .ok (.instruction (.alu .cmp))

/-- What the attempt compares is ordered as the flags tell. -/
def OrdersAs (comparison : Comparison) (attempt : Attempt) (flags : UInt8) : Prop :=
  ∃ fetched x y, attempt.fetched = .ok fetched ∧
    Compares fetched.a fetched.b attempt.registers comparison x y ∧ Orders x.toNat y.toNat flags

/-- What is compared is ordered in one way only. -/
theorem OrdersAs.unique {comparison : Comparison} {attempt : Attempt} {first second : UInt8}
    (orders : attempt.OrdersAs comparison first)
    (orders' : attempt.OrdersAs comparison second) : first = second := by
  obtain ⟨fetched, x, y, found, compares, told⟩ := orders
  obtain ⟨fetched', x', y', found', compares', told'⟩ := orders'
  obtain rfl := Except.ok.inj (found.symm.trans found')
  have operands := (Alu.comparands_eq_ok_iff.mpr compares).symm.trans
    (Alu.comparands_eq_ok_iff.mpr compares')
  obtain ⟨rfl, rfl⟩ := Prod.mk.inj (Except.ok.inj operands)
  exact (Flags.ofComparison_eq_iff.mpr told).symm.trans (Flags.ofComparison_eq_iff.mpr told')

end Attempt

/-- What becomes of the flags when steps are attempted: the last comparison that any of them has
completed determines them. -/
inductive FlagsAfter (comparison : Comparison) (flags : UInt8) : List Attempt → UInt8 → Prop where
  | kept {attempts : List Attempt} : (∀ attempt ∈ attempts, ¬attempt.HasCompared) →
      FlagsAfter comparison flags attempts flags
  | told {earlier later : List Attempt} {last : Attempt} {told : UInt8} : last.HasCompared →
      last.OrdersAs comparison told → (∀ attempt ∈ later, ¬attempt.HasCompared) →
      FlagsAfter comparison flags (earlier ++ last :: later) told

namespace FlagsAfter

variable {comparison : Comparison} {flags between told : UInt8} {first second : List Attempt}
  {attempt : Attempt}

theorem of_other (other : ¬attempt.HasCompared) : FlagsAfter comparison flags [attempt] flags :=
  .kept fun _ only => List.mem_singleton.mp only ▸ other

theorem of_faulted {fault : Fault} (faulted : attempt.outcome = .error fault) :
    FlagsAfter comparison flags [attempt] flags := by
  apply of_other
  intro compared
  cases compared.symm.trans faulted

theorem of_compared (compared : attempt.HasCompared) (orders : attempt.OrdersAs comparison told) :
    FlagsAfter comparison flags [attempt] told := by
  change FlagsAfter comparison flags ([] ++ attempt :: []) told
  exact .told compared orders (by simp)

theorem trans (begun : FlagsAfter comparison flags first between)
    (rest : FlagsAfter comparison between second told) :
    FlagsAfter comparison flags (first ++ second) told := by
  cases rest with
  | told compared orders none =>
    rw [← List.append_assoc]
    exact .told compared orders none
  | kept none =>
    cases begun with
    | kept none' => exact .kept (List.forall_mem_append.mpr ⟨none', none⟩)
    | told compared orders none' =>
      rw [List.append_assoc, List.cons_append]
      exact .told compared orders (List.forall_mem_append.mpr ⟨none', none⟩)

theorem of_singleton (after : FlagsAfter comparison flags [attempt] told) :
    (¬attempt.HasCompared ∧ told = flags) ∨
      (attempt.HasCompared ∧ attempt.OrdersAs comparison told) := by
  generalize attempts : [attempt] = only at after
  cases after with
  | kept none => exact .inl ⟨none attempt (attempts ▸ List.mem_singleton_self attempt), rfl⟩
  | @told earlier later last _ compared orders _ =>
    obtain rfl : attempt = last := by
      have passed : last ∈ [attempt] := attempts ▸ by simp
      exact (List.mem_singleton.mp passed).symm
    exact .inr ⟨compared, orders⟩

/-- An attempt leaves the flags in one way only. -/
theorem unique {told' : UInt8} (after : FlagsAfter comparison flags [attempt] told)
    (after' : FlagsAfter comparison flags [attempt] told') : told = told' := by
  rcases after.of_singleton with ⟨none, same⟩ | ⟨compared, orders⟩
  · rcases after'.of_singleton with ⟨-, same'⟩ | ⟨compared, -⟩
    · exact same.trans same'.symm
    · exact absurd compared none
  · rcases after'.of_singleton with ⟨none, -⟩ | ⟨-, orders'⟩
    · exact absurd compared none
    · exact orders.unique orders'

end FlagsAfter

theorem Alu.operation_of_flags {comparison : Comparison} {operation : AluOperation}
    {a b flags : UInt8} {registers : Registers}
    (evaluated : evaluate comparison operation a b registers = .ok (.flags flags)) :
    operation = .cmp := by
  cases evaluate_eq_ok_iff.mp evaluated with
  | flags compared _ _ => exact compared

namespace Machine

variable {M W : Type} [Memory M] [Writer W] {comparison : Comparison}

theorem keeps_flags_perform (comparison : Comparison) {opcode : Opcode} (other : opcode ≠ .alu .cmp)
    (a b : UInt8) :
    Keeps (M := M) (W := W) (·.processor.flags) (perform comparison opcode a b) := by
  cases opcode with
  | hlt => exact fun _ => rfl
  | ldi => exact Keeps.setRegister fun _ _ => rfl
  | prn => exact Keeps.bind (Keeps.getRegister a) fun _ => Keeps.print fun _ _ => rfl
  | push =>
    exact Keeps.bind (Keeps.getRegister a) fun _ =>
      Keeps.push (fun _ _ => rfl) fun _ => Keeps.write fun _ _ _ => rfl
  | pop =>
    exact Keeps.bind (Keeps.settle _) fun _ =>
      Keeps.bind (Keeps.pop (fun _ _ => rfl) fun _ => Keeps.read fun _ _ _ => rfl) fun _ =>
        Keeps.updateProcessor fun _ => rfl
  | alu operation =>
    intro m
    cases evaluated : Alu.evaluate comparison operation a b m.processor.registers with
    | error fault => rw [after_eq_of_error (perform_alu_error evaluated)]
    | ok effect =>
      rw [after, perform_alu_ok evaluated]
      cases effect with
      | register r value => rfl
      | flags flags => exact absurd (congrArg _ (Alu.operation_of_flags evaluated)) other

theorem keeps_flags_execute {fetched : Fetched} (other : fetched.opcode ≠ (Opcode.alu .cmp).byte)
    (comparison : Comparison) :
    Keeps (M := M) (W := W) (·.processor.flags) (execute comparison fetched) := by
  refine Keeps.execute comparison fetched (fun _ _ => rfl) (fun _ _ => rfl) fun opcode decoded => ?_
  apply keeps_flags_perform
  rintro rfl
  exact other (Opcode.ofByte?_eq_some_iff.mp decoded).symm

theorem flagsAfter_compare {fetched : Fetched} (comparison : Comparison)
    (compares : fetched.opcode = (Opcode.alu .cmp).byte) (m : Machine M W) :
    FlagsAfter comparison m.processor.flags
      [⟨.ok fetched, m.processor.registers, outcome (execute comparison fetched) m⟩]
      (after (execute comparison fetched) m).processor.flags := by
  have decoded := Opcode.ofByte?_eq_some_iff.mpr compares.symm
  have executes := execute_of_known decoded comparison m
  -- What is performed has the decoding in its log already, which the evaluation does not see.
  cases evaluated : Alu.evaluate comparison .cmp fetched.a fetched.b m.processor.registers with
  | error fault =>
    have refused (log : Array Log.Entry) :
        perform comparison (.alu .cmp) fetched.a fetched.b { m with log } =
          .error fault { m with log } := perform_alu_error evaluated
    rw [refused] at executes
    rw [after_eq_of_error executes, outcome_eq_of_error executes]
    exact .of_faulted rfl
  | ok effect =>
    obtain ⟨⟨x, y⟩, found, ⟨⟩⟩ := Except.bind_eq_ok_iff.mp evaluated
    have compared (log : Array Log.Entry) :
        perform comparison (.alu .cmp) fetched.a fetched.b { m with log } =
          apply (.flags (Flags.ofComparison x y)) { m with log } := perform_alu_ok evaluated
    rw [compared] at executes
    rw [after_eq_of_ok executes, outcome_eq_of_ok executes]
    exact .of_compared rfl ⟨fetched, x, y, rfl, Alu.comparands_eq_ok_iff.mp found,
      Flags.ofComparison_eq_iff.mp rfl⟩

/-- What is executed touches the flags only if it is a comparison that succeeds. -/
theorem flagsAfter_execute (comparison : Comparison) (fetched : Fetched) (m : Machine M W) :
    FlagsAfter comparison m.processor.flags
      [⟨.ok fetched, m.processor.registers, outcome (execute comparison fetched) m⟩]
      (after (execute comparison fetched) m).processor.flags := by
  by_cases compares : fetched.opcode = (Opcode.alu .cmp).byte
  · exact flagsAfter_compare comparison compares m
  · have kept : (after (execute comparison fetched) m).processor.flags = m.processor.flags :=
      keeps_flags_execute compares comparison m
    rw [kept]
    cases executes : execute comparison fetched m with
    | ok executed left =>
      rw [outcome_eq_of_ok executes]
      apply FlagsAfter.of_other
      intro compared
      cases compared
      exact compares ((executed_eq_instruction_iff executes).mp rfl)
    | error fault left =>
      rw [outcome_eq_of_error executes]
      exact .of_faulted rfl

theorem flagsAfter_step (comparison : Comparison) (m : Machine M W) :
    FlagsAfter comparison m.processor.flags [m.attempted comparison]
      (after (step comparison) m).processor.flags := by
  have kept := keeps_processor_fetch { m with processor.state := .running }
  have flags := view_after_attempt (fun m => m.processor.flags) (fun _ _ _ _ => rfl)
    (do execute comparison (← fetch)) m
  rw [attempted, ← outcome_fetch_running, step, outcome_attempt, flags, outcome_bind, after_bind]
  cases fetching : fetch { m with processor.state := .running } with
  | error fault left =>
    rw [after_eq_of_error fetching] at kept
    change FlagsAfter comparison m.processor.flags [⟨_, _, .error fault⟩] left.processor.flags
    rw [kept]
    exact .of_faulted rfl
  | ok fetched between =>
    rw [after_eq_of_ok fetching] at kept
    have executes := flagsAfter_execute comparison fetched between
    rw [kept] at executes
    rw [outcome_eq_of_ok fetching]
    exact executes

theorem preserved_flags (comparison : Comparison) (flags : UInt8) :
    Preserved comparison fun attempts p => FlagsAfter comparison flags attempts p.flags where
  step m told := told.trans (flagsAfter_step comparison m)
  other {M W} _ _ _ op m other told := by
    have keeps : Keeps (M := M) (W := W) (·.processor.flags) (op.carryOut comparison) :=
      Keeps.carryOut comparison other (fun _ _ _ => rfl) fun _ _ _ => rfl
    have kept : (after (op.carryOut comparison) m).processor.flags = m.processor.flags := keeps m
    rwa [kept]

end Machine

/-- The flags of a processor tell how the last comparison came out that it has completed since it
was powered on or reset; no other step and no other operation touches them. -/
theorem History.flags_tell_last_comparison (overflow : Overflow) (comparison : Comparison) :
    (∀ events, History.Completes overflow comparison events →
      FlagsAfter comparison 0 (History.ofEvents comparison events).attempts
        (History.ofEvents comparison events).processor.flags) ∧
    ∀ {M W : Type} [Memory M] [Writer W] (m : Machine M W) (op : Operation),
      op.Completes overflow comparison m → op ≠ .reset →
        FlagsAfter comparison m.processor.flags (op.attempts comparison m)
          (after (op.carryOut comparison) m).processor.flags := by
  constructor
  · intro events completes
    exact (preserved_flags comparison 0).ofEvents (.kept (by simp)) completes
  · intro M W _ _ m op completes resumes
    have fresh : FlagsAfter comparison m.processor.flags [] m.processor.flags := .kept (by simp)
    exact (preserved_flags comparison m.processor.flags).operation resumes fresh completes

/-- The second comparison names a register that does not exist; a reset forgets the first one. -/
theorem History.flags_tell_last_comparison_refused_operand :
    let ram : Ram := Bank.ofImagePrefix [0x82, 0, 8, 0xA7, 0, 1, 0xA7, 0, 9]
    let asked (op : Operation) : Event := .operation op ram ({} : Sink) {} #[]
    let events := [asked .run, asked (.setRegister 1 9)]
    let history := History.ofEvents .contents events
    History.Completes .aborts .contents events ∧
      FlagsAfter .contents 0 history.attempts history.processor.flags ∧
      history.attempts.length = 3 ∧ history.processor.flags = Flags.greater ∧
      (history.extend .contents (asked .reset)).processor.flags = 0 := by
  intro ram asked events history
  have completes : History.Completes .aborts .contents events :=
    History.completes_of_confined (by simp [events, asked, Event.Confined, Confined.ram])
  have told := (History.flags_tell_last_comparison .aborts .contents).1 events completes
  refine ⟨completes, told, ?_⟩
  simp only [history, events, asked, History.ofEvents, List.foldl, History.extend,
    Operation.attempts, Operation.carryOut, run_ram, course_ram]
  decide +kernel

end ByteMachine
