import ByteMachine.Memory.Host
import ByteMachine.Proofs.Course

/-!
# Confined machines

A machine is confined if its memory ends so far below the end of the address space that no sum of an
address and a length overflows. Main statements: a run ends if none of its steps overflows, and so
every run of a confined machine does.
-/

namespace ByteMachine

/-- Memories with so many cells: no access changes their number, and past them no read is granted.
Others may be refused as well. -/
structure EndsAfter {M : Type} [Memory M] (cells : M → Nat) : Prop where
  refuses : ∀ {memory address}, cells memory ≤ address →
    ∃ fault, (Memory.read memory address).result = .error fault
  cells_read : ∀ memory address, cells (Memory.read memory address).memory = cells memory
  cells_write : ∀ memory address value,
    cells (Memory.write memory address value).memory = cells memory

theorem EndsAfter.bank {size : Nat} : EndsAfter fun _ : Bank size => size where
  refuses {bank address} outside :=
    ⟨.addressing address, by simp [Memory.read, Bank.get, Nat.not_lt.mpr outside]⟩
  cells_read _ _ := rfl
  cells_write _ _ _ := rfl

theorem EndsAfter.host : EndsAfter HostMemory.size where
  refuses {memory address} outside := by
    have beyond : ¬address < memory.size := Nat.not_lt.mpr outside
    refine ⟨.addressing address, ?_⟩
    simp only [Memory.read, Access.within]
    split
    · rfl
    · simp only [Bank.get, beyond]
      rfl
  cells_read _ _ := rfl
  cells_write _ _ _ := rfl

namespace Machine

section Step

variable {M W : Type} [Memory M] [Writer W] {comparison : Comparison} {m m' : Machine M W}
  {executed : Executed}

/-- A step that succeeds has fetched something, and passes control on as that says. -/
theorem passes_of_step (stepped : step comparison m = .ok executed m') :
    ∃ fetched, outcome fetch m = .ok fetched ∧
      (executed = .instruction .hlt ↔ fetched.opcode = Opcode.hlt.byte) ∧
      executed.length = instructionLength fetched.opcode ∧
      Passes fetched { m.processor with state := .running } m'.processor := by
  obtain ⟨left, acted, rfl⟩ := attempt_ok stepped
  obtain ⟨fetched, between, fetches, executes⟩ := bind_eq_ok_iff.mp acted
  have found := outcome_eq_of_ok fetches
  rw [outcome_fetch_running] at found
  have passes := (execute_ok executes).1
  rw [keeps_processor_fetch.of_ok fetches] at passes
  exact ⟨fetched, found, executed_eq_instruction_iff executes, length_of_execute executes, passes⟩

theorem pc_of_step (stepped : step comparison m = .ok executed m')
    (other : executed ≠ .instruction .hlt) :
    m'.processor.pc = (m.processor.pc + executed.length) % addressSpace := by
  obtain ⟨fetched, -, halts, length, passes⟩ := passes_of_step stepped
  rw [length]
  exact (passes.onwards (other ∘ halts.mpr)).1

theorem pc_of_hlt (stepped : step comparison m = .ok executed m')
    (halt : executed = .instruction .hlt) : m'.processor.pc = m.processor.pc := by
  obtain ⟨fetched, -, halts, -, passes⟩ := passes_of_step stepped
  exact (passes.halted (halts.mp halt)).1

theorem moves_of_step (stepped : step comparison m = .ok executed m')
    (other : executed ≠ .instruction .hlt) (within : m.processor.pc + 4 < addressSpace) :
    m.processor.pc < m'.processor.pc ∧ m'.processor.pc ≤ m.processor.pc + 4 := by
  have positive := executed.length_pos
  have short := executed.length_le_four
  rw [pc_of_step stepped other, Nat.mod_eq_of_lt (by omega)]
  omega

theorem executed_eq_hlt_iff (stepped : step comparison m = .ok executed m') :
    executed = .instruction .hlt ↔ m'.processor.state = .halted := by
  obtain ⟨fetched, -, halts, -, passes⟩ := passes_of_step stepped
  constructor
  · intro halt
    exact (passes.halted (halts.mp halt)).2
  · intro halted
    by_cases other : executed = .instruction .hlt
    · exact other
    · cases (passes.onwards (other ∘ halts.mpr)).2.symm.trans halted

theorem not_overruns_iff (stepped : step comparison m = .ok executed m')
    (running : m'.processor.state ≠ .halted) :
    ¬m.Overruns comparison ↔ m.processor.pc + executed.length < addressSpace := by
  have other := mt (executed_eq_hlt_iff stepped).mp running
  simp only [Overruns, stepped, ne_eq, other, not_false_eq_true, true_and, Nat.not_le]

/-- A run ends if none of its steps overflows: all the way, the program counter increases. -/
theorem ends_of_not_overruns
    (inside : ∀ count m', Rounds (step comparison) count m m' → ¬m'.Overruns comparison) :
    Ends (step comparison) m := by
  generalize ahead : addressSpace - m.processor.pc = cells
  induction cells using Nat.strongRecOn generalizing m with
  | ind cells inductionHypothesis =>
    cases stepped : step comparison m with
    | error fault m' => exact .faulted stepped
    | ok executed m' =>
      by_cases halted : m'.processor.state = .halted
      · exact .halted stepped halted
      · have within := (not_overruns_iff stepped halted).mp (inside 0 m (.refl m))
        have moved := pc_of_step stepped (mt (executed_eq_hlt_iff stepped).mp halted)
        rw [Nat.mod_eq_of_lt within] at moved
        have positive := executed.length_pos
        refine .running stepped halted (inductionHypothesis (addressSpace - m'.processor.pc)
          (by omega) ?_ rfl)
        exact fun count last rounds => inside (count + 1) last (.cons stepped halted rounds)

end Step

section Completion

variable {M N W : Type} [Memory M] [Memory N] [Writer W] {overflow : Overflow}
  {comparison c c' : Comparison} {m : Machine M W} {n : Machine N W}

/-- The run comes to an end, with its last step or earlier if the build aborts one. -/
def RunCompletes (overflow : Overflow) (comparison : Comparison) (m : Machine M W) : Prop :=
  (m.processor.state ≠ .halted → Ends (step comparison) m) ∧
    ∀ m', Reaches comparison m m' → m'.Completes overflow comparison

theorem RunCompletes.of_halted (halted : m.processor.state = .halted) :
    m.RunCompletes overflow comparison :=
  ⟨fun running => absurd halted running, fun _ reached => absurd halted reached.1⟩

/-- If a build aborts what overflows, then a run that is never aborted ends. -/
theorem runCompletes_aborts_iff :
    m.RunCompletes .aborts comparison ↔
      ∀ m', Reaches comparison m m' → ¬m'.Overruns comparison := by
  constructor
  · exact fun completes m' reached => completes.2 m' reached rfl
  · intro inside
    refine ⟨fun running => ends_of_not_overruns fun count m' rounds => ?_, fun m' reached _ => ?_⟩
    · exact inside m' ⟨running, count, rounds⟩
    · exact inside m' reached

theorem overruns_congr (ended : outcome (step c) m = outcome (step c') n)
    (pc : m.processor.pc = n.processor.pc) : m.Overruns c ↔ n.Overruns c' := by
  unfold outcome at ended
  unfold Overruns
  split <;> split <;> simp_all

theorem completes_congr (ended : outcome (step c) m = outcome (step c') n)
    (pc : m.processor.pc = n.processor.pc) :
    m.Completes overflow c ↔ n.Completes overflow c' := by
  rw [Completes, Completes, overruns_congr ended pc]

/-- A run comes to an end if one that goes alike does. -/
theorem runCompletes_iff_along {R : Machine M W → Machine N W → Prop}
    (agree : ∀ {m n}, R m n → m.processor.Agree n.processor)
    (alike : m.processor.state ≠ .halted → AlikeAlong R unparted (step c) (step c') m)
    (related : R m n) : m.RunCompletes overflow c ↔ n.RunCompletes overflow c' := by
  have state := (agree related).2.2
  by_cases running : m.processor.state ≠ .halted
  · have running' : n.processor.state ≠ .halted := state ▸ running
    have alike := alike running
    have same {count : Nat} {m' : Machine M W} {n' : Machine N W}
        (rounds : Rounds (step c) count m m') (related' : R m' n') :
        m'.Completes overflow c ↔ n'.Completes overflow c' :=
      completes_congr (alike count m' n' rounds related').outcome_eq (agree related').1
    constructor
    · rintro ⟨ends, inside⟩
      refine ⟨fun _ => (ends_iff_along agree alike related).mp (ends running), ?_⟩
      rintro n' ⟨-, count, rounds'⟩
      obtain ⟨m', rounds, related'⟩ := rounds'.backAlong agree alike related
      exact (same rounds related').mp (inside m' ⟨running, count, rounds⟩)
    · rintro ⟨ends, inside⟩
      refine ⟨fun _ => (ends_iff_along agree alike related).mpr (ends running'), ?_⟩
      rintro m' ⟨-, count, rounds⟩
      obtain ⟨n', rounds', related'⟩ := rounds.along agree alike related
      exact (same rounds related').mpr (inside n' ⟨running', count, rounds'⟩)
  · have halted : m.processor.state = .halted := Classical.not_not.mp running
    exact ⟨fun _ => .of_halted (state ▸ halted), fun _ => .of_halted halted⟩

end Completion

section Cells

variable {M W : Type} [Memory M] {cells : M → Nat} {comparison : Comparison} {m m' : Machine M W}

theorem pc_lt_cells_of_fetch (counted : EndsAfter cells) {fetched : Fetched}
    (found : outcome fetch m = .ok fetched) : m.processor.pc < cells m.memory := by
  apply Nat.not_le.mp
  intro outside
  obtain ⟨fault, refused⟩ := counted.refuses outside
  have unread : read m.processor.pc m = .error fault (after (read m.processor.pc) m) := by
    simp only [after, read, refused, settle]
  cases fetching : fetch m with
  | ok fetched m' =>
    rw [fetch_apply] at fetching
    obtain ⟨opcode, between, opened, -⟩ := bind_eq_ok_iff.mp fetching
    cases unread.symm.trans opened
  | error fault m' => cases (outcome_eq_of_error fetching).symm.trans found

variable [Writer W]

theorem cells_after_step (counted : EndsAfter cells) (comparison : Comparison) (m : Machine M W) :
    cells (after (step comparison) m).memory = cells m.memory :=
  keeps_memory_step counted.cells_read counted.cells_write comparison m

/-- A step succeeds only at a cell. -/
theorem pc_lt_cells_of_step (counted : EndsAfter cells) {executed : Executed}
    (stepped : step comparison m = .ok executed m') : m.processor.pc < cells m.memory := by
  obtain ⟨fetched, found, -⟩ := passes_of_step stepped
  exact pc_lt_cells_of_fetch counted found

end Cells

/-- The memory ends so early that no sum with the address of a cell overflows. -/
def Confined {M W : Type} [Memory M] (m : Machine M W) : Prop :=
  ∃ cells : M → Nat, EndsAfter cells ∧ cells m.memory ≤ 65532

namespace Confined

variable {M W : Type} [Memory M] {comparison : Comparison} {m m' : Machine M W}

theorem ram (m : Machine Ram W) : m.Confined := ⟨_, EndsAfter.bank, by decide⟩

theorem host {m : Machine HostMemory W} (small : m.memory.size ≤ 65532) : m.Confined :=
  ⟨_, EndsAfter.host, small⟩

variable [Writer W]

theorem pc_of_step (confined : m.Confined) {executed : Executed}
    (stepped : step comparison m = .ok executed m') : m.processor.pc + 4 < addressSpace := by
  obtain ⟨cells, counted, small⟩ := confined
  have inside := pc_lt_cells_of_step counted stepped
  rw [addressSpace]
  omega

theorem of_step (confined : m.Confined) {executed : Executed}
    (stepped : step comparison m = .ok executed m') : m'.Confined := by
  obtain ⟨cells, counted, small⟩ := confined
  have kept := cells_after_step counted comparison m
  rw [after_eq_of_ok stepped] at kept
  exact ⟨cells, counted, kept ▸ small⟩

theorem of_rounds (confined : m.Confined) {count : Nat}
    (rounds : Rounds (step comparison) count m m') : m'.Confined :=
  rounds.invariant (fun _ _ _ confined stepped _ => confined.of_step stepped) confined

theorem after_step (confined : m.Confined) (comparison : Comparison) :
    (after (step comparison) m).Confined := by
  obtain ⟨cells, counted, small⟩ := confined
  exact ⟨cells, counted, (cells_after_step counted comparison m).symm ▸ small⟩

/-- The program counter never goes back. -/
theorem pc_le_of_rounds (confined : m.Confined) {count : Nat}
    (rounds : Rounds (step comparison) count m m') : m.processor.pc ≤ m'.processor.pc := by
  induction rounds with
  | refl => exact Nat.le_refl _
  | cons stepped running _ inductionHypothesis =>
    have moved := (moves_of_step stepped (mt (executed_eq_hlt_iff stepped).mp running)
      (confined.pc_of_step stepped)).1
    exact Nat.le_trans (Nat.le_of_lt moved) (inductionHypothesis (confined.of_step stepped))

theorem not_overruns (confined : m.Confined) : ¬m.Overruns comparison := by
  unfold Overruns
  split
  · rename_i executed m' stepped
    have within := confined.pc_of_step stepped
    have short := executed.length_le_four
    rintro ⟨-, overflow⟩
    omega
  · exact id

/-- Every run of a confined machine ends. -/
theorem ends (confined : m.Confined) : Ends (step comparison) m :=
  ends_of_not_overruns fun _ _ rounds => (confined.of_rounds rounds).not_overruns

end Confined

theorem Confined.after_run {M W : Type} [Memory M] [Writer W] {comparison : Comparison}
    {m : Machine M W} (confined : m.Confined) : (after (run comparison) m).Confined := by
  by_cases halted : m.processor.state = .halted
  · rwa [after_eq_of_ok (run_of_halted comparison halted)]
  · have loops : Ends (step comparison) m := confined.ends
    obtain ⟨count, last, rounds, ends⟩ := exists_last_round loops
    have loop := after_untilHalted rounds ends
    have same := (sameEnd_run loops halted).after
    obtain ⟨cells, counted, small⟩ := (confined.of_rounds rounds).after_step comparison
    exact ⟨cells, counted, by rwa [same.2.1, loop]⟩

theorem Confined.completes {M W : Type} [Memory M] [Writer W] {m : Machine M W}
    (confined : m.Confined) (overflow : Overflow) (comparison : Comparison) :
    m.Completes overflow comparison :=
  fun _ => confined.not_overruns

theorem Confined.runCompletes {M W : Type} [Memory M] [Writer W] {m : Machine M W}
    (confined : m.Confined) (overflow : Overflow) (comparison : Comparison) :
    m.RunCompletes overflow comparison :=
  ⟨fun _ => confined.ends,
    fun _ ⟨_, _, rounds⟩ => (confined.of_rounds rounds).completes overflow comparison⟩

section Ram

variable {W : Type} [Writer W]

theorem ends_ram (comparison : Comparison) (m : Machine Ram W) : Ends (step comparison) m :=
  (Confined.ram m).ends

theorem climbs_ram {comparison : Comparison} {m m' : Machine Ram W} {executed : Executed}
    (stepped : step comparison m = .ok executed m') (running : m'.processor.state ≠ .halted) :
    m.processor.pc < m'.processor.pc ∧ m.processor.pc < memorySize :=
  ⟨(moves_of_step stepped (mt (executed_eq_hlt_iff stepped).mp running)
    ((Confined.ram m).pc_of_step stepped)).1, pc_lt_cells_of_step EndsAfter.bank stepped⟩

/-- No loop on the machine's own memory goes through more rounds than this. -/
def unrolled {α : Type} (act : Action Ram W α) (m : Machine Ram W) :
    List (Machine Ram W) × EStateM.Result Fault (Machine Ram W) Unit :=
  (unroll act (memorySize + 1) m).getD ([], .ok () m)

/-- The loop in a form that can be computed. -/
theorem untilHalted_ram (comparison : Comparison) :
    untilHalted (step (M := Ram) (W := W) comparison) =
      fun m => (unrolled (step comparison) m).2 := by
  funext m
  rw [unrolled, unroll_eq climbs_ram (Nat.lt_succ_of_le (Nat.sub_le _ _)), Option.getD_some]

theorem run_ram (comparison : Comparison) :
    run (M := Ram) (W := W) comparison = fun m =>
      if m.processor.state = .halted then .ok () m
      else
        match (unrolled (step comparison)
          { m with log := m.log.push (Report.running m.processor.pc) }).2 with
        | .error fault m => .error fault m
        | .ok _ m =>
          .ok () { m with
            log := m.log.push (Report.halted m.processor.pc m.processor.executed) } := by
  funext m
  unfold run
  split
  · rfl
  · simp only [untilHalted_ram]
    cases (unrolled (step comparison)
      { m with log := m.log.push (Report.running m.processor.pc) }).2 <;> rfl

theorem course_ram (comparison : Comparison) :
    course (step (M := Ram) (W := W) comparison) = fun m => (unrolled (step comparison) m).1 := by
  funext m
  rw [unrolled, unroll_eq climbs_ram (Nat.lt_succ_of_le (Nat.sub_le _ _)), Option.getD_some]

end Ram

end Machine

end ByteMachine
