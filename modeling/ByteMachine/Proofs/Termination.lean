import ByteMachine.Machine.Operation
import ByteMachine.Proofs.Confinement
import ByteMachine.Proofs.Faults

/-!
# How runs end

Every step that does not halt the machine takes the program counter on, and past the cells of the
memory there is nothing to fetch. Main statement: a run has no more successful steps than there are
cells ahead of it, and the machine's own memory keeps the program counter within three bytes of its
end.
-/

namespace ByteMachine

namespace Machine

section Cells

variable {M W : Type} [Memory M] [Writer W] {cells : M → Nat} {comparison : Comparison}
  {m m' : Machine M W} {executed : Executed}

/-- Successful steps use up the cells ahead of the program counter. -/
theorem cells_ahead_of_rounds (counted : EndsAfter cells) (small : cells m.memory ≤ 65532)
    {count : Nat} (rounds : Rounds (step comparison) count m m') :
    cells m'.memory = cells m.memory ∧
      count + (cells m.memory - m'.processor.pc) ≤ cells m.memory - m.processor.pc := by
  induction rounds with
  | refl => exact ⟨rfl, by omega⟩
  | @cons count m m₁ m' executed stepped running _ inductionHypothesis =>
    have kept := cells_after_step counted comparison m
    rw [after_eq_of_ok stepped] at kept
    obtain ⟨same, used⟩ := inductionHypothesis (kept ▸ small)
    have inside := pc_lt_cells_of_step counted stepped
    have onwards := (moves_of_step stepped (mt (executed_eq_hlt_iff stepped).mp running)
      (Confined.pc_of_step ⟨cells, counted, small⟩ stepped)).1
    rw [kept] at same used
    exact ⟨same, by omega⟩

/-- The run from `m` ends, after so many steps that succeed. -/
inductive Succeeds (comparison : Comparison) (m : Machine M W) : Nat → Prop where
  | halted {count last left} : Rounds (step comparison) count m last →
      step comparison last = .ok (.instruction .hlt) left →
      SameEnd (run comparison m) (.ok () left) → Succeeds comparison m (count + 1)
  | faulted {count last fault left} : Rounds (step comparison) count m last →
      step comparison last = .error fault left →
      SameEnd (run comparison m) (.error fault left) → Succeeds comparison m count

theorem exists_succeeds (counted : EndsAfter cells) (small : cells m.memory ≤ 65532)
    (running : m.processor.state ≠ .halted) (comparison : Comparison) :
    ∃ count ≤ cells m.memory - m.processor.pc, Succeeds comparison m count := by
  have loops : Ends (step comparison) m := Confined.ends ⟨cells, counted, small⟩
  obtain ⟨count, last, rounds, ended⟩ := untilHalted_cases loops
  have whole := sameEnd_run loops running
  obtain ⟨same, used⟩ := cells_ahead_of_rounds counted small rounds
  rcases ended with ⟨fault, left, stepped, ended⟩ | ⟨executed, left, stepped, halted, ended⟩
  · rw [ended] at whole
    exact ⟨count, by omega, .faulted rounds stepped whole⟩
  · rw [ended] at whole
    obtain rfl := (executed_eq_hlt_iff stepped).mpr halted
    have inside := pc_lt_cells_of_step counted stepped
    exact ⟨count + 1, by omega, .halted rounds stepped whole⟩

end Cells

section Ram

variable {W : Type} [Writer W] {comparison : Comparison} {m m' : Machine Ram W} {address : Nat}

/-- What operations can make of the processor, each of them on any contents of the machine's memory
and on any channels. -/
inductive Reachable (comparison : Comparison) : Processor → Prop where
  | powerOn : Reachable comparison .powerOn
  | operation {W : Type} [Writer W] {m : Machine Ram W} (op : Operation) :
    Reachable comparison m.processor →
      Reachable comparison (after (op.carryOut comparison) m).processor

/-- Operand addresses wrap, so only the opcode can lie past the end. -/
theorem fetched?_ram {p : Processor} {ram : Ram} {fault : Fault}
    (unfetched : fetched? p ram = .error fault) : memorySize ≤ p.pc ∧ fault = .addressing p.pc := by
  have operand (offset : Nat) := Bank.get_of_lt ram (Nat.mod_lt (p.pc + offset) (by decide))
  unfold fetched? at unfetched
  by_cases within : p.pc < memorySize
  · have opcode := Bank.get_of_lt ram within
    simp only [PlainMemory.get, bind, Except.bind, opcode, operand] at unfetched
    cases unfetched
  · simp only [PlainMemory.get, Bank.get, bind, Except.bind, within] at unfetched
    cases unfetched
    exact ⟨Nat.not_lt.mp within, rfl⟩

theorem step_ram_addressing (failed : step comparison m = .error (.addressing address) m') :
    memorySize ≤ m.processor.pc ∧ address = m.processor.pc := by
  cases step_error failed with
  | intact refused =>
    rcases planned_error refused with unfetched | own | unpopped
    · obtain ⟨beyond, same⟩ := fetched?_ram unfetched
      exact ⟨beyond, Fault.addressing.inj same⟩
    · exact absurd ⟨address, rfl⟩ own.not_isAddressing
    · have popped := Bank.get_of_lt m.memory m.processor.stackPointer.toNat_lt
      cases popped.symm.trans unpopped
  | lowered value _ refused =>
    have stored := Bank.set_of_lt m.memory value (m.processor.stackPointer - 1).toNat_lt
    cases stored.symm.trans refused

/-- No more than three bytes past the end: the last byte can begin an instruction of four. -/
theorem pc_after_step_le (near : m.processor.pc ≤ 259) (comparison : Comparison) :
    (after (step comparison) m).processor.pc ≤ 259 := by
  cases stepped : step comparison m with
  | ok executed m' =>
    rw [after_eq_of_ok stepped]
    by_cases halt : executed = .instruction .hlt
    · rw [pc_of_hlt stepped halt]
      exact near
    · have inside : m.processor.pc < 256 := pc_lt_cells_of_step EndsAfter.bank stepped
      have moved := (moves_of_step stepped halt ((Confined.ram m).pc_of_step stepped)).2
      omega
  | error fault m' =>
    rw [after_eq_of_error stepped, pc_of_step_error stepped]
    exact near

theorem pc_of_rounds_le (near : m.processor.pc ≤ 259) {count : Nat}
    (rounds : Rounds (step comparison) count m m') : m'.processor.pc ≤ 259 :=
  rounds.invariant (fun _ _ _ near stepped _ =>
    after_eq_of_ok stepped ▸ pc_after_step_le near comparison) near

theorem pc_after_run_le (near : m.processor.pc ≤ 259) (comparison : Comparison) :
    (after (run comparison) m).processor.pc ≤ 259 := by
  by_cases halted : m.processor.state = .halted
  · rwa [after_eq_of_ok (run_of_halted comparison halted)]
  · obtain ⟨count, last, rounds, ends⟩ := exists_last_round (ends_ram comparison m)
    have loop := after_untilHalted rounds ends
    rw [(sameEnd_run (ends_ram comparison m) halted).after.1, loop]
    exact pc_after_step_le (pc_of_rounds_le near rounds) comparison

/-- Only steps and a reset move the program counter. -/
theorem keeps_pc_carryOut (comparison : Comparison) {op : Operation}
    (other : op ∉ [.step, .run, .reset]) :
    Keeps (M := Ram) (W := W) (·.processor.pc) (op.carryOut comparison) :=
  Keeps.carryOut comparison other (fun _ _ _ => rfl) fun _ _ _ => rfl

theorem pc_after_carryOut_le (near : m.processor.pc ≤ 259) (comparison : Comparison)
    (op : Operation) : (after (op.carryOut comparison) m).processor.pc ≤ 259 := by
  by_cases still : op ∉ [.step, .run, .reset]
  · have kept : (after (op.carryOut comparison) m).processor.pc = m.processor.pc :=
      keeps_pc_carryOut comparison still m
    rwa [kept]
  · simp only [List.mem_cons, List.not_mem_nil, or_false, Classical.not_not] at still
    rcases still with rfl | rfl | rfl
    · rw [Operation.carryOut, map_eq_pure_bind, after_answer]
      exact pc_after_step_le near comparison
    · rw [Operation.carryOut, after_answer _ fun _ => .done]
      exact pc_after_run_le near comparison
    · exact Nat.zero_le _

theorem Reachable.pc_le {p : Processor} (reachable : Reachable comparison p) : p.pc ≤ 259 := by
  induction reachable with
  | powerOn => exact Nat.zero_le _
  | operation op _ inductionHypothesis =>
    exact pc_after_carryOut_le inductionHypothesis comparison op

theorem run_ram_addressing (near : m.processor.pc ≤ 259)
    (failed : run comparison m = .error (.addressing address) m') :
    memorySize ≤ address ∧ address ≤ 259 ∧ m'.processor.pc = address := by
  have running : m.processor.state ≠ .halted := by
    intro halted
    cases (run_of_halted comparison halted).symm.trans failed
  have whole := sameEnd_run (ends_ram comparison m) running
  rw [failed] at whole
  obtain ⟨left, looped, same⟩ := whole.of_error
  obtain ⟨count, last, rounds, ended⟩ := untilHalted_cases (ends_ram comparison m)
  rcases ended with ⟨fault, left', faulted, ended⟩ | ⟨_, _, -, -, ended⟩
  · cases ended.symm.trans looped
    obtain ⟨beyond, rfl⟩ := step_ram_addressing faulted
    rw [same.1, pc_of_step_error faulted]
    exact ⟨beyond, pc_of_rounds_le near rounds, rfl⟩
  · cases ended.symm.trans looped

end Ram

section End

variable {M W : Type} [Memory M] [Writer W] {cells : M → Nat} {m : Machine M W}

/-- How the run from a machine ends that has so many cells to run through. -/
structure RunsOut (comparison : Comparison) (cells : M → Nat) (m : Machine M W) : Prop where
  /-- At most as many steps succeed as there are cells from the program counter on. -/
  ends : ∃ count ≤ cells m.memory - m.processor.pc, Succeeds comparison m count
  moves : ∀ (m' next : Machine M W) (executed : Executed), cells m'.memory ≤ 65532 →
    step comparison m' = .ok executed next → executed ≠ .instruction .hlt →
      m'.processor.pc < next.processor.pc ∧ next.processor.pc ≤ m'.processor.pc + 4
  /-- So no address is executed twice. -/
  ascends : ∀ (first second : Nat) (m₁ m₂ : Machine M W), Rounds (step comparison) first m m₁ →
    Rounds (step comparison) second m m₂ → first < second → m₁.processor.pc < m₂.processor.pc
  /-- Whatever is executed, sixteen bits hold the address behind it. -/
  addressable : ∀ (m' : Machine M W) (fetched : Fetched), Reaches comparison m m' →
    outcome fetch m' = .ok fetched →
      m'.processor.pc + instructionLength fetched.opcode ≤ 65535

/-- Where the program counter can be on the machine's own memory, and what is refused there. -/
structure StaysNear (comparison : Comparison) (m : Machine Ram W) : Prop where
  pc : m.processor.pc ≤ 259
  step_refused : ∀ (address : Nat) (left : Machine Ram W),
    step comparison m = .error (.addressing address) left →
      256 ≤ address ∧ address ≤ 259 ∧ left.processor.pc = address
  run_refused : ∀ (address : Nat) (left : Machine Ram W),
    run comparison m = .error (.addressing address) left →
      256 ≤ address ∧ address ≤ 259 ∧ left.processor.pc = address

theorem runsOut (counted : EndsAfter cells) (small : cells m.memory ≤ 65532)
    (running : m.processor.state ≠ .halted) (comparison : Comparison) :
    RunsOut comparison cells m := by
  constructor
  case ends => exact exists_succeeds counted small running comparison
  case moves =>
    intro m' next executed small' stepped other
    exact moves_of_step stepped other (Confined.pc_of_step ⟨cells, counted, small'⟩ stepped)
  case ascends =>
    intro first second m₁ m₂ begun whole earlier
    obtain ⟨later, rfl⟩ := Nat.exists_eq_add_of_lt earlier
    rw [Nat.add_assoc] at whole
    cases begun.rest whole with
    | cons stepped running onwards =>
      have confined := Confined.of_rounds ⟨cells, counted, small⟩ begun
      have moved := (moves_of_step stepped (mt (executed_eq_hlt_iff stepped).mp running)
        (confined.pc_of_step stepped)).1
      exact Nat.lt_of_lt_of_le moved ((confined.of_step stepped).pc_le_of_rounds onwards)
  case addressable =>
    rintro m' fetched ⟨-, count, rounds⟩ found
    have inside := pc_lt_cells_of_fetch counted found
    rw [(cells_ahead_of_rounds counted small rounds).1] at inside
    have short := instructionLength_le_four fetched.opcode
    omega

theorem staysNear {comparison : Comparison} {computer : Machine Ram W}
    (reachable : Reachable comparison computer.processor) : StaysNear comparison computer := by
  have near := reachable.pc_le
  constructor
  case pc => exact near
  case step_refused =>
    intro address left failed
    obtain ⟨beyond, rfl⟩ := step_ram_addressing failed
    exact ⟨beyond, near, pc_of_step_error failed⟩
  case run_refused => exact fun _ _ => run_ram_addressing near

/-- Every run ends, whatever the memory holds and becomes, and the program counter never gets out
of sixteen bits. -/
theorem runs_end_behind_last_cell (counted : EndsAfter cells) (small : cells m.memory ≤ 65532)
    (running : m.processor.state ≠ .halted) (comparison : Comparison) :
    RunsOut comparison cells m ∧
      ∀ computer : Machine Ram W, Reachable comparison computer.processor →
        StaysNear comparison computer :=
  ⟨runsOut counted small running comparison, fun _ => staysNear⟩

/-- Five cells, of which the second is closed to stores. Their program prints nothing: its second
instruction has no second operand to fetch. -/
theorem runs_end_behind_last_cell_no_operand :
    let memory := (HostMemory.ofSize 5 [0x82, 0, 8, 0x47, 0]).restrict (fun _ => false) (· == 1)
    let m : Machine HostMemory Sink := { memory, output := {}, diagnostics := {} }
    EndsAfter HostMemory.size ∧ m.memory.size ≤ 65532 ∧ m.processor.state ≠ .halted ∧
      RunsOut .contents HostMemory.size m ∧ (∃ count ≤ 5, Succeeds .contents m count) ∧
      outcome (run .contents) m = .error (.addressing 5) := by
  intro memory m
  have small : m.memory.size ≤ 65532 := by decide
  have running : m.processor.state ≠ .halted := by decide
  have ends := (runs_end_behind_last_cell EndsAfter.host small running .contents).1
  refine ⟨EndsAfter.host, small, running, ends, ends.ends, ?_⟩
  rw [(sameEnd_run (Confined.host small).ends running).outcome_eq]
  exact outcome_of_unroll (show (unroll _ 6 m).map _ = some _ by decide +kernel)

end End

end Machine

end ByteMachine
