import ByteMachine.Computer
import ByteMachine.Proofs.Faults
import ByteMachine.Proofs.Listing
import ByteMachine.Proofs.Operands

/-!
# Collisions of stack and program

The stack grows towards the program and around both ends of memory, and nothing checks where it
goes. Main statements: a run whose pushes spare the rest of its listing does what the listing says,
and in a program of up to 163 bytes that never sets the stack pointer itself, they do.
-/

namespace ByteMachine

namespace Opcode

/-- The instructions that put a value into the register that their first operand names. -/
def setsTarget : Opcode → Bool
  | ldi | pop | alu .add | alu .sub | alu .mul | alu .div => true
  | hlt | push | prn | alu .cmp => false

/-- Where an instruction takes the stack pointer, if it has no other target there. -/
def moveStackPointer : Opcode → UInt8 → UInt8
  | push, top => top - 1
  | pop, top => top + 1
  | _, top => top

end Opcode

/-- The instruction puts a value of its own into R7. -/
def Instruction.SetsStackPointer (i : Instruction) : Prop :=
  (Opcode.ofByte? i.opcode).any Opcode.setsTarget = true ∧ i.operands.head? = some 7

instance (i : Instruction) : Decidable i.SetsStackPointer := inferInstanceAs (Decidable (_ ∧ _))

theorem Instruction.first_ne {i : Instruction} (spares : ¬i.SetsStackPointer) {opcode : Opcode}
    (decoded : Opcode.ofByte? i.opcode = some opcode) (sets : opcode.setsTarget = true) :
    i.fetched.a ≠ 7 := by
  intro first
  refine spares ⟨by rw [decoded]; exact sets, ?_⟩
  cases operands : i.operands with
  | nil =>
    simp [fetched, operands] at first
  | cons a rest =>
    rw [fetched, operands] at first
    exact congrArg some first

namespace Alu

theorem target_of_operands {registers : Registers} {a b x y : UInt8} {r : RegisterIndex}
    (found : operands registers a b = .ok (r, x, y)) : Registers.index a = .ok r :=
  Registers.index_eq_ok_iff.mpr (operands_eq_ok_iff.mp found).1

/-- All operations but the comparison put their result where their first operand says. -/
theorem target_of_evaluate {comparison : Comparison} {operation : AluOperation} {a b value : UInt8}
    {registers : Registers} {r : RegisterIndex}
    (evaluated : evaluate comparison operation a b registers = .ok (.register r value)) :
    operation ≠ .cmp ∧ Registers.index a = .ok r := by
  cases operation with
  | cmp => obtain ⟨_, -, ⟨⟩⟩ := Except.bind_eq_ok_iff.mp evaluated
  | add | sub | mul =>
    obtain ⟨⟨target, x, y⟩, found, ⟨⟩⟩ := Except.bind_eq_ok_iff.mp evaluated
    exact ⟨by decide, target_of_operands found⟩
  | div =>
    obtain ⟨target, x, y, found, -, ⟨⟩⟩ := evaluate_div_eq_ok_iff.mp evaluated
    exact ⟨by decide, target_of_operands found⟩

end Alu

namespace Processor

theorem stackPointer_setRegister {r : RegisterIndex} (other : r ≠ Registers.stackPointer)
    (p : Processor) (value : UInt8) : (p.setRegister r value).stackPointer = p.stackPointer := by
  have apart : (r : Nat) ≠ (Registers.stackPointer : Nat) := fun same => other (Fin.ext same)
  exact Vector.getElem_set_ne r.isLt Registers.stackPointer.isLt apart

@[simp] theorem stackPointer_lowered (p : Processor) :
    p.lowered.stackPointer = p.stackPointer - 1 := Vector.getElem_set_self _

@[simp] theorem stackPointer_raised (p : Processor) :
    p.raised.stackPointer = p.stackPointer + 1 := Vector.getElem_set_self _

end Processor

theorem Registers.ne_stackPointer {a : UInt8} {r : RegisterIndex} (named : index a = .ok r)
    (other : a ≠ 7) : r ≠ stackPointer := by
  rintro rfl
  exact other (UInt8.toNat_inj.mp (index_eq_ok_iff.mp named))

namespace Machine

section StackPointer

variable {M W : Type} [Memory M] [Writer W] [PlainMemory M] {comparison : Comparison}
  {opcode : Opcode} {a b : UInt8} {m m' : Machine M W}

omit [PlainMemory M] in
theorem named_of_perform_ok (simple : opcode ∈ [.ldi, .prn, .push, .pop])
    (performed : perform comparison opcode a b m = .ok () m') :
    ∃ r, Registers.index a = .ok r := by
  cases named : Registers.index a with
  | ok r => exact ⟨r, rfl⟩
  | error fault => cases (perform_unnamed named simple m).symm.trans performed

/-- An instruction that has no other target in R7 leaves the stack pointer, or moves it by one. -/
theorem stackPointer_after_perform (kept : opcode.setsTarget = true → a ≠ 7)
    (performed : perform comparison opcode a b m = .ok () m') :
    m'.processor.stackPointer = opcode.moveStackPointer m.processor.stackPointer := by
  cases opcode with
  | hlt =>
    cases performed
    rfl
  | ldi =>
    obtain ⟨r, named⟩ := named_of_perform_ok (by simp) performed
    rw [perform_ldi named] at performed
    cases performed
    exact Processor.stackPointer_setRegister (Registers.ne_stackPointer named (kept rfl)) _ _
  | prn =>
    obtain ⟨r, named⟩ := named_of_perform_ok (by simp) performed
    rw [perform_prn named] at performed
    have prints (text : String) : Keeps (M := M) (W := W) Machine.processor (print text) :=
      Keeps.print fun _ _ => rfl
    rw [(prints _).of_ok performed]
    rfl
  | push =>
    obtain ⟨r, named⟩ := named_of_perform_ok (by simp) performed
    rw [perform_push named] at performed
    have writes (address : Nat) (value : UInt8) :
        Keeps (M := M) (W := W) Machine.processor (write address value) :=
      Keeps.write fun _ _ _ => rfl
    rw [(writes _ _).of_ok performed]
    simp [Opcode.moveStackPointer]
  | pop =>
    obtain ⟨r, named⟩ := named_of_perform_ok (by simp) performed
    rw [perform_pop named] at performed
    split at performed
    · cases performed
      refine (Processor.stackPointer_setRegister ?_ _ _).trans (Processor.stackPointer_raised _)
      exact Registers.ne_stackPointer named (kept rfl)
    · cases performed
  | alu operation =>
    cases evaluated : Alu.evaluate comparison operation a b m.processor.registers with
    | error fault => cases (perform_alu_error evaluated).symm.trans performed
    | ok effect =>
      rw [perform_alu_ok evaluated] at performed
      cases effect with
      | flags flags =>
        cases performed
        rfl
      | register r value =>
        obtain ⟨arithmetic, named⟩ := Alu.target_of_evaluate evaluated
        have sets : (Opcode.alu operation).setsTarget = true := by
          cases operation with
          | cmp => exact absurd rfl arithmetic
          | _ => rfl
        cases performed
        exact Processor.stackPointer_setRegister (Registers.ne_stackPointer named (kept sets)) _ _

theorem stackPointer_after_execute {fetched : Fetched} {executed : Executed}
    (kept : ∀ opcode, Opcode.ofByte? fetched.opcode = some opcode → opcode.setsTarget = true →
      fetched.a ≠ 7)
    (executes : execute comparison fetched m = .ok executed m') :
    m'.processor.stackPointer = m.processor.stackPointer ∨
      instructionLength fetched.opcode = 2 ∧
        (m'.processor.stackPointer = m.processor.stackPointer - 1 ∨
          m'.processor.stackPointer = m.processor.stackPointer + 1) := by
  cases decoded : Opcode.ofByte? fetched.opcode with
  | none =>
    rw [execute_of_unknown decoded] at executes
    cases executes
    exact .inl rfl
  | some opcode =>
    rw [execute_of_known decoded] at executes
    split at executes
    · cases executes
    · rename_i performed
      have moved := stackPointer_after_perform (kept opcode decoded) performed
      have left : m'.processor.stackPointer =
          opcode.moveStackPointer m.processor.stackPointer := by
        cases executes
        split <;> exact moved
      rw [left, ← Opcode.ofByte?_eq_some_iff.mp decoded]
      cases opcode with
      | push => exact .inr ⟨rfl, .inl rfl⟩
      | pop => exact .inr ⟨rfl, .inr rfl⟩
      | _ => exact .inl rfl

end StackPointer

variable {W : Type} [Writer W] {comparison : Comparison} {ram : Ram} {last : Nat} {i : Instruction}
  {listing rest : List Instruction} {m m' start : Machine Ram W} {executed : Executed}

theorem Follows.stackPointer (follows : Follows ram last (i :: rest) m)
    (clean : ¬i.SetsStackPointer) (stepped : step comparison m = .ok executed m') :
    m'.processor.stackPointer = m.processor.stackPointer ∨
      instructionLength i.opcode = 2 ∧
        (m'.processor.stackPointer = m.processor.stackPointer - 1 ∨
          m'.processor.stackPointer = m.processor.stackPointer + 1) := by
  obtain ⟨left, executes, processor⟩ := follows.executes stepped
  have top : m'.processor.stackPointer = left.processor.stackPointer := by
    rw [processor]
    rfl
  rw [top]
  exact stackPointer_after_execute (fun _ => Instruction.first_ne clean) executes

/-- The stack pointer is where pushes and pops have taken it, around either end of memory if need
be, and each of them was two bytes of program. -/
def Balanced (p : Processor) : Prop :=
  ∃ pushes pops, 2 * (pushes + pops) ≤ p.pc ∧
    (p.stackPointer.toNat + pushes) % 256 = (Registers.initialStackPointer.toNat + pops) % 256

theorem Follows.balanced (follows : Follows ram last (i :: rest) m) (clean : ¬i.SetsStackPointer)
    (balanced : Balanced m.processor) (stepped : step comparison m = .ok executed m')
    (running : m'.processor.state ≠ .halted) : Balanced m'.processor := by
  obtain ⟨pushes, pops, room, level⟩ := balanced
  have pc := (follows.pc_of_running stepped running).2
  rcases follows.stackPointer clean stepped with same | ⟨length, lowered | raised⟩
  · refine ⟨pushes, pops, by omega, ?_⟩
    rw [same]
    exact level
  · refine ⟨pushes + 1, pops, by omega, ?_⟩
    rw [lowered, UInt8.toNat_sub, UInt8.toNat_one]
    omega
  · refine ⟨pushes, pops + 1, by omega, ?_⟩
    rw [raised, UInt8.toNat_add, UInt8.toNat_one]
    omega

/-- Not even with all the bytes so far spent on pushes, or on pops that go around the top of memory,
does the stack reach what is still to come of a small program. -/
theorem Balanced.spares (balanced : Balanced m.processor) (small : last ≤ 162)
    (comparison : Comparison) : Spares comparison last m := by
  rintro access made store ⟨past, within⟩
  rw [(pushes_of_store made store).2, UInt8.toNat_sub, UInt8.toNat_one] at past within
  obtain ⟨pushes, pops, room, level⟩ := balanced
  have start : Registers.initialStackPointer.toNat = 244 := rfl
  have top := m.processor.stackPointer.toNat_lt
  omega

theorem spares_of_small (small : last ≤ 162) (clean : ∀ i ∈ listing, ¬i.SetsStackPointer)
    (follows : Follows ram last listing start) (balanced : Balanced start.processor) {count : Nat}
    (rounds : Rounds (step comparison) count start m) : Spares comparison last m := by
  have invariant : ∃ rest, Follows ram last rest m ∧ (∀ i ∈ rest, ¬i.SetsStackPointer) ∧
      Balanced m.processor := by
    apply rounds.invariant (P := fun m => ∃ rest, Follows ram last rest m ∧
      (∀ i ∈ rest, ¬i.SetsStackPointer) ∧ Balanced m.processor) _
    · exact ⟨listing, follows, clean, balanced⟩
    rintro m m' executed ⟨rest, follows, clean, balanced⟩ stepped running
    cases rest with
    | nil => cases follows.swept
    | cons i rest =>
      refine ⟨rest, follows.next (balanced.spares small comparison) stepped running, ?_, ?_⟩
      · intro j later
        exact clean j (List.mem_cons_of_mem i later)
      · exact follows.balanced (clean i List.mem_cons_self) balanced stepped running
  obtain ⟨rest, -, -, balanced⟩ := invariant
  exact balanced.spares small comparison

/-- The two ways in which a run over a listing ends: at the first instruction that faults, or with
all instructions executed at the halt. -/
inductive EndsWithin (comparison : Comparison) (last : Nat) (listing : List Instruction)
    (start : Machine Ram W) : Prop where
  | faulted {count m i fault final} : Rounds (step comparison) count start m →
      listing[count]? = some i → outcome (attempt (execute comparison i.fetched)) m = .error fault →
      run comparison start = .error fault final → final.processor.pc = i.address →
      EndsWithin comparison last listing start
  | halted {final} : run comparison start = .ok () final → final.processor.pc = last →
      final.processor.executed = start.processor.executed + listing.length →
      EndsWithin comparison last listing start

/-- What a run over a listing executes, stores and ends with. -/
structure ExecutesListing (comparison : Comparison) (last : Nat) (listing : List Instruction)
    (start : Machine Ram W) : Prop where
  /-- The steps execute the instructions in order, with the operands that they are listed with. -/
  in_order (count : Nat) (m : Machine Ram W) : Rounds (step comparison) count start m →
    ∃ i, listing[count]? = some i ∧ m.processor.pc = i.address ∧
      SameEnd (step comparison m) (attempt (execute comparison i.fetched) m)
  spares (count : Nat) (m : Machine Ram W) : Rounds (step comparison) count start m →
    Spares comparison last m
  ends : EndsWithin comparison last listing start
  same_end : SameEnd (run comparison start) (carryOut comparison listing start)

theorem endsWithin (running : start.processor.state ≠ .halted)
    (follows : Follows ram last listing start)
    (spares : ∀ count m, Rounds (step comparison) count start m → Spares comparison last m) :
    EndsWithin comparison last listing start := by
  obtain ⟨count, m, rounds, ended⟩ := untilHalted_cases (ends_ram comparison start)
  obtain ⟨onwards, executed, -⟩ := follows.rounds rounds spares
  obtain ⟨i, rest, remaining, listed, address⟩ := onwards.getElem?_listing
  rw [remaining] at onwards
  have whole := sameEnd_run (ends_ram comparison _) running
  rcases ended with ⟨fault, left, failed, ended⟩ | ⟨value, left, stepped, halted, ended⟩
  · rw [ended] at whole
    obtain ⟨final, ran, coincide⟩ := whole.eq_error
    refine .faulted rounds listed ?_ ran ?_
    · rw [← (onwards.sameEnd_step comparison).outcome_eq, outcome_eq_of_error failed]
    · rw [coincide.1, ← address]
      exact pc_of_step_error failed
  · rw [ended] at whole
    obtain ⟨final, ran, coincide⟩ := whole.eq_ok
    have halts := (onwards.halted_iff stepped).mp halted
    obtain ⟨atLast, rfl⟩ := onwards.swept.halted halts
    have length : listing.length = count + 1 := by
      have dropped := congrArg List.length remaining
      rw [List.length_drop, List.length_singleton] at dropped
      omega
    obtain ⟨passes, counted⟩ := onwards.passes stepped
    refine .halted ran ?_ ?_
    · rw [coincide.1, (passes.halted halts).1]
      exact atLast
    · rw [coincide.1, counted, executed, length, Nat.add_assoc]

/-- A run whose pushes spare the rest of the listing carries the listing out. -/
theorem sameEnd_run_carryOut (running : start.processor.state ≠ .halted)
    (follows : Follows ram last listing start)
    (spares : ∀ count m, Rounds (step comparison) count start m → Spares comparison last m) :
    SameEnd (run comparison start) (carryOut comparison listing start) :=
  SameEnd.trans (sameEnd_run (ends_ram comparison _) running)
    (untilHalted_of_follows follows spares)

theorem executesListing (running : start.processor.state ≠ .halted) (small : last ≤ 162)
    (clean : ∀ i ∈ listing, ¬i.SetsStackPointer) (follows : Follows ram last listing start)
    (balanced : Balanced start.processor) : ExecutesListing comparison last listing start := by
  have spares (count : Nat) (m : Machine Ram W) (rounds : Rounds (step comparison) count start m) :
      Spares comparison last m := spares_of_small small clean follows balanced rounds
  constructor
  case in_order =>
    intro count m rounds
    obtain ⟨onwards, -, -⟩ := follows.rounds rounds spares
    obtain ⟨i, rest, remaining, listed, address⟩ := onwards.getElem?_listing
    rw [remaining] at onwards
    exact ⟨i, listed, address, onwards.sameEnd_step comparison⟩
  case spares => exact spares
  case ends => exact endsWithin running follows spares
  case same_end => exact sameEnd_run_carryOut running follows spares

end Machine

namespace Computer

open Machine

theorem follows_ofRam {ram : Ram} {last : Nat} {listing : List Instruction}
    (swept : Sweep ram last 0 listing) (output : Sink) :
    Follows ram last listing { ofRam ram with output } := ⟨swept, fun _ _ _ => rfl⟩

theorem balanced_powerOn : Balanced .powerOn := ⟨0, 0, Nat.le_refl 0, rfl⟩

/-- A program whose sweep meets its first halt at 162 or before, and that leaves R7 to its pushes
and pops, cannot modify itself. -/
theorem small_program_executes_listing (comparison : Comparison) {image : List UInt8}
    (fits : image.length ≤ memorySize) (output : Sink) :
    ∃ ram, Bank.ofImage image = .ok ram ∧ ∀ last listing, Sweep ram last 0 listing → last ≤ 162 →
      (∀ i ∈ listing, ¬i.SetsStackPointer) →
      ExecutesListing comparison last listing { ofRam ram with output } := by
  refine ⟨_, Bank.ofImage_of_length_le fits, ?_⟩
  intro last listing swept small clean
  have running : RunState.ready ≠ .halted := by decide
  exact executesListing running small clean (follows_ofRam swept output) balanced_powerOn

/-- A push and a pop of what was pushed, with the printing of it. -/
theorem small_program_executes_listing_push_pop :
    let image := [0x82, 0, 8, 0x45, 0, 0x46, 1, 0x47, 1, 1]
    let listing : List Instruction := [⟨0, 0x82, [0, 8]⟩, ⟨3, 0x45, [0]⟩, ⟨5, 0x46, [1]⟩,
      ⟨7, 0x47, [1]⟩, ⟨9, 1, []⟩]
    image.length ≤ memorySize ∧ ∃ ram, Bank.ofImage image = .ok ram ∧ Sweep ram 9 0 listing ∧
      (∀ i ∈ listing, ¬i.SetsStackPointer) ∧
      ExecutesListing .contents 9 listing (ofRam ram) := by
  intro image listing
  have fits : image.length ≤ memorySize := by decide
  obtain ⟨ram, loaded, executes⟩ := small_program_executes_listing .contents fits {}
  obtain rfl := Except.ok.inj ((Bank.ofImage_of_length_le fits).symm.trans loaded)
  have swept : Sweep (Bank.ofImagePrefix image) 9 0 listing := by
    refine .next ?_ ?_ (.next ?_ ?_ (.next ?_ ?_ (.next ?_ ?_ (.halt ?_ ?_))))
    all_goals decide +kernel
  have clean : ∀ i ∈ listing, ¬i.SetsStackPointer := by decide
  exact ⟨fits, _, loaded, swept, clean, executes 9 listing swept (by decide) clean⟩

/-- A run from power-on whose pushes spare the rest of the listing carries the listing out. -/
theorem run_carries_out_listing (comparison : Comparison) {image : List UInt8}
    (fits : image.length ≤ memorySize) (output : Sink) :
    ∃ ram, Bank.ofImage image = .ok ram ∧ ∀ last listing, Sweep ram last 0 listing →
      (∀ count m, Rounds (step comparison) count { ofRam ram with output } m →
        Spares comparison last m) →
      SameEnd (run comparison { ofRam ram with output })
        (carryOut comparison listing { ofRam ram with output }) := by
  refine ⟨_, Bank.ofImage_of_length_le fits, ?_⟩
  intro last listing swept spares
  have running : RunState.ready ≠ .halted := by decide
  exact sameEnd_run_carryOut running (follows_ofRam swept output) spares

/-- The program moves the stack pointer into itself, and the push overwrites what is behind it. -/
theorem run_carries_out_listing_push_behind :
    let image := [0x82, 7, 2, 0x45, 7, 1]
    let listing : List Instruction := [⟨0, 0x82, [7, 2]⟩, ⟨3, 0x45, [7]⟩, ⟨5, 1, []⟩]
    image.length ≤ memorySize ∧ ∃ ram, Bank.ofImage image = .ok ram ∧ Sweep ram 5 0 listing ∧
      (∀ count m, Rounds (step .contents) count (ofRam ram) m → Spares .contents 5 m) ∧
      SameEnd (run .contents (ofRam ram)) (carryOut .contents listing (ofRam ram)) := by
  intro image listing
  have fits : image.length ≤ memorySize := by decide
  obtain ⟨ram, loaded, carries⟩ := run_carries_out_listing .contents fits {}
  obtain rfl := Except.ok.inj ((Bank.ofImage_of_length_le fits).symm.trans loaded)
  have swept : Sweep (Bank.ofImagePrefix image) 5 0 listing := by
    refine .next ?_ ?_ (.next ?_ ?_ (.halt ?_ ?_))
    all_goals decide +kernel
  have spares (count : Nat) (m : Machine Ram Sink)
      (rounds : Rounds (step .contents) count (ofRam (Bank.ofImagePrefix image)) m) :
      Spares .contents 5 m := by
    rcases rounds with _ | ⟨stepped, -, _ | ⟨stepped', -, _ | ⟨stepped'', running, -⟩⟩⟩
    · decide +kernel
    · obtain rfl := after_eq_of_ok stepped
      decide +kernel
    · obtain rfl := after_eq_of_ok stepped
      obtain rfl := after_eq_of_ok stepped'
      decide +kernel
    · obtain rfl := after_eq_of_ok stepped
      obtain rfl := after_eq_of_ok stepped'
      obtain rfl := after_eq_of_ok stepped''
      refine absurd ?_ running
      decide +kernel
  exact ⟨fits, _, loaded, swept, spares, carries 5 listing swept spares⟩

end Computer

end ByteMachine
