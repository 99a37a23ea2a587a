import ByteMachine.Proofs.BusAccesses
import ByteMachine.Proofs.Confinement

/-!
# Listings

The linear sweep reads a listing off a memory: from an address on one instruction after the other,
each with the operand bytes that its own length takes in, up to the first halt. Main statement: a
run that never stores into the part of the listing it has yet to execute carries the listing out.
-/

namespace ByteMachine

/-- An instruction as it lies in memory, or a byte that encodes none and what its length skips. -/
structure Instruction where
  address : Nat
  opcode : UInt8
  operands : List UInt8
  deriving DecidableEq, Repr

namespace Instruction

def at? (ram : Ram) (address : Nat) : Option Instruction :=
  ram.toList[address]?.map fun opcode =>
    let operands := (ram.toList.drop (address + 1)).take (instructionLength opcode - 1)
    { address, opcode, operands }

/-- The instruction as if just fetched. Operands that it does not have are never looked at. -/
def fetched (i : Instruction) : Fetched :=
  { opcode := i.opcode, a := i.operands.getD 0 0, b := i.operands.getD 1 0 }

variable {ram : Ram} {address : Nat} {i : Instruction}

theorem opcode_of_at? (found : at? ram address = some i) :
    ram.toList[address]? = some i.opcode := by
  obtain ⟨opcode, held, rfl⟩ := Option.map_eq_some_iff.mp found
  exact held

theorem address_of_at? (found : at? ram address = some i) : i.address = address := by
  obtain ⟨opcode, held, rfl⟩ := Option.map_eq_some_iff.mp found
  rfl

theorem operand_of_at? (found : at? ram address = some i) {k : Nat}
    (own : k + 1 < instructionLength i.opcode) :
    i.operands[k]? = ram.toList[address + 1 + k]? := by
  obtain ⟨opcode, held, rfl⟩ := Option.map_eq_some_iff.mp found
  have taken : k < instructionLength opcode - 1 := Nat.lt_sub_of_add_lt own
  rw [List.getElem?_take_of_lt taken, List.getElem?_drop]

end Instruction

/-- The sweep from an address meets these instructions, the first halt among them being the last. -/
inductive Sweep (ram : Ram) (last : Nat) : Nat → List Instruction → Prop where
  | halt {i} : Instruction.at? ram last = some i → i.opcode = Opcode.hlt.byte →
      Sweep ram last last [i]
  | next {address i rest} : Instruction.at? ram address = some i → i.opcode ≠ Opcode.hlt.byte →
      Sweep ram last (address + instructionLength i.opcode) rest →
      Sweep ram last address (i :: rest)

namespace Sweep

variable {ram : Ram} {last address : Nat} {i : Instruction} {listing rest : List Instruction}

theorem le_last (swept : Sweep ram last address listing) : address ≤ last := by
  induction swept with
  | halt => exact Nat.le_refl _
  | next _ _ _ inductionHypothesis => exact Nat.le_of_add_right_le inductionHypothesis

theorem last_lt (swept : Sweep ram last address listing) : last < memorySize := by
  induction swept with
  | halt found =>
    obtain ⟨inside, -⟩ := List.getElem?_eq_some_iff.mp (Instruction.opcode_of_at? found)
    rwa [Bank.length_toList] at inside
  | next _ _ _ inductionHypothesis => exact inductionHypothesis

theorem head (swept : Sweep ram last address (i :: rest)) :
    Instruction.at? ram address = some i := by
  cases swept with
  | halt found => exact found
  | next found => exact found

/-- No instruction reaches past the last one, not even with its operands. -/
theorem inside (swept : Sweep ram last address (i :: rest)) :
    address + instructionLength i.opcode ≤ last + 1 := by
  cases swept with
  | halt _ halts =>
    rw [halts]
    exact Nat.le_refl _
  | next _ _ onwards => exact Nat.le_succ_of_le onwards.le_last

theorem tail (swept : Sweep ram last address (i :: rest)) (running : i.opcode ≠ Opcode.hlt.byte) :
    Sweep ram last (address + instructionLength i.opcode) rest := by
  cases swept with
  | halt _ halts => exact absurd halts running
  | next _ _ onwards => exact onwards

theorem halted (swept : Sweep ram last address (i :: rest)) (halts : i.opcode = Opcode.hlt.byte) :
    address = last ∧ rest = [] := by
  cases swept with
  | halt => exact ⟨rfl, rfl⟩
  | next _ running => exact absurd halts running

end Sweep

namespace Machine

variable {W : Type} {comparison : Comparison} {ram : Ram} {last : Nat} {i : Instruction}
  {listing rest : List Instruction} {m m' : Machine Ram W} {executed : Executed}

/-- The program counter is at the start of this listing, whose bytes are still those of `ram`. -/
structure Follows (ram : Ram) (last : Nat) (listing : List Instruction) (m : Machine Ram W) :
    Prop where
  swept : Sweep ram last m.processor.pc listing
  intact : ∀ address, m.processor.pc ≤ address → address ≤ last →
    m.memory.toList[address]? = ram.toList[address]?

namespace Follows

/-- An operand byte that belongs to the instruction is fetched as it lies in the sweep. -/
theorem operand (follows : Follows ram last (i :: rest) m) {k : Nat}
    (own : k + 1 < instructionLength i.opcode) {value : UInt8}
    (got : PlainMemory.get m.memory ((m.processor.pc + (k + 1)) % memorySize) = .ok value) :
    value = i.operands.getD k 0 := by
  have inside := follows.swept.inside
  have top := follows.swept.last_lt
  rw [Nat.mod_eq_of_lt (by omega)] at got
  have held := Bank.get_eq_ok_iff.mp got
  rw [follows.intact _ (by omega) (by omega)] at held
  rw [List.getD_eq_getElem?_getD, Instruction.operand_of_at? follows.swept.head own,
    Nat.add_assoc, Nat.add_comm 1 k, held]
  rfl

theorem fetched (follows : Follows ram last (i :: rest) m) :
    ∃ fetched, fetched? m.processor m.memory = .ok fetched ∧ fetched.SameInstruction i.fetched := by
  have readable (address : Nat) : ∃ value,
      PlainMemory.get m.memory (address % memorySize) = .ok value :=
    ⟨_, Bank.get_of_lt m.memory (Nat.mod_lt address (by decide))⟩
  obtain ⟨a, first⟩ := readable (m.processor.pc + 1)
  obtain ⟨b, second⟩ := readable (m.processor.pc + 2)
  have opcode : PlainMemory.get m.memory m.processor.pc = .ok i.opcode := by
    refine Bank.get_eq_ok_iff.mpr ?_
    rw [follows.intact _ (Nat.le_refl _) follows.swept.le_last]
    exact Instruction.opcode_of_at? follows.swept.head
  refine ⟨{ opcode := i.opcode, a, b }, ?_, rfl, ?_, ?_⟩
  · simp only [fetched?, opcode, first, second, bind, Except.bind, pure, Except.pure]
  · intro own
    exact follows.operand own first
  · intro own
    exact follows.operand own second

theorem opcode_of_pushes (follows : Follows ram last (i :: rest) m) (pushes : m.Pushes) :
    i.opcode = Opcode.push.byte := by
  obtain ⟨fetched, fetches, same⟩ := follows.fetched
  obtain ⟨fetched', fetches', isPush⟩ := pushes
  cases fetches.symm.trans fetches'
  exact same.1.symm.trans isPush

theorem getElem?_listing {count : Nat} (follows : Follows ram last (listing.drop count) m) :
    ∃ i rest, listing.drop count = i :: rest ∧ listing[count]? = some i ∧
      m.processor.pc = i.address := by
  cases remaining : listing.drop count with
  | nil =>
    rw [remaining] at follows
    cases follows.swept
  | cons i rest =>
    rw [remaining] at follows
    refine ⟨i, rest, rfl, ?_, (Instruction.address_of_at? follows.swept.head).symm⟩
    have first : (listing.drop count)[0]? = listing[count + 0]? := List.getElem?_drop
    rw [remaining] at first
    exact first.symm

end Follows

variable [Writer W]

/-- Carry out a listing in order, with nothing fetched. It ends at the first instruction that
faults, or with the listing. -/
def carryOut (comparison : Comparison) : List Instruction → Action Ram W Unit
  | [] => pure ()
  | i :: rest => do
    let _ ← attempt (execute comparison i.fetched)
    carryOut comparison rest

/-- The next step stores nothing into the listing past an instruction of two bytes, such as a push
is. -/
def Spares (comparison : Comparison) (last : Nat) (m : Machine Ram W) : Prop :=
  ∀ access ∈ stepAccesses comparison m, access.isWrite = true →
    ¬(m.processor.pc + 2 ≤ access.address ∧ access.address ≤ last)

instance (comparison : Comparison) (last : Nat) (m : Machine Ram W) :
    Decidable (Spares comparison last m) :=
  inferInstanceAs (Decidable (∀ access ∈ stepAccesses comparison m, access.isWrite = true → _))

namespace Follows

/-- A step executes the next instruction of the listing. -/
theorem sameEnd_step (follows : Follows ram last (i :: rest) m) (comparison : Comparison) :
    SameEnd (Machine.step comparison m) (attempt (execute comparison i.fetched) m) := by
  obtain ⟨fetched, fetches, same⟩ := follows.fetched
  rw [step_plain, fetches]
  apply Coincide.simulation.attempt (.refl m)
  intro m' n' coincide _
  exact Coincide.simulation.execute comparison same coincide

/-- A step that succeeds has executed the next instruction of the listing. -/
theorem executes (follows : Follows ram last (i :: rest) m)
    (stepped : Machine.step comparison m = .ok executed m') :
    ∃ left, execute comparison i.fetched { m with processor.state := .running } =
        .ok executed left ∧
      m'.processor = { left.processor with executed := left.processor.executed + 1 } := by
  have matched := follows.sameEnd_step comparison
  rw [stepped] at matched
  obtain ⟨n', carried, coincide⟩ := matched.of_ok
  obtain ⟨left, executes, rfl⟩ := attempt_ok carried
  exact ⟨left, executes, coincide.1⟩

/-- How the instruction passes control on. -/
theorem passes (follows : Follows ram last (i :: rest) m)
    (stepped : Machine.step comparison m = .ok executed m') :
    Passes i.fetched { m.processor with state := .running } m'.processor ∧
      m'.processor.executed = m.processor.executed + 1 := by
  obtain ⟨left, executes, processor⟩ := follows.executes stepped
  obtain ⟨passes, count⟩ := execute_ok executes
  rw [processor]
  exact ⟨passes, congrArg (· + 1) count⟩

theorem halted_iff (follows : Follows ram last (i :: rest) m)
    (stepped : Machine.step comparison m = .ok executed m') :
    m'.processor.state = .halted ↔ i.opcode = Opcode.hlt.byte := by
  have passes := (follows.passes stepped).1
  constructor
  · intro halted
    by_cases halts : i.opcode = Opcode.hlt.byte
    · exact halts
    · cases (passes.onwards halts).2.symm.trans halted
  · intro halts
    exact (passes.halted halts).2

/-- Of the cells that the rest of the listing lies in, a step that spares it changes none. -/
theorem cells_after_step (follows : Follows ram last (i :: rest) m)
    (spares : Spares comparison last m) {address : Nat}
    (ahead : m.processor.pc + instructionLength i.opcode ≤ address) (within : address ≤ last) :
    (after (Machine.step comparison) m).memory.toList[address]? = m.memory.toList[address]? := by
  rcases memory_after_step comparison m with kept | ⟨value, store, written⟩
  · rw [kept]
  · have outside : ¬(m.processor.pc + 2 ≤ (m.processor.stackPointer - 1).toNat ∧
        (m.processor.stackPointer - 1).toNat ≤ last) := spares _ store rfl
    have short : instructionLength i.opcode = 2 := by
      rw [follows.opcode_of_pushes (pushes_of_store store rfl).1]
      rfl
    rw [Bank.toList_of_set written, List.getElem?_set_ne (by omega)]

theorem pc_of_running (follows : Follows ram last (i :: rest) m)
    (stepped : Machine.step comparison m = .ok executed m')
    (running : m'.processor.state ≠ .halted) :
    i.opcode ≠ Opcode.hlt.byte ∧
      m'.processor.pc = m.processor.pc + instructionLength i.opcode := by
  have other : i.opcode ≠ Opcode.hlt.byte := fun halts =>
    running ((follows.halted_iff stepped).mpr halts)
  have moved := ((follows.passes stepped).1.onwards other).1
  have within : m.processor.pc + instructionLength i.opcode < addressSpace := by
    have inside := follows.swept.inside
    have top : last < 256 := follows.swept.last_lt
    rw [addressSpace]
    omega
  exact ⟨other, moved.trans (Nat.mod_eq_of_lt within)⟩

theorem next (follows : Follows ram last (i :: rest) m) (spares : Spares comparison last m)
    (stepped : Machine.step comparison m = .ok executed m')
    (running : m'.processor.state ≠ .halted) : Follows ram last rest m' := by
  obtain ⟨other, pc⟩ := follows.pc_of_running stepped running
  constructor
  · rw [pc]
    exact follows.swept.tail other
  · intro address ahead within
    rw [pc] at ahead
    have kept := follows.cells_after_step spares ahead within
    rw [after_eq_of_ok stepped] at kept
    rw [kept, follows.intact address (Nat.le_of_add_right_le ahead) within]

end Follows

theorem alike_carryOut (comparison : Comparison) (listing : List Instruction) :
    Alike (Coincide (W := W)) unparted (carryOut comparison listing)
      (carryOut comparison listing) := by
  induction listing with
  | nil => exact Alike.pure ()
  | cons i rest inductionHypothesis =>
    apply Alike.bind
    · intro m n same
      apply Coincide.simulation.attempt same
      intro m' n' coincide _
      exact Coincide.simulation.execute comparison (.refl _) coincide
    · intro _
      exact inductionHypothesis

/-- The first instruction of a listing does what a step does, and the others follow. -/
theorem sameEnd_carryOut_cons (follows : Follows ram last (i :: rest) m)
    (stepped : step comparison m = .ok executed m') :
    SameEnd (carryOut comparison (i :: rest) m) (carryOut comparison rest m') := by
  have matched := follows.sameEnd_step comparison
  rw [stepped] at matched
  obtain ⟨n', carried, coincide⟩ := matched.of_ok
  simp only [carryOut, bind, EStateM.bind, carried]
  exact alike_carryOut comparison rest coincide.symm

theorem Follows.rounds {count : Nat} (follows : Follows ram last listing m)
    (rounds : Rounds (step comparison) count m m')
    (spares : ∀ count m', Rounds (step comparison) count m m' → Spares comparison last m') :
    Follows ram last (listing.drop count) m' ∧
      m'.processor.executed = m.processor.executed + count ∧
      SameEnd (carryOut comparison listing m) (carryOut comparison (listing.drop count) m') := by
  induction rounds generalizing listing with
  | refl => exact ⟨follows, rfl, alike_carryOut comparison listing (.refl _)⟩
  | cons stepped running _ inductionHypothesis =>
    cases listing with
    | nil => cases follows.swept
    | cons i rest =>
      have onwards := follows.next (spares 0 _ (.refl _)) stepped running
      obtain ⟨follows', count', same⟩ := inductionHypothesis onwards fun count m' rounds =>
        spares (count + 1) m' (.cons stepped running rounds)
      refine ⟨follows', ?_, (sameEnd_carryOut_cons follows stepped).trans same⟩
      rw [count', (follows.passes stepped).2, Nat.add_right_comm, Nat.add_assoc]

theorem untilHalted_of_follows (follows : Follows ram last listing m)
    (spares : ∀ count m', Rounds (step comparison) count m m' → Spares comparison last m') :
    SameEnd (untilHalted (step comparison) m) (carryOut comparison listing m) := by
  obtain ⟨count, m', rounds, ended⟩ := untilHalted_cases (ends_ram comparison m)
  obtain ⟨follows', -, same⟩ := follows.rounds rounds spares
  refine SameEnd.trans ?_ same.symm
  cases remaining : listing.drop count with
  | nil =>
    rw [remaining] at follows'
    cases follows'.swept
  | cons i rest =>
    rw [remaining] at follows'
    rcases ended with ⟨fault, final, stepped, ended⟩ | ⟨value, final, stepped, halted, ended⟩
    · have matched := follows'.sameEnd_step comparison
      rw [stepped] at matched
      obtain ⟨n', carried, coincide⟩ := matched.of_error
      rw [ended]
      simp only [carryOut, bind, EStateM.bind, carried]
      exact .error coincide
    · have halts := (follows'.halted_iff stepped).mp halted
      obtain ⟨-, rfl⟩ := follows'.swept.halted halts
      rw [ended]
      exact (sameEnd_carryOut_cons follows' stepped).symm

end Machine

end ByteMachine
