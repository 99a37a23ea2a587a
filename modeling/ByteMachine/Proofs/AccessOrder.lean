import ByteMachine.Proofs.BusTrace

/-!
# The order of accesses

Which accesses a step makes of a plain memory, and in which order: it reads until it has fetched or
is refused, and then makes the one access of a push or of a pop. Main statements: a step makes these
accesses and no other, and plans the same on every memory that reads the same there.
-/

namespace ByteMachine

section Lists

variable {M W : Type} [Memory M] [Writer W] [PlainMemory M]

/-- Reads of these addresses in turn, up to the first that is refused. -/
def readsInTurn (memory : M) : List Nat → List BusAccess
  | [] => []
  | address :: rest =>
    .read address (PlainMemory.get memory address).toOption ::
      match PlainMemory.get memory address with
      | .ok _ => readsInTurn memory rest
      | .error _ => []

def fetchAccesses (p : Processor) (memory : M) : List BusAccess :=
  readsInTurn memory [p.pc, (p.pc + 1) % memorySize, (p.pc + 2) % memorySize]

/-- The access of an instruction itself: a push or a pop that names a register makes one. -/
def stackAccesses (opcode : Opcode) (a : UInt8) (p : Processor) (memory : M) : List BusAccess :=
  match opcode, Registers.index a with
  | .push, .ok r => [.write (p.stackPointer - 1).toNat (p.registers.get r)]
  | .pop, .ok _ =>
    [.read p.stackPointer.toNat (PlainMemory.get memory p.stackPointer.toNat).toOption]
  | _, _ => []

def executeAccesses (fetched : Fetched) (p : Processor) (memory : M) : List BusAccess :=
  match Opcode.ofByte? fetched.opcode with
  | some opcode => stackAccesses opcode fetched.a p memory
  | none => []

/-- All accesses of a step, in order. -/
def accessesOf (p : Processor) (memory : M) : List BusAccess :=
  fetchAccesses p memory ++
    match Machine.fetched? p memory with
    | .ok fetched => executeAccesses fetched p memory
    | .error _ => []

end Lists

namespace Machine

variable {M W : Type} [Memory M] [Writer W] [PlainMemory M] {comparison : Comparison}
  {opcode : Opcode} {a : UInt8}

theorem afterReads_plain (memory : M) (addresses : List Nat) :
    afterReads memory addresses = memory := by
  induction addresses with
  | nil => rfl
  | cons address rest inductionHypothesis =>
    rw [afterReads, List.foldl_cons, PlainMemory.read_eq]
    exact inductionHypothesis

theorem ownAccess_stackAccesses (opcode : Opcode) (a : UInt8) (p : Processor) (memory : M) :
    OwnAccess p.registers memory opcode.byte a (stackAccesses opcode a p memory) := by
  unfold stackAccesses
  split
  · rename_i r named
    exact .push (Registers.index_eq_ok_iff.mp named) (toNat_sub_one_eq_iff.mp rfl)
  · rename_i r named
    have popped : PlainMemory.get memory p.stackPointer.toNat =
        (Memory.read memory p.stackPointer.toNat).result := by rw [PlainMemory.read_eq]
    rw [popped]
    exact .pop (Registers.exists_index_iff.mp ⟨r, named⟩)
  · rename_i notPush notPop
    refine .none fun uses => ?_
    cases named : Registers.index a with
    | error fault => exact (Registers.index_eq_error_iff.mp named).1
    | ok r =>
      rcases uses with pushes | pops
      · exact absurd named (notPush r (Opcode.byte_injective pushes))
      · exact absurd named (notPop r (Opcode.byte_injective pops))

theorem ownAccess_executeAccesses (fetched : Fetched) (p : Processor) (memory : M) :
    OwnAccess p.registers memory fetched.opcode fetched.a (executeAccesses fetched p memory) := by
  unfold executeAccesses
  cases decoded : Opcode.ofByte? fetched.opcode with
  | some opcode =>
    rw [← Opcode.ofByte?_eq_some_iff.mp decoded]
    exact ownAccess_stackAccesses opcode fetched.a p memory
  | none =>
    refine .none ?_
    rintro (pushes | pops)
    · rw [pushes] at decoded
      cases decoded
    · rw [pops] at decoded
      cases decoded

theorem busTrace_accessesOf (p : Processor) (memory : M) :
    BusTrace p memory (accessesOf p memory) := by
  have refuses {address : Nat} {fault : Fault}
      (refused : PlainMemory.get memory address = .error fault) (addresses : List Nat) :
      Unreadable (afterReads memory addresses) address := by
    rw [afterReads_plain]
    exact (get_eq_error_iff.mp refused).1
  have holds {address : Nat} {value : UInt8} (held : PlainMemory.get memory address = .ok value)
      (addresses : List Nat) : Holds (afterReads memory addresses) address value := by
    rw [afterReads_plain]
    exact holds_iff.mpr held
  rw [accessesOf, fetchAccesses, fetched?]
  cases opcode : PlainMemory.get memory p.pc with
  | error fault =>
    have trace := FetchRefused.opcode (p := p) (refuses opcode [])
    simp only [readsInTurn, opcode, bind, Except.bind]
    exact .refused trace
  | ok op =>
    cases first : PlainMemory.get memory ((p.pc + 1) % memorySize) with
    | error fault =>
      have trace := FetchRefused.first (holds opcode []) (refuses first _)
      simp only [readsInTurn, opcode, first, bind, Except.bind]
      exact .refused trace
    | ok a =>
      cases second : PlainMemory.get memory ((p.pc + 2) % memorySize) with
      | error fault =>
        have trace := FetchRefused.second (holds opcode []) (holds first _) (refuses second _)
        simp only [readsInTurn, opcode, first, second, bind, Except.bind]
        exact .refused trace
      | ok b =>
        have fetches : Fetches p memory op a b := ⟨holds opcode [], holds first _, holds second _⟩
        simp only [readsInTurn, opcode, first, second, bind, Except.bind]
        refine .fetched fetches ?_
        rw [afterReads_plain]
        exact ownAccess_executeAccesses { opcode := op, a, b } p memory

/-- A step makes these accesses, whatever was recorded before. -/
theorem seen_after_step (comparison : Comparison) (m : Machine (Recorded M) W) :
    seen (after (step comparison) m) = seen m ++ accessesOf m.processor m.memory.memory :=
  seen_after_step_of_trace comparison (busTrace_accessesOf m.processor m.memory.memory)

theorem stepAccesses_eq (comparison : Comparison) (m : Machine M W) :
    stepAccesses comparison m = accessesOf m.processor m.memory :=
  stepAccesses_eq_iff.mpr (busTrace_accessesOf m.processor m.memory)

section Stores

variable {p : Processor} {memory : M} {address : Nat} {value : UInt8}

theorem write_not_mem_readsInTurn (addresses : List Nat) :
    .write address value ∉ readsInTurn memory addresses := by
  induction addresses with
  | nil => exact List.not_mem_nil
  | cons first rest inductionHypothesis =>
    rw [readsInTurn]
    split
    · simp [inductionHypothesis]
    · simp

theorem write_not_mem_fetchAccesses : .write address value ∉ fetchAccesses p memory := by
  exact write_not_mem_readsInTurn _

theorem write_mem_stackAccesses_iff :
    .write address value ∈ stackAccesses opcode a p memory ↔
      opcode = .push ∧ address = (p.stackPointer - 1).toNat ∧ p.registers.read a = .ok value := by
  unfold stackAccesses
  split
  · rename_i r named
    simp [Registers.read, named, Except.map, eq_comm]
  · simp
  · rename_i other _
    simp only [List.not_mem_nil, false_iff]
    rintro ⟨rfl, -, read⟩
    obtain ⟨r, named, -⟩ := Except.map_eq_ok_iff.mp read
    exact other r rfl named

/-- A step stores what a push that it has fetched finds in its register. -/
theorem write_mem_accessesOf_iff :
    .write address value ∈ accessesOf p memory ↔
      ∃ fetched, fetched? p memory = .ok fetched ∧ fetched.opcode = Opcode.push.byte ∧
        p.registers.read fetched.a = .ok value ∧ address = (p.stackPointer - 1).toNat := by
  rw [accessesOf, List.mem_append, or_iff_right write_not_mem_fetchAccesses]
  cases fetched? p memory with
  | error fault => simp
  | ok fetched =>
    simp only [executeAccesses, Except.ok.injEq, exists_eq_left']
    cases decoded : Opcode.ofByte? fetched.opcode with
    | none =>
      simp only [List.not_mem_nil, false_iff]
      rintro ⟨pushes, -⟩
      rw [pushes, Opcode.ofByte?_byte] at decoded
      cases decoded
    | some opcode =>
      have byte := Opcode.ofByte?_eq_some_iff.mp decoded
      have pushes : opcode = .push ↔ fetched.opcode = Opcode.push.byte := by
        rw [← byte]
        exact ⟨congrArg Opcode.byte, Opcode.byte_injective⟩
      simp only [write_mem_stackAccesses_iff, pushes, and_comm]

variable {m : Machine M W} {executed : Executed}

omit [Writer W] in
theorem planned_of_store (made : .write address value ∈ accessesOf m.processor m.memory)
    (comparison : Comparison) :
    planned comparison m = .ok (.instruction .push, .push value) := by
  obtain ⟨fetched, fetches, pushes, read, -⟩ := write_mem_accessesOf_iff.mp made
  exact planned_eq_push_iff.mpr ⟨rfl, fetched, fetches, pushes, read⟩

/-- A step that succeeds and has stored something was a push. -/
theorem executed_of_store (made : .write address value ∈ accessesOf m.processor m.memory)
    (succeeds : outcome (step comparison) m = .ok executed) : executed = .instruction .push := by
  have plans := planned_of_store made comparison
  cases stored : PlainMemory.set m.memory (m.processor.stackPointer - 1).toNat value with
  | ok memory =>
    obtain ⟨m', stepped, -⟩ := (sameEnd_step_of_stored plans stored).eq_ok
    cases (outcome_eq_of_ok stepped).symm.trans succeeds
    rfl
  | error fault =>
    obtain ⟨m', faulted, -⟩ := (sameEnd_step_of_unstored plans stored).eq_error
    cases (outcome_eq_of_error faulted).symm.trans succeeds

end Stores

section Congruence

variable {p : Processor} {memory memory' : M}

theorem fetched?_congr (same : ∀ access ∈ fetchAccesses p memory,
      PlainMemory.get memory access.address = PlainMemory.get memory' access.address) :
    fetched? p memory = fetched? p memory' := by
  simp only [fetchAccesses] at same
  have first : PlainMemory.get memory p.pc = PlainMemory.get memory' p.pc :=
    same _ List.mem_cons_self
  simp only [fetched?, bind, Except.bind, ← first]
  cases held : PlainMemory.get memory p.pc with
  | error fault => rfl
  | ok opcode =>
    have second : PlainMemory.get memory ((p.pc + 1) % memorySize) =
        PlainMemory.get memory' ((p.pc + 1) % memorySize) :=
      same (.read _ (PlainMemory.get memory ((p.pc + 1) % memorySize)).toOption)
        (by simp [readsInTurn, held])
    simp only [← second]
    cases held' : PlainMemory.get memory ((p.pc + 1) % memorySize) with
    | error fault => rfl
    | ok a =>
      have third : PlainMemory.get memory ((p.pc + 2) % memorySize) =
          PlainMemory.get memory' ((p.pc + 2) % memorySize) :=
        same (.read _ (PlainMemory.get memory ((p.pc + 2) % memorySize)).toOption)
          (by simp [readsInTurn, held, held'])
      simp only [← third]

theorem intent_congr (comparison : Comparison) (b : UInt8)
    (same : ∀ access ∈ stackAccesses opcode a p memory,
      PlainMemory.get memory access.address = PlainMemory.get memory' access.address) :
    intent comparison opcode a b p memory = intent comparison opcode a b p memory' := by
  cases opcode with
  | pop =>
    cases named : Registers.index a with
    | ok r =>
      have popped : PlainMemory.get memory p.stackPointer.toNat =
          PlainMemory.get memory' p.stackPointer.toNat :=
        same (.read _ (PlainMemory.get memory p.stackPointer.toNat).toOption)
          (by simp [stackAccesses, named])
      simp only [intent, popped]
    | error fault => simp only [intent, named, bind, Except.bind]
  | hlt | ldi | prn | push | alu => rfl

theorem plan_congr (comparison : Comparison) (same : ∀ access ∈ accessesOf p memory,
      PlainMemory.get memory access.address = PlainMemory.get memory' access.address) :
    plan comparison p memory = plan comparison p memory' := by
  have fetches := fetched?_congr fun access made => same access (List.mem_append_left _ made)
  have executes := fun access made => same access (List.mem_append_right _ made)
  rw [plan, plan, ← fetches]
  cases fetched : fetched? p memory with
  | error fault => rfl
  | ok fetched' =>
    rw [fetched] at executes
    change planFor comparison fetched' p memory = planFor comparison fetched' p memory'
    unfold planFor
    cases decoded : Opcode.ofByte? fetched'.opcode with
    | none => rfl
    | some opcode =>
      simp only [executeAccesses, decoded] at executes
      simp only [intent_congr comparison fetched'.b executes]

end Congruence

end Machine

end ByteMachine
