import ByteMachine.Proofs.BusAccesses
import ByteMachine.Proofs.Course
import ByteMachine.Proofs.FirstFault
import ByteMachine.Proofs.InstructionTable

/-!
# What passes over the bus

The accesses that steps make of any memory, also of one whose reads have effects. Main statement:
the accesses of a step are determined by the processor and by what its reads get, in order and in
number; so, in a run, only opcodes are fetched from beyond the first 256 addresses, and only pushes
that name a register write, once each.
-/

namespace ByteMachine

section Accesses

variable {M : Type} [Memory M]

/-- The memory that reads of these addresses in turn leave behind. -/
def afterReads (memory : M) (addresses : List Nat) : M :=
  addresses.foldl (fun memory address => (Memory.read memory address).memory) memory

/-- The access that an instruction makes itself, if any, once its opcode and operands are
fetched. -/
inductive OwnAccess (registers : Registers) (memory : M) : UInt8 → UInt8 → List BusAccess → Prop
    where
  | push {a : UInt8} {r : RegisterIndex} {top : Nat} : a.toNat = r →
      (top : Int) = ((registers.get 7).toNat - 1) % 256 →
      OwnAccess registers memory 0b01000101 a [.write top (registers.get r)]
  | pop {a : UInt8} : a.toNat < 8 →
      OwnAccess registers memory 0b01000110 a [.read (registers.get 7).toNat
        (Memory.read memory (registers.get 7).toNat).result.toOption]
  | none {op a} : (op = 0b01000101 ∨ op = 0b01000110 → 8 ≤ a.toNat) →
      OwnAccess registers memory op a []

/-- The reads of a fetch that is refused one of its bytes, which is the last that it asks for. -/
inductive FetchRefused (p : Processor) (memory : M) : List BusAccess → Prop where
  | opcode : Unreadable memory p.pc → FetchRefused p memory [.read p.pc none]
  | first {op} : Holds memory p.pc op →
      Unreadable (afterReads memory [p.pc]) ((p.pc + 1) % 256) →
      FetchRefused p memory [.read p.pc (some op), .read ((p.pc + 1) % 256) none]
  | second {op a} : Holds memory p.pc op →
      Holds (afterReads memory [p.pc]) ((p.pc + 1) % 256) a →
      Unreadable (afterReads memory [p.pc, (p.pc + 1) % 256]) ((p.pc + 2) % 256) →
      FetchRefused p memory [.read p.pc (some op), .read ((p.pc + 1) % 256) (some a),
        .read ((p.pc + 2) % 256) none]

/-- The reads of a fetch, one after the other, get these bytes. -/
structure Fetches (p : Processor) (memory : M) (op a b : UInt8) : Prop where
  opcode : Holds memory p.pc op
  first : Holds (afterReads memory [p.pc]) ((p.pc + 1) % 256) a
  second : Holds (afterReads memory [p.pc, (p.pc + 1) % 256]) ((p.pc + 2) % 256) b

/-- The accesses of a step, in order. -/
inductive BusTrace (p : Processor) (memory : M) : List BusAccess → Prop where
  | refused {accesses} : FetchRefused p memory accesses → BusTrace p memory accesses
  | fetched {op a b own} : Fetches p memory op a b →
      OwnAccess p.registers (afterReads memory [p.pc, (p.pc + 1) % 256, (p.pc + 2) % 256]) op a
        own →
      BusTrace p memory ([.read p.pc (some op), .read ((p.pc + 1) % 256) (some a),
        .read ((p.pc + 2) % 256) (some b)] ++ own)

theorem afterReads_concat (memory : M) (addresses : List Nat) (address : Nat) :
    afterReads memory (addresses ++ [address]) =
      (Memory.read (afterReads memory addresses) address).memory := List.foldl_append

theorem holds_or_unreadable (memory : M) (address : Nat) :
    (∃ value, Holds memory address value) ∨ Unreadable memory address := by
  unfold Holds Unreadable
  cases (Memory.read memory address).result with
  | ok value => exact .inl ⟨value, rfl⟩
  | error fault => exact .inr ⟨fault, rfl⟩

theorem exists_ownAccess (registers : Registers) (memory : M) (op a : UInt8) :
    ∃ own, OwnAccess registers memory op a own := by
  cases named : Registers.index a with
  | error fault =>
    exact ⟨[], .none fun _ => (Registers.index_eq_error_iff.mp named).1⟩
  | ok r =>
    have numbered := Registers.index_eq_ok_iff.mp named
    by_cases pushes : op = 0b01000101
    · subst pushes
      exact ⟨_, .push numbered (toNat_sub_one_eq_iff.mp rfl)⟩
    · by_cases pops : op = 0b01000110
      · subst pops
        exact ⟨_, .pop (numbered ▸ r.isLt)⟩
      · exact ⟨[], .none fun uses => absurd uses (not_or.mpr ⟨pushes, pops⟩)⟩

theorem fetches_or_refused (p : Processor) (memory : M) :
    (∃ op a b, Fetches p memory op a b) ∨ ∃ accesses, FetchRefused p memory accesses := by
  rcases holds_or_unreadable memory p.pc with ⟨op, opcode⟩ | refused
  · rcases holds_or_unreadable (afterReads memory [p.pc]) ((p.pc + 1) % 256) with
      ⟨a, first⟩ | refused
    · rcases holds_or_unreadable (afterReads memory [p.pc, (p.pc + 1) % 256])
        ((p.pc + 2) % 256) with ⟨b, second⟩ | refused
      · exact .inl ⟨op, a, b, opcode, first, second⟩
      · exact .inr ⟨_, .second opcode first refused⟩
    · exact .inr ⟨_, .first opcode refused⟩
  · exact .inr ⟨_, .opcode refused⟩

theorem exists_busTrace (p : Processor) (memory : M) : ∃ accesses, BusTrace p memory accesses := by
  rcases fetches_or_refused p memory with ⟨op, a, b, fetches⟩ | ⟨accesses, refused⟩
  · obtain ⟨own, makes⟩ := exists_ownAccess p.registers
      (afterReads memory [p.pc, (p.pc + 1) % 256, (p.pc + 2) % 256]) op a
    exact ⟨_, .fetched fetches makes⟩
  · exact ⟨accesses, .refused refused⟩

theorem FetchRefused.running {p : Processor} {memory : M} {accesses : List BusAccess}
    (refused : FetchRefused p memory accesses) :
    FetchRefused { p with state := .running } memory accesses := by
  cases refused with
  | opcode refused => exact .opcode refused
  | first opcode refused => exact .first opcode refused
  | second opcode first refused => exact .second opcode first refused

theorem BusTrace.running {p : Processor} {memory : M} {accesses : List BusAccess}
    (trace : BusTrace p memory accesses) :
    BusTrace { p with state := .running } memory accesses := by
  cases trace with
  | refused refused => exact .refused refused.running
  | fetched fetches makes =>
    exact .fetched ⟨fetches.opcode, fetches.first, fetches.second⟩ makes

end Accesses

namespace Machine

variable {M W : Type} [Memory M] {comparison : Comparison} {opcode : Opcode} {a b value : UInt8}
  {address : Nat} {accesses : List BusAccess} {m : Machine (Recorded M) W}

/-- The accesses that the bus has seen. -/
def seen (m : Machine (Recorded M) W) : List BusAccess := m.memory.accesses.toList

/-- What is left when the machine has made these reads, all of which got their bytes. -/
def HasRead (m m' : Machine (Recorded M) W) (addresses : List Nat) (accesses : List BusAccess) :
    Prop :=
  m'.processor = m.processor ∧ m'.memory.memory = afterReads m.memory.memory addresses ∧
    seen m' = seen m ++ accesses

section Reads

variable {addresses : List Nat} {m' : Machine (Recorded M) W}

theorem HasRead.refl (m : Machine (Recorded M) W) : HasRead m m [] [] :=
  ⟨rfl, rfl, (List.append_nil _).symm⟩

theorem HasRead.holds (has : HasRead m m' addresses accesses)
    (held : Holds (afterReads m.memory.memory addresses) address value) :
    ∃ m'', read address m' = .ok value m'' ∧
      HasRead m m'' (addresses ++ [address]) (accesses ++ [.read address (some value)]) := by
  obtain ⟨processor, memory, accesses⟩ := has
  rw [← memory, Holds] at held
  simp only [read, Memory.read, Access.within, held, settle]
  refine ⟨_, rfl, processor, ?_, ?_⟩
  · rw [afterReads_concat, ← memory]
  · rw [← List.append_assoc, ← accesses]
    exact Array.toList_push

theorem HasRead.refused (has : HasRead m m' addresses accesses)
    (refused : Unreadable (afterReads m.memory.memory addresses) address) :
    ∃ fault m'', read address m' = .error fault m'' ∧
      seen m'' = seen m ++ (accesses ++ [.read address none]) := by
  obtain ⟨processor, memory, accesses⟩ := has
  obtain ⟨fault, refused⟩ := refused
  rw [← memory] at refused
  simp only [read, Memory.read, Access.within, refused, settle]
  refine ⟨fault, _, rfl, ?_⟩
  rw [← List.append_assoc, ← accesses]
  exact Array.toList_push

end Reads

theorem seen_after_read (address : Nat) (m : Machine (Recorded M) W) :
    seen (after (read address) m) =
      seen m ++ [.read address (Memory.read m.memory.memory address).result.toOption] := by
  have kept : Keeps (seen (M := M) (W := W))
      (settle (Memory.read m.memory.memory address).result) := Keeps.settle _
  exact (kept _).trans Array.toList_push

theorem seen_after_write (address : Nat) (value : UInt8) (m : Machine (Recorded M) W) :
    seen (after (write address value) m) = seen m ++ [.write address value] := by
  have kept : Keeps (seen (M := M) (W := W))
      (settle (Memory.write m.memory.memory address value).result) := Keeps.settle _
  exact (kept _).trans Array.toList_push

theorem seen_after_read_bind {β : Type} (address : Nat) {next : UInt8 → Action (Recorded M) W β}
    (keeps : ∀ value, Keeps (seen (M := M) (W := W)) (next value)) (m : Machine (Recorded M) W) :
    seen (after (read address >>= next) m) =
      seen m ++ [.read address (Memory.read m.memory.memory address).result.toOption] := by
  rw [← seen_after_read, after_bind, after]
  cases read address m with
  | ok value m' => exact keeps value m'
  | error fault m' => rfl

theorem fetch_of_refused (refused : FetchRefused m.processor m.memory.memory accesses) :
    ∃ fault m', fetch m = .error fault m' ∧ seen m' = seen m ++ accesses := by
  have start := HasRead.refl m
  cases refused with
  | opcode refused =>
    obtain ⟨fault, m', failed, left⟩ := start.refused refused
    refine ⟨fault, m', ?_, left⟩
    rw [fetch_apply]
    simp only [bind, EStateM.bind, failed]
  | first opcode refused =>
    obtain ⟨m₁, read₁, has₁⟩ := start.holds opcode
    obtain ⟨fault, m', failed, left⟩ := has₁.refused refused
    refine ⟨fault, m', ?_, left⟩
    rw [fetch_apply]
    simp only [bind, EStateM.bind, read₁, failed]
  | second opcode first refused =>
    obtain ⟨m₁, read₁, has₁⟩ := start.holds opcode
    obtain ⟨m₂, read₂, has₂⟩ := has₁.holds first
    obtain ⟨fault, m', failed, left⟩ := has₂.refused refused
    refine ⟨fault, m', ?_, left⟩
    rw [fetch_apply]
    simp only [bind, EStateM.bind, read₁, read₂, failed]

theorem fetch_of_fetches {op : UInt8} (fetches : Fetches m.processor m.memory.memory op a b) :
    ∃ m', fetch m = .ok { opcode := op, a, b } m' ∧ HasRead m m'
      [m.processor.pc, (m.processor.pc + 1) % 256, (m.processor.pc + 2) % 256]
      [.read m.processor.pc (some op), .read ((m.processor.pc + 1) % 256) (some a),
        .read ((m.processor.pc + 2) % 256) (some b)] := by
  obtain ⟨opcode, first, second⟩ := fetches
  obtain ⟨m₁, read₁, has₁⟩ := (HasRead.refl m).holds opcode
  obtain ⟨m₂, read₂, has₂⟩ := has₁.holds first
  obtain ⟨m₃, read₃, has₃⟩ := has₂.holds second
  refine ⟨m₃, ?_, has₃⟩
  rw [fetch_apply]
  simp only [bind, EStateM.bind, read₁, read₂, read₃]
  rfl

section Addresses

variable {memory : M} {registers : Registers} {op : UInt8} {m : Machine M W}

/-- The first access of a step, which gets its opcode. -/
def opcodeFetch (m : Machine M W) : BusAccess :=
  .read m.processor.pc (Memory.read m.memory m.processor.pc).result.toOption

/-- The fetch of an opcode from beyond the addresses that the machine's own memory has. -/
def farFetch? (m : Machine M W) : Option BusAccess :=
  if 256 ≤ m.processor.pc then some m.opcodeFetch else none

theorem opcodeFetch_of_holds (held : Holds m.memory m.processor.pc op) :
    m.opcodeFetch = .read m.processor.pc (some op) := by
  rw [opcodeFetch, held]
  rfl

theorem opcodeFetch_of_unreadable (refused : Unreadable m.memory m.processor.pc) :
    m.opcodeFetch = .read m.processor.pc none := by
  obtain ⟨fault, refused⟩ := refused
  rw [opcodeFetch, refused]
  rfl

/-- These accesses all go to the addresses that the machine's own memory has. -/
def StayNear (accesses : List BusAccess) : Prop := ∀ access ∈ accesses, access.address < 256

theorem near_of_own (own : OwnAccess registers memory op a accesses) : StayNear accesses := by
  cases own with
  | push named below =>
    refine List.forall_mem_singleton.mpr ?_
    simp only [BusAccess.address]
    omega
  | pop named => exact List.forall_mem_singleton.mpr (UInt8.toNat_lt _)
  | none unused => exact List.forall_mem_nil _

/-- Operand addresses have wrapped, and the stack pointer is a byte. -/
theorem near_behind_opcode (trace : BusTrace m.processor m.memory accesses) :
    ∃ near, accesses = m.opcodeFetch :: near ∧ StayNear near := by
  have wraps (offset : Nat) : (m.processor.pc + offset) % 256 < 256 := Nat.mod_lt _ (by decide)
  cases trace with
  | refused refused =>
    cases refused with
    | opcode refused =>
      rw [← opcodeFetch_of_unreadable refused]
      exact ⟨[], rfl, List.forall_mem_nil _⟩
    | first opcode refused =>
      rw [← opcodeFetch_of_holds opcode]
      exact ⟨_, rfl, List.forall_mem_singleton.mpr (wraps 1)⟩
    | second opcode first refused =>
      rw [← opcodeFetch_of_holds opcode]
      refine ⟨_, rfl, ?_⟩
      exact List.forall_mem_cons.mpr ⟨wraps 1, List.forall_mem_singleton.mpr (wraps 2)⟩
  | fetched fetches makes =>
    rw [← opcodeFetch_of_holds fetches.opcode]
    refine ⟨_, rfl, List.forall_mem_cons.mpr ⟨wraps 1, ?_⟩⟩
    exact List.forall_mem_cons.mpr ⟨wraps 2, near_of_own makes⟩

/-- A step goes far for its opcode only. -/
theorem far_of_trace (trace : BusTrace m.processor m.memory accesses) :
    accesses.filter (256 ≤ ·.address) = m.farFetch?.toList := by
  obtain ⟨near, rfl, stay⟩ := near_behind_opcode trace
  have none : near.filter (256 ≤ ·.address) = [] := by
    rw [List.filter_eq_nil_iff]
    intro access made
    simpa using stay access made
  have first : m.opcodeFetch.address = m.processor.pc := rfl
  simp only [List.filter_cons, none, first, farFetch?, decide_eq_true_eq]
  split <;> rfl

end Addresses

variable [Writer W]

theorem perform_pop_of_named {r : RegisterIndex} (named : Registers.index a = .ok r)
    (m : Machine (Recorded M) W) :
    perform comparison .pop a b m =
      (do
        let value ← read m.processor.stackPointer.toNat
        updateProcessor fun p =>
          (p.setRegister Registers.stackPointer (m.processor.stackPointer + 1)).setRegister r value
        : Action (Recorded M) W Unit) m := by
  simp only [perform, named, bind, EStateM.bind, settle, pop_apply]
  cases read m.processor.stackPointer.toNat m <;> rfl

/-- An instruction makes its own access, if it has one, and no other. -/
theorem seen_after_perform (comparison : Comparison) {op : UInt8} (byte : opcode.byte = op)
    (own : OwnAccess m.processor.registers m.memory.memory op a accesses) (b : UInt8) :
    seen (after (perform comparison opcode a b) m) = seen m ++ accesses := by
  cases own with
  | @push _ r top named below =>
    obtain rfl : opcode = .push := Opcode.byte_injective byte
    obtain rfl := toNat_sub_one_eq_iff.mpr below
    rw [after, perform_push (Registers.index_eq_ok_iff.mpr named), ← after]
    exact seen_after_write _ _ _
  | pop named =>
    obtain rfl : opcode = .pop := Opcode.byte_injective byte
    obtain ⟨r, named⟩ := Registers.exists_index_iff.mpr named
    rw [after, perform_pop_of_named named, ← after]
    exact seen_after_read_bind _ (fun _ _ => rfl) m
  | none unused =>
    rw [List.append_nil]
    have unnamed (stack : op = 0b01000101 ∨ op = 0b01000110) :
        Registers.index a = .error (.register a) :=
      Registers.index_eq_error_iff.mpr ⟨unused stack, rfl⟩
    cases opcode with
    | hlt => rfl
    | ldi => exact (Keeps.setRegister fun _ _ => rfl : Keeps (seen (M := M) (W := W)) _) m
    | prn =>
      exact ((Keeps.getRegister a).bind fun _ => Keeps.print fun _ _ => rfl :
        Keeps (seen (M := M) (W := W)) _) m
    | push => rw [after_eq_of_error (perform_unnamed (unnamed (.inl byte.symm)) (by simp) m)]
    | pop => rw [after_eq_of_error (perform_unnamed (unnamed (.inr byte.symm)) (by simp) m)]
    | alu operation =>
      refine (Keeps.get.bind fun _ => (Keeps.settle _).bind fun effect => ?_ :
        Keeps (seen (M := M) (W := W)) _) m
      cases effect <;> exact fun _ => rfl

theorem seen_after_execute (comparison : Comparison) {fetched : Fetched}
    (own : OwnAccess m.processor.registers m.memory.memory fetched.opcode fetched.a accesses) :
    seen (after (execute comparison fetched) m) = seen m ++ accesses := by
  cases decoded : Opcode.ofByte? fetched.opcode with
  | none =>
    rw [after_eq_of_ok (execute_of_unknown decoded comparison m)]
    have silent : accesses = [] := by
      generalize fetched.opcode = op at own decoded
      cases own with
      | push => cases decoded
      | pop => cases decoded
      | none => rfl
    exact silent ▸ (List.append_nil _).symm
  | some opcode =>
    have performed := seen_after_perform comparison (Opcode.ofByte?_eq_some_iff.mp decoded)
      (m := { m with log := m.log.push (Report.decoded m.processor.pc opcode fetched.a fetched.b) })
      own fetched.b
    rw [after, execute_of_known decoded]
    unfold after at performed
    split at performed
    · rename_i left ended
      have passed : seen (if opcode = .hlt then left
          else { left with processor := left.processor.advance opcode.length }) = seen left := by
        split <;> rfl
      rw [ended]
      exact passed.trans performed
    · rename_i ended
      rw [ended]
      exact performed

theorem seen_after_fetch_execute (comparison : Comparison)
    (trace : BusTrace m.processor m.memory.memory accesses) :
    seen (after (fetch >>= execute comparison) m) = seen m ++ accesses := by
  rw [after_bind]
  cases trace with
  | refused refused =>
    obtain ⟨fault, m', failed, left⟩ := fetch_of_refused refused
    rw [failed]
    exact left
  | fetched fetches makes =>
    obtain ⟨m', fetched, processor, memory, left⟩ := fetch_of_fetches fetches
    rw [← memory, ← processor] at makes
    rw [fetched, ← List.append_assoc, ← left]
    exact seen_after_execute comparison makes

/-- A step makes the accesses of its trace, whatever was recorded before. -/
theorem seen_after_step_of_trace (comparison : Comparison)
    (trace : BusTrace m.processor m.memory.memory accesses) :
    seen (after (step comparison) m) = seen m ++ accesses := by
  have started : seen (after (step comparison) m) =
      seen (after (fetch >>= execute comparison) { m with processor.state := .running }) :=
    congrArg (·.accesses.toList) (memory_after_attempt _ m)
  rw [started]
  exact seen_after_fetch_execute comparison trace.running

theorem stepAccesses_eq_iff {m : Machine M W} :
    stepAccesses comparison m = accesses ↔ BusTrace m.processor m.memory accesses := by
  have determined {accesses : List BusAccess}
      (trace : BusTrace m.processor m.memory accesses) : stepAccesses comparison m = accesses :=
    seen_after_step_of_trace comparison (m := m.recorded) trace
  constructor
  · rintro rfl
    obtain ⟨accesses, trace⟩ := exists_busTrace m.processor m.memory
    rwa [determined trace]
  · exact determined

section Consequences

variable {p : Processor} {memory : M} {registers : Registers} {op : UInt8} {m : Machine M W}

/-- The write of a step that fetches a push of a register that exists. -/
def pushed? (m : Machine M W) : Option BusAccess :=
  match outcome fetch m with
  | .ok fetched =>
    if fetched.opcode = 0b01000101 then
      (m.processor.registers.read fetched.a).toOption.map
        (.write (m.processor.stackPointer - 1).toNat)
    else none
  | .error _ => none

theorem outcome_fetch_recorded (m : Machine M W) : outcome fetch m.recorded = outcome fetch m :=
  (Mirrors.simulation.fetch ⟨rfl, rfl, rfl⟩ (Mirrors.alike_read _)).outcome_eq

theorem pushed?_of_refused (refused : FetchRefused m.processor m.memory accesses) :
    m.pushed? = none := by
  obtain ⟨fault, m', failed, -⟩ := fetch_of_refused (m := m.recorded) refused
  rw [pushed?, ← outcome_fetch_recorded, outcome_eq_of_error failed]

theorem writes_of_own (own : OwnAccess registers memory op a accesses) :
    accesses.filter BusAccess.isWrite =
      if op = 0b01000101 then
        ((registers.read a).toOption.map (.write (registers.get 7 - 1).toNat)).toList
      else [] := by
  cases own with
  | @push a r top named below =>
    obtain rfl := toNat_sub_one_eq_iff.mpr below
    rw [if_pos rfl, Registers.read_of_named named]
    rfl
  | pop named => rfl
  | none unused =>
    split
    · rename_i pushes
      have unnamed : Registers.index a = .error (.register a) :=
        Registers.index_eq_error_iff.mpr ⟨unused (.inl pushes), rfl⟩
      rw [Registers.read, unnamed]
      rfl
    · rfl

/-- A step writes what a push does, and nothing else. -/
theorem writes_of_trace (trace : BusTrace m.processor m.memory accesses) :
    accesses.filter BusAccess.isWrite = m.pushed?.toList := by
  cases trace with
  | refused refused =>
    rw [pushed?_of_refused refused]
    cases refused <;> rfl
  | fetched fetches makes =>
    obtain ⟨m', fetched, -⟩ := fetch_of_fetches (m := m.recorded) fetches
    rw [pushed?, ← outcome_fetch_recorded, outcome_eq_of_ok fetched, List.filter_append,
      writes_of_own makes]
    simp only
    split <;> rfl

end Consequences

section Runs

variable {m : Machine M W}

theorem seen_after_step_of_wraps {m : Machine (Recorded M) W} {n : Machine M W}
    (wraps : Wraps Recorded.memory m n) :
    seen (after (step comparison) m) = seen m ++ stepAccesses comparison n := by
  have trace : BusTrace n.processor n.memory (stepAccesses comparison n) :=
    stepAccesses_eq_iff.mp rfl
  rw [← wraps.1, ← wraps.2.1] at trace
  exact seen_after_step_of_trace comparison trace

omit [Memory M] [Writer W] in
theorem wraps_recorded (m : Machine M W) : Wraps Recorded.memory m.recorded m := ⟨rfl, rfl, rfl⟩

theorem wraps_stepped (comparison : Comparison) (count : Nat) (m : Machine M W) :
    Wraps Recorded.memory (stepped comparison count m.recorded) (stepped comparison count m) := by
  induction count with
  | zero => exact wraps_recorded m
  | succ count inductionHypothesis =>
    exact (Transparent.recorded.alike_step comparison inductionHypothesis).after

/-- What the bus sees of steps in turn. -/
theorem seen_stepped (comparison : Comparison) (count : Nat) (m : Machine M W) :
    seen (stepped comparison count m.recorded) =
      ((List.range count).map (stepped comparison · m)).flatMap (stepAccesses comparison) := by
  induction count with
  | zero => rfl
  | succ count inductionHypothesis =>
    rw [stepped, seen_after_step_of_wraps (wraps_stepped comparison count m), inductionHypothesis,
      List.range_succ, List.map_append, List.flatMap_append]
    simp

theorem seen_after_run (ends : Ends (step comparison) m) (running : m.processor.state ≠ .halted) :
    seen (after (run comparison) m.recorded) =
      (visited comparison m).flatMap (stepAccesses comparison) := by
  have ends' : Ends (step comparison) m.recorded :=
    (Transparent.recorded.ends_iff (wraps_recorded m)).mpr ends
  have looped : seen (after (run comparison) m.recorded) =
      seen (after (untilHalted (step comparison)) m.recorded) :=
    congrArg (·.accesses.toList) (sameEnd_run ends' running).after.2.1
  have length : (visited comparison m.recorded).length = (visited comparison m).length :=
    (forall₂_course Wraps.agree (Transparent.recorded.alike_step comparison) ends'
      (wraps_recorded m)).length_eq
  rw [looped, after_untilHalted_eq_stepped ends', seen_stepped, length, ← visited_eq_stepped ends]

/-- What the bus sees while these machines take a step each. -/
structure SeenInTurn (comparison : Comparison) (machines : List (Machine M W))
    (accesses : List BusAccess) : Prop where
  in_turn : accesses = machines.flatMap (stepAccesses comparison)
  far : accesses.filter (256 ≤ ·.address) = machines.filterMap farFetch?
  writes : accesses.filter BusAccess.isWrite = machines.filterMap pushed?

theorem seenInTurn (comparison : Comparison) (machines : List (Machine M W)) :
    SeenInTurn comparison machines (machines.flatMap (stepAccesses comparison)) := by
  have trace (before : Machine M W) :
      BusTrace before.processor before.memory (stepAccesses comparison before) :=
    stepAccesses_eq_iff.mp rfl
  have far (before : Machine M W) := far_of_trace (trace before)
  have writes (before : Machine M W) := writes_of_trace (trace before)
  constructor
  case in_turn => rfl
  case far => simp only [List.filter_flatMap, far, List.filterMap_eq_flatMap_toList]
  case writes => simp only [List.filter_flatMap, writes, List.filterMap_eq_flatMap_toList]

/-- The accesses of a step, of any number of steps, and of a run that ends. One that goes on for
ever takes any number of steps, and one that is aborted by an overflow has made all accesses of its
last step before. -/
structure BusDetermined (comparison : Comparison) (m : Machine M W) : Prop where
  step (accesses : List BusAccess) :
    stepAccesses comparison m = accesses ↔ BusTrace m.processor m.memory accesses
  steps (count : Nat) : SeenInTurn comparison ((List.range count).map (stepped comparison · m))
    (seen (stepped comparison count m.recorded))
  run : m.processor.state ≠ .halted → Ends (Machine.step comparison) m →
    SeenInTurn comparison (visited comparison m) (seen (after (run comparison) m.recorded))
  halted : m.processor.state = .halted → seen (after (Machine.run comparison) m.recorded) = []

/-- What passes over the bus, whatever the memory does, is what the processor and the bytes that it
gets determine. -/
theorem bus_accesses_determined (comparison : Comparison) (m : Machine M W) :
    BusDetermined comparison m := by
  constructor
  case step => exact fun _ => stepAccesses_eq_iff
  case steps =>
    intro count
    rw [seen_stepped]
    exact seenInTurn comparison _
  case run =>
    intro running ends
    rw [seen_after_run ends running]
    exact seenInTurn comparison _
  case halted =>
    intro halted
    rw [after_eq_of_ok (run_of_halted comparison (m := m.recorded) halted)]
    rfl

/-- A write that the memory refuses passes over the bus too. -/
example :
    let memory : HostMemory := HostMemory.ofSize 3 [0x45, 0, 1]
    let m : Machine HostMemory Sink := { memory, output := {}, diagnostics := {} }
    stepAccesses .contents m =
      [.read 0 (some 0x45), .read 1 (some 0), .read 2 (some 1), .write 0xF3 0] := by decide +kernel

end Runs

end Machine

end ByteMachine
