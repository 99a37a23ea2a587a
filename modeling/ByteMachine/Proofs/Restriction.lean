import ByteMachine.Proofs.BusAccesses

/-!
# Restricting the memory

A host may supply a memory of any size and close addresses of it. A machine on such a memory goes on
as on its own, as long as the host refuses none of its accesses and the program counter stays where
both have cells. Main statement: restricting the memory is conservative.
-/

namespace ByteMachine

namespace HostMemory

variable {memory stored : HostMemory} {address : Nat} {value : UInt8}

/-- There is no such cell, or it is closed to such an access. -/
def Refuses (memory : HostMemory) : BusAccess → Prop
  | .read address _ => memory.size ≤ address ∨ memory.bank.refusesRead address = true
  | .write address _ => memory.size ≤ address ∨ memory.bank.refusesWrite address = true

theorem get_of_refused {got : Option UInt8} (refused : memory.Refuses (.read address got)) :
    PlainMemory.get memory address = .error (.addressing address) := by
  change (if _ then _ else Bank.get _ _) = _
  by_cases closed : memory.bank.refusesRead address = true
  · rw [if_pos closed]
  · rw [if_neg closed, Bank.get_of_le _ (refused.resolve_right closed)]

theorem get_of_granted {got : Option UInt8} (granted : ¬memory.Refuses (.read address got)) :
    ∃ value, memory.toList[address]? = some value ∧ PlainMemory.get memory address = .ok value := by
  obtain ⟨inside, opened⟩ := not_or.mp granted
  have held := memory.bank.memory.get_of_lt (Nat.not_le.mp inside)
  refine ⟨_, Bank.get_eq_ok_iff.mp held, ?_⟩
  change (if _ then _ else Bank.get _ _) = _
  rw [if_neg opened, held]

theorem set_of_refused (refused : memory.Refuses (.write address value)) :
    PlainMemory.set memory address value = .error (.addressing address) := by
  change (if _ then _ else (Bank.set _ _ _).map _).map _ = _
  by_cases closed : memory.bank.refusesWrite address = true
  · rw [if_pos closed]
    rfl
  · rw [if_neg closed, Bank.set_of_le _ _ (refused.resolve_right closed)]
    rfl

/-- A write that is not refused changes the one cell and no restriction. -/
theorem set_of_granted (granted : ¬memory.Refuses (.write address value)) :
    ∃ stored, PlainMemory.set memory address value = .ok stored ∧ stored.size = memory.size ∧
      stored.Refuses = memory.Refuses ∧ stored.toList = memory.toList.set address value := by
  obtain ⟨inside, opened⟩ := not_or.mp granted
  obtain ⟨bank, written⟩ : ∃ bank, memory.bank.memory.set address value = .ok bank :=
    ⟨_, memory.bank.memory.set_of_lt value (Nat.not_le.mp inside)⟩
  refine ⟨⟨memory.size, memory.bank.replace bank⟩, ?_, rfl, rfl, Bank.toList_of_set written⟩
  change (if _ then _ else (Bank.set _ _ _).map _).map _ = _
  rw [if_neg opened, written]
  rfl

theorem set_ok (written : PlainMemory.set memory address value = .ok stored) :
    stored.size = memory.size ∧ stored.Refuses = memory.Refuses ∧
      stored.toList = memory.toList.set address value := by
  by_cases refused : memory.Refuses (.write address value)
  · cases (set_of_refused refused).symm.trans written
  · obtain ⟨stored', written', kept⟩ := set_of_granted refused
    cases written'.symm.trans written
    exact kept

/-- The two memories hold the same bytes in the cells that both have. -/
def SharesCells (memory : HostMemory) (ram : Ram) : Prop :=
  ∀ address < min memory.size memorySize, memory.toList[address]? = ram.toList[address]?

theorem SharesCells.get {ram : Ram} (shared : memory.SharesCells ram) (low : address < memorySize)
    (got : PlainMemory.get memory address = .ok value) :
    PlainMemory.get ram address = .ok value := by
  by_cases refused : memory.Refuses (.read address none)
  · cases (get_of_refused refused).symm.trans got
  · obtain ⟨value', held, got'⟩ := get_of_granted refused
    cases got'.symm.trans got
    have inside := Nat.not_le.mp (not_or.mp refused).1
    rw [shared address (Nat.lt_min.mpr ⟨inside, low⟩)] at held
    exact Bank.get_eq_ok_iff.mpr held

theorem SharesCells.set {ram : Ram} (shared : memory.SharesCells ram) (low : address < memorySize)
    (written : PlainMemory.set memory address value = .ok stored) :
    ∃ ram', PlainMemory.set ram address value = .ok ram' ∧ stored.SharesCells ram' := by
  have written' := ram.set_of_lt value low
  obtain ⟨size, -, cells⟩ := set_ok written
  refine ⟨_, written', ?_⟩
  intro other common
  rw [size] at common
  have inside : other < memory.toList.length := by
    rw [toList, Bank.length_toList]
    exact (Nat.lt_min.mp common).1
  have inside' : other < ram.toList.length := by
    rw [Bank.length_toList]
    exact (Nat.lt_min.mp common).2
  rw [cells, Bank.toList_of_set written', List.getElem?_set, List.getElem?_set,
    shared other common]
  by_cases same : address = other
  · subst same
    rw [if_pos rfl, if_pos rfl, if_pos inside, if_pos inside']
  · rw [if_neg same, if_neg same]

end HostMemory

namespace Machine

section Granted

variable {N W : Type} {closed : HostMemory} {K : HostMemory → N → Prop}

/-- The first machine is the second on a restricted memory, which has refused nothing so far. -/
structure Granted (closed : HostMemory) (K : HostMemory → N → Prop)
    (m : Machine (Recorded HostMemory) W) (n : Machine N W) : Prop where
  processor : m.processor = n.processor
  output : m.output = n.output
  memory : K m.memory.memory n.memory
  refuses : m.memory.memory.Refuses = closed.Refuses
  granted : ∀ access ∈ m.memory.accesses.toList, ¬closed.Refuses access

/-- An access has been refused, and the fault names its address. -/
def Refused (closed : HostMemory) (fault : Fault) (m : Machine (Recorded HostMemory) W) : Prop :=
  (∃ access ∈ m.memory.accesses.toList, closed.Refuses access) ∧
    ∀ access ∈ m.memory.accesses.toList, closed.Refuses access →
      fault = .addressing access.address

theorem Granted.note {m : Machine (Recorded HostMemory) W} {n : Machine N W}
    (related : Granted closed K m n) {access : BusAccess} (granted : ¬closed.Refuses access) :
    ∀ made ∈ (m.memory.note access).accesses.toList, ¬closed.Refuses made := by
  intro made noted
  simp only [Recorded.note, Array.toList_push, List.mem_append, List.mem_singleton] at noted
  rcases noted with earlier | rfl
  · exact related.granted made earlier
  · exact granted

/-- The first refused access is the only one, since it ends the step. -/
theorem Granted.refused {m : Machine (Recorded HostMemory) W} {n : Machine N W}
    (related : Granted closed K m n) {access : BusAccess} (refused : closed.Refuses access) :
    Refused closed (.addressing access.address) { m with memory := m.memory.note access } := by
  simp only [Refused, Recorded.note, Array.toList_push, List.mem_append, List.mem_singleton]
  refine ⟨⟨access, .inr rfl, refused⟩, ?_⟩
  rintro made (earlier | rfl) refused'
  · exact absurd refused' (related.granted made earlier)
  · rfl

variable [Memory N] [PlainMemory N]

theorem Granted.alike_read {address : Nat}
    (reads : ∀ {memory n value}, K memory n → PlainMemory.get memory address = .ok value →
      PlainMemory.get n address = .ok value) :
    Alike (Granted (W := W) closed K) (Refused closed) (read address) (read address) := by
  intro m n related
  rw [read_recorded, read_plain]
  by_cases refused : m.memory.memory.Refuses (.read address none)
  · rw [HostMemory.get_of_refused refused]
    rw [related.refuses] at refused
    exact .parted (related.refused refused)
  · obtain ⟨value, -, got⟩ := HostMemory.get_of_granted refused
    rw [got, reads related.memory got]
    rw [related.refuses] at refused
    have opened : ¬closed.Refuses (.read address (some value)) := refused
    exact .ok { related with granted := related.note opened }

theorem Granted.alike_write {address : Nat} {value : UInt8}
    (writes : ∀ {memory stored n}, K memory n →
      PlainMemory.set memory address value = .ok stored →
        ∃ n', PlainMemory.set n address value = .ok n' ∧ K stored n') :
    Alike (Granted (W := W) closed K) (Refused closed) (write address value)
      (write address value) := by
  intro m n related
  rw [write_recorded, write_plain]
  by_cases refused : m.memory.memory.Refuses (.write address value)
  · rw [HostMemory.set_of_refused refused]
    exact .parted (related.refused (related.refuses ▸ refused))
  · obtain ⟨stored, written, -, refuses, -⟩ := HostMemory.set_of_granted refused
    obtain ⟨n', written', kept⟩ := writes related.memory written
    rw [written, written']
    rw [related.refuses] at refused
    exact .ok { related with
      memory := kept
      refuses := refuses.trans related.refuses
      granted := related.note refused }

variable [Writer W]

theorem Granted.simulation
    (reads : ∀ {memory n address value}, K memory n → address < memorySize →
      PlainMemory.get memory address = .ok value → PlainMemory.get n address = .ok value)
    (writes : ∀ {memory stored n address value}, K memory n → address < memorySize →
      PlainMemory.set memory address value = .ok stored →
        ∃ n', PlainMemory.set n address value = .ok n' ∧ K stored n') :
    Simulation (Granted (W := W) closed K) (Refused closed) where
  agree related := related.processor ▸ ⟨rfl, rfl, rfl⟩
  update {_ _ f} _ related := { related with processor := congrArg f related.processor }
  log _ _ related := { related with }
  read low := Granted.alike_read fun shared => reads shared low
  write _ low := Granted.alike_write fun shared => writes shared low
  print := Alike.print (·.output) fun _ related => { related with output := rfl }
  parted_faulted _ refused := refused

end Granted

variable {W : Type} [Writer W] {comparison : Comparison}

/-- A refused access ends the step with the fault that names its address. -/
theorem outcome_of_refused {m : Machine HostMemory W} {access : BusAccess}
    (made : access ∈ stepAccesses comparison m) (refused : m.memory.Refuses access) :
    outcome (step comparison) m = .error (.addressing access.address) := by
  have related : Granted m.memory Eq m.recorded m := ⟨rfl, rfl, rfl, rfl, by simp [recorded]⟩
  have sim : Simulation (Granted (W := W) m.memory Eq) (Refused m.memory) :=
    Granted.simulation (fun same _ got => same ▸ got) fun same _ written => ⟨_, same ▸ written, rfl⟩
  have matched := sim.step comparison related (Granted.alike_read fun same got => same ▸ got)
  rw [stepAccesses] at made
  rw [← (matched_step_recorded comparison m).outcome_eq]
  rcases matched.inv with ⟨_, left, _, ended, -, related'⟩ | ⟨_, left, _, ended, -, related'⟩ |
    ⟨_, left, ended, -, named⟩
  · rw [after_eq_of_ok ended] at made
    exact absurd refused (related'.granted access made)
  · rw [after_eq_of_error ended] at made
    exact absurd refused (related'.granted access made)
  · rw [after_eq_of_error ended] at made
    rw [outcome_eq_of_error ended, named access made refused]

/-- A machine on a host memory and one on its own memory that do the same. -/
structure InStep {W : Type} (m : Machine HostMemory W) (n : Machine Ram W) : Prop where
  processor : m.processor = n.processor
  output : m.output = n.output
  cells : m.memory.SharesCells n.memory

theorem InStep.after_step {m : Machine HostMemory W} {n : Machine Ram W} (same : InStep m n)
    (low : m.processor.pc < memorySize)
    (granted : ∀ access ∈ stepAccesses comparison m, ¬m.memory.Refuses access) :
    outcome (step comparison) m = outcome (step comparison) n ∧
      InStep (after (step comparison) m) (after (step comparison) n) := by
  have related : Granted m.memory HostMemory.SharesCells m.recorded n :=
    ⟨same.processor, same.output, same.cells, rfl, by simp [recorded]⟩
  have sim : Simulation (Granted (W := W) m.memory HostMemory.SharesCells) (Refused m.memory) :=
    Granted.simulation HostMemory.SharesCells.get HostMemory.SharesCells.set
  have matched := sim.step comparison related (sim.read low)
  have mirrored := matched_step_recorded comparison m
  have unparted : Matched (Granted m.memory HostMemory.SharesCells) unparted
      (step comparison m.recorded) (step comparison n) := by
    rcases matched.inv with ⟨_, _, _, ended, ended', related'⟩ |
      ⟨_, _, _, ended, ended', related'⟩ | ⟨_, left, ended, ⟨access, made, refused⟩, -⟩
    · rw [ended, ended']
      exact .ok related'
    · rw [ended, ended']
      exact .error related'
    · apply absurd refused
      apply granted
      rwa [stepAccesses, after_eq_of_error ended]
  obtain ⟨processor, memory, output⟩ := mirrored.after
  refine ⟨mirrored.outcome_eq.symm.trans unparted.outcome_eq, ?_, ?_, ?_⟩
  · rw [← processor, unparted.after.processor]
  · rw [← output, unparted.after.output]
  · rw [← memory]
    exact unparted.after.memory

/-- A step leaves the restrictions of a host memory as they are, and its cells past the top of the
machine's own memory. -/
theorem host_memory_after_step (comparison : Comparison) (m : Machine HostMemory W) :
    (after (step comparison) m).memory.Refuses = m.memory.Refuses ∧
      ∀ address ≥ memorySize,
        (after (step comparison) m).memory.toList[address]? = m.memory.toList[address]? := by
  rcases memory_after_step comparison m with kept | ⟨value, -, written⟩
  · rw [kept]
    exact ⟨rfl, fun _ _ => rfl⟩
  · obtain ⟨-, refuses, cells⟩ := HostMemory.set_ok written
    constructor
    · exact refuses
    · intro address high
      have low : (m.processor.stackPointer - 1).toNat < memorySize := UInt8.toNat_lt _
      rw [cells, List.getElem?_set_ne (by omega)]

theorem host_memory_stepped (comparison : Comparison) (count : Nat) (m : Machine HostMemory W) :
    (stepped comparison count m).memory.Refuses = m.memory.Refuses ∧
      ∀ address ≥ memorySize,
        (stepped comparison count m).memory.toList[address]? = m.memory.toList[address]? := by
  induction count with
  | zero => exact ⟨rfl, fun _ _ => rfl⟩
  | succ count inductionHypothesis =>
    obtain ⟨refuses, cells⟩ := host_memory_after_step comparison (stepped comparison count m)
    constructor
    · exact refuses.trans inductionHypothesis.1
    · intro address high
      exact (cells address high).trans (inductionHypothesis.2 address high)

/-- The next step starts where both memories have cells, and the host refuses none of its
accesses. -/
def Undisturbed (comparison : Comparison) (host : HostMemory) (m : Machine HostMemory W) : Prop :=
  m.processor.pc < memorySize ∧ ∀ access ∈ stepAccesses comparison m, ¬host.Refuses access

/-- What the restrictions of a host memory can do to a machine: end a step with a fault. -/
structure Conservative (comparison : Comparison) (m : Machine HostMemory W) (n : Machine Ram W) :
    Prop where
  in_step (count : Nat) :
    (∀ earlier < count, Undisturbed comparison m.memory (stepped comparison earlier m)) →
      InStep (stepped comparison count m) (stepped comparison count n) ∧
        ∀ earlier < count, outcome (step comparison) (stepped comparison earlier m) =
          outcome (step comparison) (stepped comparison earlier n)
  refused (count : Nat) (access : BusAccess) :
    access ∈ stepAccesses comparison (stepped comparison count m) → m.memory.Refuses access →
      outcome (step comparison) (stepped comparison count m) = .error (.addressing access.address)
  /-- Cells past the top of the machine's own memory never change. -/
  high_cells (count : Nat) : ∀ address ≥ memorySize,
    (stepped comparison count m).memory.toList[address]? = m.memory.toList[address]?

theorem InStep.after_steps {m : Machine HostMemory W} {n : Machine Ram W} (start : InStep m n)
    {count : Nat}
    (undisturbed : ∀ earlier < count,
      Undisturbed comparison m.memory (stepped comparison earlier m)) :
    InStep (stepped comparison count m) (stepped comparison count n) := by
  induction count with
  | zero => exact start
  | succ count inductionHypothesis =>
    have same := inductionHypothesis fun earlier before => undisturbed earlier (by omega)
    obtain ⟨low, granted⟩ := undisturbed count (Nat.lt_succ_self count)
    rw [← (host_memory_stepped comparison count m).1] at granted
    exact (same.after_step low granted).2

/-- From machines in step, whatever the size of the host memory and the addresses it closes. -/
theorem restriction_conservative (comparison : Comparison) {m : Machine HostMemory W}
    {n : Machine Ram W} (start : InStep m n) : Conservative comparison m n := by
  constructor
  case in_step =>
    intro count undisturbed
    constructor
    · exact start.after_steps undisturbed
    · intro earlier before
      have same : InStep (stepped comparison earlier m) (stepped comparison earlier n) := by
        apply start.after_steps
        intro first before'
        exact undisturbed first (Nat.lt_trans before' before)
      obtain ⟨low, granted⟩ := undisturbed earlier before
      rw [← (host_memory_stepped comparison earlier m).1] at granted
      exact (same.after_step low granted).1
  case refused =>
    intro count access made refused
    rw [← (host_memory_stepped comparison count m).1] at refused
    exact outcome_of_refused made refused
  case high_cells =>
    intro count
    exact (host_memory_stepped comparison count m).2

/-- The second instruction does not use the byte after it, but it is fetched, and so refused. -/
theorem restriction_conservative_closed_cell :
    let host := HostMemory.ofSize 6 [0x82, 0, 8, 0x47, 0, 1]
    let closed := host.restrict (· == 5) fun _ => false
    let ram : Ram := Bank.ofImagePrefix [0x82, 0, 8, 0x47, 0, 1]
    let m : Machine HostMemory Sink := { memory := closed, output := {}, diagnostics := {} }
    let n : Machine Ram Sink := { memory := ram, output := {}, diagnostics := {} }
    InStep m n ∧ Conservative .contents m n ∧
      outcome (step .contents) (stepped .contents 1 m) = .error (.addressing 5) := by
  intro host closed ram m n
  have start : InStep m n := by
    refine ⟨rfl, rfl, ?_⟩
    unfold HostMemory.SharesCells
    decide +kernel
  have conservative := restriction_conservative .contents start
  refine ⟨start, conservative, conservative.refused 1 (.read 5 none) ?_ (.inr rfl)⟩
  decide +kernel

end Machine

end ByteMachine
