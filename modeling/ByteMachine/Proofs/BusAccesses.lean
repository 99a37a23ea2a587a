import ByteMachine.Proofs.Instruction
import ByteMachine.Proofs.Transparent

/-!
# The bus accesses of a step

The accesses that a step makes are those that a recording memory notes when it makes the same step.
Recording is transparent: the step goes on as without it. Main statement: only a push stores
anything, once and below the stack pointer, and no other cell changes.
-/

namespace ByteMachine

def BusAccess.address : BusAccess → Nat
  | read address _ => address
  | write address _ => address

namespace Recorded

variable {M W : Type}

def note (bus : Recorded M) (access : BusAccess) : Recorded M :=
  { bus with accesses := bus.accesses.push access }

/-- The writes that have passed over the bus. -/
def stores (bus : Recorded M) : List BusAccess := bus.accesses.toList.filter BusAccess.isWrite

end Recorded

namespace Machine

variable {M W α : Type}

/-- The same machine on a memory that records from now on. -/
def recorded (m : Machine M W) : Machine (Recorded M) W :=
  { processor := m.processor
    memory := { memory := m.memory }
    output := m.output
    diagnostics := m.diagnostics
    log := m.log }

/-- What the bus sees of a step, in order. -/
def stepAccesses [Memory M] [Writer W] (comparison : Comparison) (m : Machine M W) :
    List BusAccess :=
  (after (step comparison) m.recorded).memory.accesses.toList

/-- The first machine is the second, with a memory that records. -/
def Mirrors (m : Machine (Recorded M) W) (n : Machine M W) : Prop :=
  m.processor = n.processor ∧ m.memory.memory = n.memory ∧ m.output = n.output

namespace Mirrors

variable [Memory M]

theorem alike_read (address : Nat) :
    Alike (Mirrors (M := M) (W := W)) unparted (read address) (read address) :=
  Transparent.recorded.alike_read address

variable [Writer W]

theorem simulation : Simulation (Mirrors (M := M) (W := W)) unparted :=
  Transparent.recorded.simulation

end Mirrors

theorem matched_step_recorded [Memory M] [Writer W] (comparison : Comparison) (m : Machine M W) :
    Matched Mirrors unparted (step comparison m.recorded) (step comparison m) :=
  Mirrors.simulation.step comparison ⟨rfl, rfl, rfl⟩ (Mirrors.alike_read _)

section Stores

/-- What the bus has stored, and the memory behind it. -/
def stored (m : Machine (Recorded M) W) : List BusAccess × M := (m.memory.stores, m.memory.memory)

variable [Memory M] [PlainMemory M]

theorem read_recorded (address : Nat) (m : Machine (Recorded M) W) :
    read address m = settle (PlainMemory.get m.memory.memory address)
      { m with memory :=
          m.memory.note (.read address (PlainMemory.get m.memory.memory address).toOption) } := by
  simp only [read, Memory.read, Access.within, PlainMemory.read_eq, Array.appendList_nil,
    Recorded.note]

theorem write_recorded (address : Nat) (value : UInt8) (m : Machine (Recorded M) W) :
    write address value m =
      match PlainMemory.set m.memory.memory address value with
      | .ok memory =>
        .ok () { m with memory := { m.memory.note (.write address value) with memory } }
      | .error fault =>
        .error fault { m with memory := m.memory.note (.write address value) } := by
  simp only [write, Memory.write, Access.within, PlainMemory.write_eq]
  cases PlainMemory.set m.memory.memory address value with
  | ok memory => simp only [settle, Array.appendList_nil, Recorded.note]
  | error fault => simp only [settle, Array.appendList_nil, Recorded.note]

theorem keeps_stored_read (address : Nat) : Keeps (stored (M := M) (W := W)) (read address) := by
  intro m
  rw [after, read_recorded, ← after, (Keeps.settle _ : Keeps (stored (M := M) (W := W)) _)]
  simp [stored, Recorded.stores, Recorded.note, BusAccess.isWrite]

theorem stored_after_write (address : Nat) (value : UInt8) (m : Machine (Recorded M) W) :
    ∃ memory, stored (after (write address value) m) =
        (m.memory.stores ++ [.write address value], memory) ∧
      (memory = m.memory.memory ∨ PlainMemory.set m.memory.memory address value = .ok memory) := by
  have noted : (m.memory.note (.write address value)).stores =
      m.memory.stores ++ [.write address value] := by
    simp [Recorded.stores, Recorded.note, BusAccess.isWrite]
  rw [after, write_recorded]
  cases written : PlainMemory.set m.memory.memory address value with
  | ok memory => exact ⟨memory, Prod.ext noted rfl, .inr rfl⟩
  | error fault => exact ⟨m.memory.memory, Prod.ext noted rfl, .inl rfl⟩

variable [Writer W]

/-- Nothing more is stored, or one byte, which the memory may still refuse. -/
def StoresAtMost (push : Prop) (address : Nat) (before left : List BusAccess × M) : Prop :=
  left = before ∨ push ∧ ∃ value memory, left = (before.1 ++ [.write address value], memory) ∧
    (memory = before.2 ∨ PlainMemory.set before.2 address value = .ok memory)

theorem stored_after_perform (comparison : Comparison) (opcode : Opcode) (a b : UInt8)
    (m : Machine (Recorded M) W) :
    StoresAtMost (opcode = .push) (m.processor.stackPointer - 1).toNat (stored m)
      (stored (after (perform comparison opcode a b) m)) := by
  by_cases pushes : opcode = .push
  · subst pushes
    cases named : Registers.index a with
    | ok r =>
      rw [after, perform_push named, ← after]
      obtain ⟨memory, same, left⟩ := stored_after_write (m.processor.stackPointer - 1).toNat
        (m.processor.registers.get r) { m with processor := m.processor.lowered }
      exact .inr ⟨rfl, _, memory, same, left⟩
    | error fault =>
      rw [after_eq_of_error (perform_unnamed named (by simp) m)]
      exact .inl rfl
  · apply Or.inl
    apply Keeps.perform comparison opcode a b (fun _ _ _ _ _ => rfl) keeps_stored_read
    · intro isPush
      exact absurd isPush pushes
    · intro _ text
      exact Keeps.print fun _ _ => rfl

theorem fetched_of_recorded {m : Machine M W} {fetched : Fetched} {between : Machine (Recorded M) W}
    (fetching : fetch { m.recorded with processor.state := .running } = .ok fetched between) :
    fetched? m.processor m.memory = .ok fetched ∧
      between.processor = { m.processor with state := .running } := by
  have mirrored : Mirrors { m.recorded with processor.state := .running }
      { m with processor.state := .running } := ⟨rfl, rfl, rfl⟩
  have matched := Mirrors.simulation.fetch mirrored (Mirrors.alike_read _)
  rw [fetching] at matched
  obtain ⟨n, fetching', mirrors⟩ := matched.of_ok
  rw [fetch_plain] at fetching'
  obtain ⟨fetches, rfl⟩ := settle_eq_ok fetching'
  exact ⟨fetches, mirrors.1⟩

/-- A step that fetches a push. -/
def Pushes (m : Machine M W) : Prop :=
  ∃ fetched, fetched? m.processor m.memory = .ok fetched ∧ fetched.opcode = Opcode.push.byte

theorem stored_after_step (comparison : Comparison) (m : Machine M W) :
    StoresAtMost m.Pushes (m.processor.stackPointer - 1).toNat ([], m.memory)
      ((stepAccesses comparison m).filter BusAccess.isWrite,
        (after (step comparison) m).memory) := by
  have same : stored (after (step comparison) m.recorded) =
      ((stepAccesses comparison m).filter BusAccess.isWrite, (after (step comparison) m).memory) :=
    Prod.ext rfl (matched_step_recorded comparison m).after.2.1
  rw [← same]
  refine rel_after_step (v := stored) (m := m.recorded)
    (P := StoresAtMost m.Pushes (m.processor.stackPointer - 1).toNat) (fun _ => .inl rfl)
    (fun memories _ => by rw [stored, stored, memories]) (Keeps.fetch keeps_stored_read) ?_
  intro fetched between opcode fetching decoded log
  obtain ⟨fetches, sameProcessor⟩ := fetched_of_recorded fetching
  have top : between.processor.stackPointer = m.processor.stackPointer := by
    rw [sameProcessor]
    rfl
  have performed : StoresAtMost (opcode = .push) (m.processor.stackPointer - 1).toNat
      (stored between)
      (stored (after (perform comparison opcode fetched.a fetched.b) { between with log })) := by
    rw [← top]
    exact stored_after_perform comparison opcode fetched.a fetched.b { between with log }
  rcases performed with kept | ⟨rfl, value, memory, left, outcome⟩
  · exact .inl kept
  · exact .inr ⟨⟨fetched, fetches, (Opcode.ofByte?_eq_some_iff.mp decoded).symm⟩, value, memory,
      left, outcome⟩

/-- A step changes the memory by what it is seen to store, if at all. -/
theorem memory_after_step (comparison : Comparison) (m : Machine M W) :
    (after (step comparison) m).memory = m.memory ∨
      ∃ value, .write (m.processor.stackPointer - 1).toNat value ∈ stepAccesses comparison m ∧
        PlainMemory.set m.memory (m.processor.stackPointer - 1).toNat value =
          .ok (after (step comparison) m).memory := by
  rcases stored_after_step comparison m with kept | ⟨-, value, memory, left, outcome⟩
  · exact .inl (congrArg Prod.snd kept)
  · obtain ⟨stores, rfl⟩ := Prod.mk.inj left
    refine outcome.imp id fun set => ⟨value, ?_, set⟩
    have kept : .write (m.processor.stackPointer - 1).toNat value ∈
        (stepAccesses comparison m).filter BusAccess.isWrite := stores ▸ List.mem_singleton_self _
    exact (List.mem_filter.mp kept).1

/-- Only a push stores, below the stack pointer. -/
theorem pushes_of_store {comparison : Comparison} {m : Machine M W} {access : BusAccess}
    (made : access ∈ stepAccesses comparison m) (store : access.isWrite = true) :
    m.Pushes ∧ access.address = (m.processor.stackPointer - 1).toNat := by
  have kept : access ∈ (stepAccesses comparison m).filter BusAccess.isWrite :=
    List.mem_filter.mpr ⟨made, store⟩
  rcases stored_after_step comparison m with none | ⟨pushes, value, memory, left, -⟩
  · simp [(Prod.mk.inj none).1] at kept
  · rw [(Prod.mk.inj left).1] at kept
    rw [List.mem_singleton.mp kept]
    exact ⟨pushes, rfl⟩

end Stores

end Machine

end ByteMachine
