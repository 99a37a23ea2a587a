import ByteMachine.Memory.Announced
import ByteMachine.Memory.Recorded
import ByteMachine.Proofs.Run

/-!
# Transparent wrappers

A wrapper is transparent if it passes every access on to the memory inside, and the answer back. It
may keep a record of the accesses and tell the log about them. Main statement: a run goes on a
wrapped memory as it goes on the memory inside.
-/

namespace ByteMachine

/-- Accesses to the outer memory are accesses to the one inside. -/
structure Transparent {N M : Type} [Memory N] [Memory M] (inside : N → M) : Prop where
  read_result (outer : N) (address : Nat) :
    (Memory.read outer address).result = (Memory.read (inside outer) address).result
  read_memory (outer : N) (address : Nat) :
    inside (Memory.read outer address).memory = (Memory.read (inside outer) address).memory
  write_result (outer : N) (address : Nat) (value : UInt8) :
    (Memory.write outer address value).result = (Memory.write (inside outer) address value).result
  write_memory (outer : N) (address : Nat) (value : UInt8) :
    inside (Memory.write outer address value).memory =
      (Memory.write (inside outer) address value).memory

namespace Transparent

variable {N M O : Type} [Memory N] [Memory M] [Memory O]

theorem recorded : Transparent (Recorded.memory (M := M)) where
  read_result _ _ := rfl
  read_memory _ _ := rfl
  write_result _ _ _ := rfl
  write_memory _ _ _ := rfl

theorem announced : Transparent (Announced.memory (M := M)) where
  read_result bus address := by
    simp only [Memory.read]
    split <;> rfl
  read_memory bus address := by
    simp only [Memory.read]
    split <;> rfl
  write_result _ _ _ := rfl
  write_memory _ _ _ := rfl

theorem comp {f : N → M} {g : M → O} (outer : Transparent f) (inner : Transparent g) :
    Transparent (g ∘ f) where
  read_result memory address :=
    (outer.read_result memory address).trans (inner.read_result (f memory) address)
  read_memory memory address :=
    (congrArg g (outer.read_memory memory address)).trans (inner.read_memory (f memory) address)
  write_result memory address value :=
    (outer.write_result memory address value).trans (inner.write_result (f memory) address value)
  write_memory memory address value :=
    (congrArg g (outer.write_memory memory address value)).trans
      (inner.write_memory (f memory) address value)

end Transparent

namespace Machine

variable {N M W : Type} {inside : N → M}

/-- The first machine is the second, with its memory wrapped. -/
def Wraps (inside : N → M) (m : Machine N W) (n : Machine M W) : Prop :=
  m.processor = n.processor ∧ inside m.memory = n.memory ∧ m.output = n.output

theorem Wraps.agree {m : Machine N W} {n : Machine M W} (wraps : Wraps inside m n) :
    m.processor.Agree n.processor := wraps.1 ▸ ⟨rfl, rfl, rfl⟩

theorem Wraps.unseen {m m' : Machine N W} {n n' : Machine M W} (first : Coincide m' m)
    (second : Coincide n' n) (wraps : Wraps inside m n) : Wraps inside m' n' := by
  obtain ⟨processors, memories, outputs⟩ := wraps
  refine ⟨?_, ?_, ?_⟩
  · rw [first.1, second.1, processors]
  · rw [first.2.1, second.2.1, memories]
  · rw [first.2.2, second.2.2, outputs]

end Machine

namespace Transparent

open Machine

variable {N M W : Type} [Memory N] [Memory M] {inside : N → M}

theorem alike_read (transparent : Transparent inside) (address : Nat) :
    Alike (Wraps (W := W) inside) unparted (read address) (read address) := by
  rintro ⟨p, outer, output, _, log⟩ ⟨_, _, _, _, log'⟩ ⟨rfl, rfl, rfl⟩
  simp only [Machine.read, transparent.read_result]
  exact Alike.settle _ ⟨rfl, transparent.read_memory outer address, rfl⟩

theorem alike_write (transparent : Transparent inside) (address : Nat) (value : UInt8) :
    Alike (Wraps (W := W) inside) unparted (write address value) (write address value) := by
  rintro ⟨p, outer, output, _, log⟩ ⟨_, _, _, _, log'⟩ ⟨rfl, rfl, rfl⟩
  simp only [write, transparent.write_result]
  exact Alike.settle _ ⟨rfl, transparent.write_memory outer address value, rfl⟩

variable [Writer W]

theorem simulation (transparent : Transparent inside) :
    Simulation (Wraps (W := W) inside) unparted where
  agree := Wraps.agree
  update {_ _ f} _ wraps := ⟨congrArg f wraps.1, wraps.2⟩
  log _ _ wraps := wraps
  read _ := transparent.alike_read _
  write _ _ := transparent.alike_write _ _
  print := Alike.print (·.2.2) fun _ wraps => ⟨wraps.1, wraps.2.1, rfl⟩
  parted_faulted _ never := never.elim

theorem alike_step (transparent : Transparent inside) (comparison : Comparison) :
    Alike (Wraps (W := W) inside) unparted (step comparison) (step comparison) :=
  fun _ _ wraps => transparent.simulation.step comparison wraps (transparent.alike_read _)

theorem ends_iff (transparent : Transparent inside) {comparison : Comparison} {m : Machine N W}
    {n : Machine M W} (wraps : Wraps inside m n) :
    Ends (step comparison) m ↔ Ends (step comparison) n :=
  ends_iff_along Wraps.agree ((transparent.alike_step comparison).along m) wraps

/-- A run does not notice that its memory is wrapped. -/
theorem matched_run (transparent : Transparent inside) {comparison : Comparison} {m : Machine N W}
    {n : Machine M W} (ends : Ends (step comparison) m) (wraps : Wraps inside m n) :
    Matched (Wraps inside) unparted (run comparison m) (run comparison n) := by
  have ends' : Ends (step comparison) n := (transparent.ends_iff wraps).mp ends
  by_cases halted : m.processor.state = .halted
  · rw [run_of_halted comparison halted, run_of_halted comparison (wraps.1 ▸ halted)]
    exact .ok wraps
  · apply Machine.matched_run Wraps.unseen ends ends' halted (wraps.1 ▸ halted)
    exact alike_untilHalted Wraps.agree (transparent.alike_step comparison) ends wraps

end Transparent

end ByteMachine
