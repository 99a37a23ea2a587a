import ByteMachine.Proofs.Output

/-!
# What a sink takes

A sink takes a part of what is written to it: all of it, as long as there is room. Main statement:
writes one after the other are as one write, so a sink that could not take all of something takes
nothing more.
-/

namespace ByteMachine

namespace Sink

/-- All of the bytes still fit. -/
def Takes (sink : Sink) (bytes : List UInt8) : Prop := sink.fitting bytes = bytes

variable {sink : Sink} {first rest bytes : List UInt8}

theorem size_accept (sink : Sink) (bytes : List UInt8) :
    (sink.accept bytes).accepted.size = sink.accepted.size + (sink.fitting bytes).length := by
  rw [← Array.length_toList, accepted_accept, List.length_append, Array.length_toList]

theorem fitting_append (sink : Sink) (first rest : List UInt8) :
    sink.fitting (first ++ rest) = sink.fitting first ++ (sink.accept first).fitting rest := by
  have size := size_accept sink first
  rcases sink with ⟨accepted, _ | capacity, whenFull, failingFlushes, flushes⟩
  case none => rfl
  case some =>
    simp only [fitting] at size ⊢
    rw [List.length_take] at size
    change (first ++ rest).take _ = _ ++ rest.take (capacity - _)
    rw [List.take_append, size]
    congr 2
    omega

theorem accept_append (sink : Sink) (first rest : List UInt8) :
    sink.accept (first ++ rest) = (sink.accept first).accept rest := by
  have same : (sink.accept (first ++ rest)).accepted =
      ((sink.accept first).accept rest).accepted := by
    rw [← Array.toList_inj, accepted_accept, accepted_accept, accepted_accept, fitting_append,
      List.append_assoc]
  exact congrArg (fun accepted => { sink with accepted }) same

theorem length_fitting_le (sink : Sink) (bytes : List UInt8) :
    (sink.fitting bytes).length ≤ bytes.length := by
  unfold fitting
  split
  · exact Nat.le_refl _
  · rw [List.length_take]
    omega

theorem takes_iff : sink.Takes bytes ↔ (sink.fitting bytes).length = bytes.length := by
  constructor
  · exact congrArg List.length
  · unfold Takes fitting
    split
    · exact fun _ => rfl
    · rw [List.length_take]
      intro same
      exact List.take_of_length_le (by omega)

theorem takes_nil : sink.Takes [] := by
  unfold Takes fitting
  split
  · rfl
  · exact List.take_nil

theorem takes_append_iff :
    sink.Takes (first ++ rest) ↔ sink.Takes first ∧ (sink.accept first).Takes rest := by
  have most := length_fitting_le sink first
  have most' := length_fitting_le (sink.accept first) rest
  rw [takes_iff, takes_iff, takes_iff, fitting_append, List.length_append, List.length_append]
  omega

/-- A sink that could not take all of something takes nothing more. -/
theorem fitting_of_cut (cut : ¬sink.Takes first) (rest : List UInt8) :
    (sink.accept first).fitting rest = [] := by
  have size := size_accept sink first
  rw [takes_iff] at cut
  rcases sink with ⟨accepted, _ | capacity, whenFull, failingFlushes, flushes⟩
  case none => exact absurd rfl cut
  case some =>
    simp only [fitting] at size cut
    rw [List.length_take] at size cut
    change rest.take (capacity - _) = []
    rw [size, List.take_eq_nil_iff]
    omega

theorem accept_append_of_cut (cut : ¬sink.Takes first) (rest : List UInt8) :
    sink.accept (first ++ rest) = sink.accept first := by
  rw [accept_append, accept, fitting_of_cut cut, Array.appendList_nil]

theorem write_of_takes (takes : sink.Takes bytes) :
    sink.write bytes = (.ok (), sink.accept bytes) := by
  rw [write, if_pos (takes_iff.mp takes)]

theorem write_of_cut (cut : ¬sink.Takes bytes) :
    sink.write bytes = (.error sink.whenFull, sink.accept bytes) := by
  rw [write, if_neg (mt takes_iff.mpr cut)]

theorem fitting_of_empty (empty : sink.accepted = #[]) {limit : Nat}
    (limited : sink.capacity = some limit) (bytes : List UInt8) :
    sink.fitting bytes = bytes.take limit := by
  rw [fitting, limited, empty]
  rfl

theorem takes_iff_of_empty (empty : sink.accepted = #[]) :
    sink.Takes bytes ↔ ∀ limit, sink.capacity = some limit → bytes.length ≤ limit := by
  cases limited : sink.capacity with
  | none => simp [Takes, fitting, limited]
  | some limit =>
    rw [takes_iff, fitting_of_empty empty limited, List.length_take]
    simp only [Option.some.injEq, forall_eq']
    omega

end Sink

end ByteMachine
