import ByteMachine.Proofs.Capacity
import ByteMachine.Proofs.Course
import ByteMachine.Proofs.Faults

/-!
# Output without any room

A run whose output refuses every write is compared with one whose output never fails. Main
statements: it faults if the other one completes a print, and otherwise ends as the other one does.
-/

namespace ByteMachine

namespace Sink

/-- Every write of anything fails. -/
def Full (sink : Sink) : Prop := ∀ bytes ≠ [], ∃ cause, (sink.write bytes).1 = .error cause

variable {sink : Sink} {text : String}

theorem Full.print_error (full : sink.Full) (visible : Text.utf8Encode text ≠ []) :
    ∃ cause, (Writer.print sink text).1 = .error cause := by
  obtain ⟨cause, refused⟩ := full (Text.utf8Encode text) visible
  refine ⟨sink.whenFull, ?_⟩
  rw [print_of_full]
  intro fits
  rw [write, if_pos fits] at refused
  cases refused

/-- An empty text leaves the sink full, or fails too. -/
theorem Full.print_cases (full : sink.Full) (text : String) :
    (∃ cause, (Writer.print sink text).1 = .error cause) ∨
      (Writer.print sink text).1 = .ok () ∧ (Writer.print sink text).2.Full := by
  by_cases visible : Text.utf8Encode text = []
  · have fits : sink.fitting (Text.utf8Encode text) = Text.utf8Encode text := by
      rw [visible]
      exact takes_nil
    by_cases fails : sink.flushes ∈ sink.failingFlushes
    · rw [print_of_fitting fits]
      exact .inl ⟨.flush, if_pos fails⟩
    · rw [print_of_passing fits fails, visible, Array.appendList_nil]
      exact .inr ⟨rfl, full⟩
  · exact .inl (full.print_error visible)

end Sink

/-- An output that refuses everything, and one that never fails. -/
def Refuses (full free : Sink) : Prop := full.Full ∧ free.Unfailing

namespace Machine

variable {M : Type} [Memory M] {comparison : Comparison} {m n : Machine M Sink}

omit [Memory M] in
theorem Refuses.alike_print (text : String) :
    Alike (M := M) (Paired Eq Refuses) (fun fault _ => fault.IsOutput) (print text)
      (print text) := by
  intro m n related
  obtain ⟨full, unfailing⟩ := related.output
  obtain ⟨printed, unfailing'⟩ := unfailing.print text
  simp only [print, toOutput, printed]
  rcases full.print_cases text with ⟨cause, refused⟩ | ⟨passed, full'⟩
  · rw [refused]
    exact .parted ⟨cause, rfl⟩
  · rw [passed]
    exact .ok ⟨related.processor, related.memory, full', unfailing'⟩

theorem Refuses.alike_step (comparison : Comparison) :
    Alike (M := M) (Paired Eq Refuses) (fun fault _ => fault.IsOutput) (step comparison)
      (step comparison) :=
  Paired.alike_step Refuses.alike_print (fun _ fails => fails) comparison

variable [PlainMemory M]

end Machine

end ByteMachine
