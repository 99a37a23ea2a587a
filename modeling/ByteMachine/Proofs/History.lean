import ByteMachine.Machine.Operation
import ByteMachine.Proofs.Confinement

/-!
# Histories

What a processor goes through when hosts call it again and again, each time on a memory and on
channels of their choice. A history keeps the steps attempted since the last power-on or reset,
those within runs included. It goes on as long as what the hosts call comes to an end. Main
statement: what holds of a new processor, is preserved by every step and kept by every other
operation, holds of all histories.
-/

namespace ByteMachine

open Machine

/-- A step that has been attempted. -/
structure Attempt where
  fetched : Except Fault Fetched
  /-- What the registers held before. -/
  registers : Registers
  outcome : Except Fault Executed

section Attempts

variable {M W : Type} [Memory M] [Writer W]

/-- The step that a machine is about to attempt. -/
def Machine.attempted (comparison : Comparison) (m : Machine M W) : Attempt where
  fetched := outcome fetch m
  registers := m.processor.registers
  outcome := outcome (step comparison) m

/-- The steps that an operation attempts, in order. -/
def Operation.attempts (comparison : Comparison) (m : Machine M W) : Operation → List Attempt
  | .step => [m.attempted comparison]
  | .run =>
    if m.processor.state = .halted then []
    else (course (Machine.step comparison) m).map (attempted comparison)
  | _ => []

/-- The operation comes to an end, with an answer or a fault. Only steps and runs move the program
counter on. -/
def Operation.Completes (overflow : Overflow) (comparison : Comparison) (m : Machine M W) :
    Operation → Prop
  | .step => m.Completes overflow comparison
  | .run => m.RunCompletes overflow comparison
  | _ => True

variable {overflow : Overflow} {comparison : Comparison} {m : Machine M W}

/-- All that is asked of a confined machine comes to an end. -/
theorem Operation.completes_of_confined (confined : m.Confined) (op : Operation) :
    op.Completes overflow comparison m := by
  cases op with
  | step => exact confined.completes overflow comparison
  | run => exact confined.runCompletes overflow comparison
  | _ => exact trivial

end Attempts

/-- What can happen to a processor. -/
inductive Event : Type 1 where
  /-- A new one takes its place. -/
  | replacement
  | operation {M W : Type} [Memory M] [Writer W] (op : Operation) (memory : M)
      (output diagnostics : W) (log : Array Log.Entry)

/-- The event happens on a memory that confines the machine. -/
def Event.Confined : Event → Prop
  | .replacement => True
  | @Event.operation M W _ _ _ memory output diagnostics log =>
    ({ memory, output, diagnostics, log } : Machine M W).Confined

structure History where
  /-- The steps attempted since the last power-on or reset. -/
  attempts : List Attempt := []
  processor : Processor := .powerOn

namespace History

def extend (comparison : Comparison) (past : History) : Event → History
  | .replacement => {}
  | @Event.operation M W _ _ op memory output diagnostics log =>
    let m : Machine M W := { processor := past.processor, memory, output, diagnostics, log }
    { attempts := if op = .reset then [] else past.attempts ++ op.attempts comparison m
      processor := (after (op.carryOut comparison) m).processor }

/-- An event comes to an end, on the processor of this history. -/
def EventCompletes (overflow : Overflow) (comparison : Comparison) (past : History) : Event → Prop
  | .replacement => True
  | @Event.operation M W _ _ op memory output diagnostics log =>
    let m : Machine M W := { processor := past.processor, memory, output, diagnostics, log }
    op.Completes overflow comparison m

/-- Each of the events comes to an end, after those before it. -/
def CompletesFrom (overflow : Overflow) (comparison : Comparison) : History → List Event → Prop
  | _, [] => True
  | past, event :: rest =>
    past.EventCompletes overflow comparison event ∧
      CompletesFrom overflow comparison (past.extend comparison event) rest

/-- The history of a processor to which the events happen one after the other. -/
def ofEvents (comparison : Comparison) (events : List Event) : History :=
  events.foldl (extend comparison) {}

/-- All the events that happen to a new processor come to an end. -/
def Completes (overflow : Overflow) (comparison : Comparison) (events : List Event) : Prop :=
  CompletesFrom overflow comparison {} events

theorem CompletesFrom.concat {overflow : Overflow} {comparison : Comparison} {past : History}
    {events : List Event} {event : Event}
    (completes : CompletesFrom overflow comparison past events)
    (last : (events.foldl (extend comparison) past).EventCompletes overflow comparison event) :
    CompletesFrom overflow comparison past (events ++ [event]) := by
  induction events generalizing past with
  | nil => exact ⟨last, trivial⟩
  | cons first rest inductionHypothesis =>
    exact ⟨completes.1, inductionHypothesis completes.2 last⟩

theorem completes_of_confined {overflow : Overflow} {comparison : Comparison} {events : List Event}
    (confined : ∀ event ∈ events, event.Confined) : Completes overflow comparison events := by
  have onwards (past : History) : CompletesFrom overflow comparison past events := by
    induction events generalizing past with
    | nil => trivial
    | cons event rest inductionHypothesis =>
      obtain ⟨first, later⟩ := List.forall_mem_cons.mp confined
      refine ⟨?_, inductionHypothesis later _⟩
      cases event with
      | replacement => trivial
      | operation op memory output diagnostics log =>
        -- Whether a machine is confined does not depend on its processor.
        have here : ({ processor := past.processor, memory, output, diagnostics, log } :
            Machine _ _).Confined := first
        exact op.completes_of_confined here
  exact onwards {}

end History

namespace Machine

variable {M W : Type} [Memory M] [Writer W] {comparison : Comparison}

/-- A run attempts the steps that a host could ask for one by one, and at least the first. -/
theorem exists_attempts_eq {m : Machine M W} (ends : Ends (step comparison) m)
    (running : m.processor.state ≠ .halted) :
    ∃ count, 0 < count ∧
      Operation.run.attempts comparison m =
        (List.range count).map (fun earlier =>
          (stepped comparison earlier m).attempted comparison) ∧
      Coincide (after (run comparison) m) (stepped comparison count m) := by
  have machines : course (step comparison) m = _ := visited_eq_stepped ends
  refine ⟨(visited comparison m).length, length_visited_pos ends, ?_, ?_⟩
  · rw [Operation.attempts, if_neg running, machines, List.map_map]
    rfl
  · -- A run records its start before the first step, so it ends as the steps do up to that.
    rw [← after_untilHalted_eq_stepped ends]
    exact (sameEnd_run ends running).after

theorem attempts_of_other (comparison : Comparison) {op : Operation}
    (other : op ∉ [.step, .run, .reset]) (m : Machine M W) : op.attempts comparison m = [] := by
  cases op with
  | step => simp at other
  | run => simp at other
  | _ => rfl

end Machine

/-- A property of the attempts so far and of the processor that every step preserves, and that does
not see what the other operations change. -/
structure Preserved (comparison : Comparison) (P : List Attempt → Processor → Prop) : Prop where
  step {M W : Type} [Memory M] [Writer W] {past : List Attempt} (m : Machine M W) :
    P past m.processor →
    P (past ++ [m.attempted comparison]) (after (Machine.step comparison) m).processor
  other {M W : Type} [Memory M] [Writer W] {past : List Attempt} {op : Operation}
    (m : Machine M W) :
    op ∉ [.step, .run, .reset] → P past m.processor →
      P past (after (op.carryOut comparison) m).processor

namespace Preserved

variable {comparison : Comparison} {P : List Attempt → Processor → Prop} {M W : Type}
  [Memory M] [Writer W] {past : List Attempt} {m : Machine M W}

theorem steps (preserved : Preserved comparison P) (held : P past m.processor) (count : Nat) :
    P (past ++ (List.range count).map fun earlier =>
        (stepped comparison earlier m).attempted comparison)
      (stepped comparison count m).processor := by
  induction count with
  | zero =>
    rw [List.range_zero, List.map_nil, List.append_nil]
    exact held
  | succ count inductionHypothesis =>
    rw [List.range_succ, List.map_append, ← List.append_assoc]
    exact preserved.step _ inductionHypothesis

theorem run (preserved : Preserved comparison P) (held : P past m.processor)
    (ends : m.processor.state ≠ .halted → Ends (Machine.step comparison) m) :
    P (past ++ Operation.run.attempts comparison m)
      (after (Machine.run comparison) m).processor := by
  by_cases halted : m.processor.state = .halted
  · rw [after_eq_of_ok (run_of_halted comparison halted), Operation.attempts, if_pos halted,
      List.append_nil]
    exact held
  · obtain ⟨count, -, attempts, final⟩ := exists_attempts_eq (ends halted) halted
    rw [attempts, final.1]
    exact preserved.steps held count

theorem operation (preserved : Preserved comparison P) {op : Operation} (resumes : op ≠ .reset)
    (held : P past m.processor) {overflow : Overflow}
    (completes : op.Completes overflow comparison m) :
    P (past ++ op.attempts comparison m) (after (op.carryOut comparison) m).processor := by
  by_cases other : op ∉ [.step, .run, .reset]
  · rw [attempts_of_other comparison other, List.append_nil]
    exact preserved.other m other held
  · simp only [List.mem_cons, List.not_mem_nil, or_false, Classical.not_not] at other
    rcases other with rfl | rfl | rfl
    · rw [Operation.carryOut, map_eq_pure_bind, after_answer]
      exact preserved.step m held
    · rw [Operation.carryOut, after_answer _ fun _ => .done]
      exact preserved.run held completes.1
    · exact absurd rfl resumes

theorem extend (preserved : Preserved comparison P) (powerOn : P [] .powerOn) {past : History}
    (held : P past.attempts past.processor) {event : Event} {overflow : Overflow}
    (completes : past.EventCompletes overflow comparison event) :
    P (past.extend comparison event).attempts (past.extend comparison event).processor := by
  cases event with
  | replacement => exact powerOn
  | operation op memory output diagnostics log =>
    unfold History.extend
    by_cases resets : op = .reset
    · subst resets
      exact powerOn
    · simp only [resets, if_false]
      exact preserved.operation resets held completes

theorem extendAll (preserved : Preserved comparison P) (powerOn : P [] .powerOn) {past : History}
    (held : P past.attempts past.processor) {events : List Event} {overflow : Overflow}
    (completes : History.CompletesFrom overflow comparison past events) :
    P (events.foldl (History.extend comparison) past).attempts
      (events.foldl (History.extend comparison) past).processor := by
  induction events generalizing past with
  | nil => exact held
  | cons event rest inductionHypothesis =>
    exact inductionHypothesis (preserved.extend powerOn held completes.1) completes.2

/-- What holds of a new processor and is preserved holds of all histories. -/
theorem ofEvents (preserved : Preserved comparison P) (powerOn : P [] .powerOn)
    {events : List Event} {overflow : Overflow}
    (completes : History.Completes overflow comparison events) :
    P (History.ofEvents comparison events).attempts
      (History.ofEvents comparison events).processor :=
  preserved.extendAll powerOn powerOn completes

end Preserved

end ByteMachine
