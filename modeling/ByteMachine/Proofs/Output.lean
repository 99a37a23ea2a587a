import ByteMachine.Machine.Step

/-!
# What a step does to the output

A step prints one text or leaves the output alone. Printing only appends, and to a sink that never
fails it succeeds.
-/

namespace ByteMachine

namespace Sink

/-- Nothing that is still to come fails. -/
def Unfailing (sink : Sink) : Prop :=
  sink.capacity = none ∧ ∀ flush ∈ sink.failingFlushes, flush < sink.flushes

theorem accepted_accept (sink : Sink) (bytes : List UInt8) :
    (sink.accept bytes).accepted.toList = sink.accepted.toList ++ sink.fitting bytes := by
  simp [accept]

/-- Write a text and flush the sink, unless the write fails. -/
theorem print_eq (sink : Sink) (text : String) :
    Writer.print sink text =
      match sink.write (Text.utf8Encode text) with
      | (.error cause, sink) => (.error cause, sink)
      | (.ok (), sink) => sink.flush := by
  simp only [Writer.print, Writer.write, Writer.flush]
  cases sink.write (Text.utf8Encode text) with
  | mk result sink => cases result <;> rfl

theorem print_of_fitting {sink : Sink} {text : String}
    (fits : sink.fitting (Text.utf8Encode text) = Text.utf8Encode text) :
    Writer.print sink text =
      ({ sink with accepted := sink.accepted ++ Text.utf8Encode text } : Sink).flush := by
  simp only [print_eq, write, accept, fits, if_true]

theorem print_of_passing {sink : Sink} {text : String}
    (fits : sink.fitting (Text.utf8Encode text) = Text.utf8Encode text)
    (passes : sink.flushes ∉ sink.failingFlushes) :
    Writer.print sink text = (.ok (), { sink with
      accepted := sink.accepted ++ Text.utf8Encode text
      flushes := sink.flushes + 1 }) := by
  rw [print_of_fitting fits]
  exact Prod.ext (if_neg passes) rfl

theorem print_of_full {sink : Sink} {text : String}
    (full : (sink.fitting (Text.utf8Encode text)).length ≠ (Text.utf8Encode text).length) :
    Writer.print sink text = (.error sink.whenFull, sink.accept (Text.utf8Encode text)) := by
  simp only [print_eq, write, full, if_false]

theorem Unfailing.print_eq {sink : Sink} (unfailing : sink.Unfailing) (text : String) :
    Writer.print sink text = (.ok (), { sink with
      accepted := sink.accepted ++ Text.utf8Encode text
      flushes := sink.flushes + 1 }) := by
  obtain ⟨unlimited, flushed⟩ := unfailing
  apply print_of_passing
  · rw [fitting, unlimited]
  · exact fun failing => Nat.lt_irrefl _ (flushed _ failing)

theorem Unfailing.accepted_print {sink : Sink} (unfailing : sink.Unfailing) (text : String) :
    (Writer.print sink text).2.accepted.toList = sink.accepted.toList ++ Text.utf8Encode text := by
  rw [unfailing.print_eq]
  exact Array.toList_appendList

theorem Unfailing.print {sink : Sink} (unfailing : sink.Unfailing) (text : String) :
    (Writer.print sink text).1 = .ok () ∧ (Writer.print sink text).2.Unfailing := by
  rw [unfailing.print_eq]
  exact ⟨rfl, unfailing.1, fun flush failing => Nat.lt_succ_of_lt (unfailing.2 flush failing)⟩

end Sink

namespace Machine

variable {M W : Type}

theorem output_after_print [Writer W] (text : String) (m : Machine M W) :
    (after (print text) m).output = (Writer.print m.output text).2 := by
  exact (Keeps.settle _ : Keeps Machine.output _) _

/-- Apart from its marks in state, counter and log, an attempt leaves what it attempts leaves. -/
theorem view_after_attempt {γ : Type} (view : Machine M W → γ)
    (marks : ∀ (m : Machine M W) state executed log,
      view { m with processor := { m.processor with state, executed }, log } = view m)
    (act : Action M W Executed) (m : Machine M W) :
    view (after (attempt act) m) = view (after act { m with processor.state := .running }) := by
  rw [after, after, attempt_apply]
  cases act { m with processor.state := .running } with
  | ok executed left => exact marks left left.processor.state (left.processor.executed + 1) left.log
  | error fault left => exact marks left .faulted left.processor.executed _

theorem memory_after_attempt (act : Action M W Executed) (m : Machine M W) :
    (after (attempt act) m).memory =
      (after act { m with processor.state := .running }).memory :=
  view_after_attempt Machine.memory (fun _ _ _ _ => rfl) act m

theorem output_after_attempt (act : Action M W Executed) (m : Machine M W) :
    (after (attempt act) m).output =
      (after act { m with processor.state := .running }).output :=
  view_after_attempt Machine.output (fun _ _ _ _ => rfl) act m

variable [Memory M] [Writer W]

section View

variable {γ : Type} {v : Machine M W → γ} {P : γ → γ → Prop} {comparison : Comparison}

theorem rel_after_execute (refl : ∀ x, P x x)
    (blind : ∀ {m n : Machine M W}, m.memory = n.memory → m.output = n.output → v m = v n)
    {fetched : Fetched} {m : Machine M W}
    (performs : ∀ opcode, Opcode.ofByte? fetched.opcode = some opcode → ∀ log,
      P (v m) (v (after (perform comparison opcode fetched.a fetched.b) { m with log }))) :
    P (v m) (v (after (execute comparison fetched) m)) := by
  cases decoded : Opcode.ofByte? fetched.opcode with
  | none =>
    rw [after_eq_of_ok (execute_of_unknown decoded comparison m)]
    rw [blind (m := m) (n := { m with
      processor := m.processor.advance (instructionLength fetched.opcode)
      log := m.log.push (Report.unknownOpcode m.processor.pc fetched.opcode) }) rfl rfl]
    exact refl _
  | some opcode =>
    have performed := performs opcode decoded
      (m.log.push (Report.decoded m.processor.pc opcode fetched.a fetched.b))
    rw [after, execute_of_known decoded]
    unfold after at performed
    split at performed
    · rename_i left ended
      rw [ended]
      have passed : v (if opcode = .hlt then left
          else { left with processor := left.processor.advance opcode.length }) = v left := by
        split
        · rfl
        · exact blind rfl rfl
      rw [passed]
      exact performed
    · rename_i ended
      rw [ended]
      exact performed

/-- What fetching keeps of the memory and the output, a step changes as its instruction does. -/
theorem rel_after_step (refl : ∀ x, P x x)
    (blind : ∀ {m n : Machine M W}, m.memory = n.memory → m.output = n.output → v m = v n)
    (fetches : Keeps v fetch) {m : Machine M W}
    (performs : ∀ fetched between opcode,
      fetch { m with processor.state := .running } = .ok fetched between →
      Opcode.ofByte? fetched.opcode = some opcode → ∀ log,
      P (v between)
        (v (after (perform comparison opcode fetched.a fetched.b) { between with log }))) :
    P (v m) (v (after (step comparison) m)) := by
  have kept := fetches { m with processor.state := .running }
  rw [blind (m := { m with processor.state := .running }) (n := m) rfl rfl] at kept
  rw [step, blind (memory_after_attempt _ m) (output_after_attempt _ m), after_bind]
  cases fetching : fetch { m with processor.state := .running } with
  | ok fetched between =>
    rw [after_eq_of_ok fetching] at kept
    rw [← kept]
    exact rel_after_execute refl blind (performs fetched between · fetching)
  | error fault between =>
    rw [after_eq_of_error fetching] at kept
    simp only [kept]
    exact refl _

end View

section Property

variable {γ : Type} {property : M → γ}
  (kept_read : ∀ memory address, property (Memory.read memory address).memory = property memory)
include kept_read

omit [Writer W] in
theorem keeps_memory_read (address : Nat) :
    Keeps (fun m : Machine M W => property m.memory) (read address) := by
  intro m
  rw [after_read]
  exact kept_read m.memory address

variable (kept_write : ∀ memory address value,
  property (Memory.write memory address value).memory = property memory)
include kept_write

/-- What no access changes about a memory, no step does. -/
theorem keeps_memory_step (comparison : Comparison) :
    Keeps (fun m : Machine M W => property m.memory) (step comparison) := by
  have writes (address : Nat) (value : UInt8) :
      Keeps (fun m : Machine M W => property m.memory) (write address value) := by
    intro m
    rw [after_write]
    exact kept_write m.memory address value
  intro m
  refine rel_after_step (v := fun m : Machine M W => property m.memory)
    (P := fun before left => left = before) (fun _ => rfl) (fun same _ => congrArg property same)
    (Keeps.fetch (keeps_memory_read kept_read)) ?_
  intro fetched between opcode _ _ log
  exact Keeps.perform comparison opcode fetched.a fetched.b (fun _ _ _ _ _ => rfl)
    (keeps_memory_read kept_read) (fun _ => writes) (fun _ _ => Keeps.print fun _ _ => rfl)
    { between with log }

end Property

theorem keeps_output_perform (comparison : Comparison) {opcode : Opcode} (silent : opcode ≠ .prn)
    (a b : UInt8) : Keeps (M := M) (W := W) (·.output) (perform comparison opcode a b) :=
  Keeps.perform comparison opcode a b (fun _ _ _ _ _ => rfl)
    (fun _ => Keeps.read fun _ _ _ => rfl) (fun _ _ _ => Keeps.write fun _ _ _ => rfl)
    (fun prints => absurd prints silent)

theorem output_after_perform (comparison : Comparison) (opcode : Opcode) (a b : UInt8)
    (m : Machine M W) :
    (after (perform comparison opcode a b) m).output = m.output ∨
      ∃ text,
        (after (perform comparison opcode a b) m).output = (Writer.print m.output text).2 := by
  by_cases prints : opcode = .prn
  · subst prints
    simp only [perform, after_bind, getRegister]
    cases Registers.read m.processor.registers a with
    | ok value => exact .inr ⟨_, output_after_print _ m⟩
    | error fault => exact .inl rfl
  · exact .inl (keeps_output_perform comparison prints a b m)

/-- A step prints at most one text. -/
theorem output_after_step (comparison : Comparison) (m : Machine M W) :
    (after (step comparison) m).output = m.output ∨
      ∃ text, (after (step comparison) m).output = (Writer.print m.output text).2 :=
  rel_after_step (v := Machine.output)
    (P := fun before left => left = before ∨ ∃ text, left = (Writer.print before text).2)
    (fun _ => .inl rfl) (fun _ same => same) (Keeps.fetch fun _ => Keeps.read fun _ _ _ => rfl)
    fun fetched between opcode _ _ log => output_after_perform comparison opcode fetched.a fetched.b
      { between with log }

section Sink

variable {m : Machine M Sink}

theorem unfailing_step (comparison : Comparison) (unfailing : m.output.Unfailing) :
    (after (step comparison) m).output.Unfailing := by
  rcases output_after_step comparison m with kept | ⟨text, printed⟩
  · rwa [kept]
  · rw [printed]
    exact (unfailing.print text).2

end Sink

end Machine

end ByteMachine
