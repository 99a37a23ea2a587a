import ByteMachine.Proofs.Confinement
import ByteMachine.Proofs.ImageGrammar
import ByteMachine.Proofs.Numerals
import ByteMachine.Proofs.TraceLine

/-!
# The values that a run prints

Where no output fails, a run writes a line for every print that it completes, and nothing else. Main
statement: what it writes are the printed values in the order in which they are printed, each in
decimal on a line of its own, and so these can be read back from what was written.
-/

namespace ByteMachine

/-- The text that values are printed as, one after the other. -/
def printedText : List UInt8 → String
  | [] => ""
  | value :: rest => Text.decimal value.toNat ++ "\n" ++ printedText rest

theorem printedText_append (values later : List UInt8) :
    printedText (values ++ later) = printedText values ++ printedText later := by
  induction values with
  | nil => simp [printedText]
  | cons value rest inductionHypothesis =>
    simp only [List.cons_append, printedText, inductionHypothesis, String.append_assoc]

theorem toList_printedText_cons (value : UInt8) (rest : List UInt8) :
    (printedText (value :: rest)).toList =
      Text.numeral 10 1 value.toNat ++ '\n' :: (printedText rest).toList := by
  simp [printedText]

theorem lines_printedText (values : List UInt8) :
    Text.lines (printedText values).toList = values.map (Text.numeral 10 1 ·.toNat) := by
  induction values with
  | nil => rfl
  | cons value rest inductionHypothesis =>
    have unbroken : '\n' ∉ Text.numeral 10 1 value.toNat :=
      Text.not_mem_numeral (by decide) (by decide) 1 value.toNat
    rw [toList_printedText_cons, Text.lines_append_newline unbroken, inductionHypothesis]
    rfl

/-- The numbers on the lines of a text. -/
def lineValues (text : String) : List Nat :=
  (Text.lines text.toList).map (Text.numeralValue 10)

theorem lineValues_printedText (values : List UInt8) :
    lineValues (printedText values) = values.map UInt8.toNat := by
  rw [lineValues, lines_printedText, List.map_map]
  apply List.map_congr_left
  exact fun value _ => Text.numeralValue_numeral (by decide) (by decide) 1 value.toNat

theorem printedText_injective : Function.Injective printedText := by
  intro values values' same
  have read : lineValues (printedText values) = lineValues (printedText values') := by rw [same]
  rw [lineValues_printedText, lineValues_printedText] at read
  exact List.map_injective_iff.mpr (fun _ _ => UInt8.toNat_inj.mp) read

theorem Text.utf8Encode_injective : Function.Injective Text.utf8Encode := by
  intro text text' same
  have decoded : utf8Decode? (utf8Encode text) = utf8Decode? (utf8Encode text') := by rw [same]
  rw [utf8Decode?_utf8Encode, utf8Decode?_utf8Encode] at decoded
  exact Option.some.inj decoded

namespace Machine

variable {M N : Type} [Memory M] [Memory N] {comparison : Comparison} {m : Machine M Sink}
  {fetched : Fetched} {value : UInt8}

/-- The value that a step prints, if it completes a print: what the register holds that its first
operand names. -/
def printed? (comparison : Comparison) (m : Machine M Sink) : Option UInt8 :=
  match outcome (step comparison) m, outcome fetch m with
  | .ok (.instruction .prn), .ok fetched => (m.processor.registers.read fetched.a).toOption
  | _, _ => none

/-- What a step writes, if nothing fails. -/
def printedBytes (comparison : Comparison) (m : Machine M Sink) : List UInt8 :=
  Text.utf8Encode (printedText (printed? comparison m).toList)

/-- The values that a run prints, in order. -/
def printed (comparison : Comparison) (m : Machine M Sink) : List UInt8 :=
  (runCourse comparison m).filterMap (printed? comparison)

section Step

omit [Memory M] in
theorem print_of_unfailing (unfailing : m.output.Unfailing) (text : String) :
    print text m = .ok () { m with output := (Writer.print m.output text).2 } := by
  simp only [print, toOutput, unfailing.print_eq]
  rfl

/-- A print of a register is completed where no output fails. -/
theorem execute_of_prints (comparison : Comparison) (prints : fetched.opcode = Opcode.prn.byte)
    (found : m.processor.registers.read fetched.a = .ok value) (unfailing : m.output.Unfailing) :
    outcome (execute comparison fetched) m = .ok (.instruction .prn) ∧
      (after (execute comparison fetched) m).output =
        (Writer.print m.output (Text.decimal value.toNat ++ "\n")).2 := by
  have executes := execute_of_known (Opcode.ofByte?_eq_some_iff.mpr prints.symm) comparison m
  have printed (log : Array Log.Entry) :
      perform comparison .prn fetched.a fetched.b { m with log } = .ok () { m with
        log, output := (Writer.print m.output (Text.decimal value.toNat ++ "\n")).2 } := by
    simp only [perform, bind, EStateM.bind, getRegister, found, settle]
    exact print_of_unfailing (m := { m with log }) unfailing _
  rw [printed] at executes
  rw [outcome_eq_of_ok executes, after_eq_of_ok executes]
  exact ⟨rfl, rfl⟩

theorem execute_of_missing (comparison : Comparison) {fault : Fault}
    (prints : fetched.opcode = Opcode.prn.byte)
    (missing : m.processor.registers.read fetched.a = .error fault) :
    outcome (execute comparison fetched) m = .error fault ∧
      (after (execute comparison fetched) m).output = m.output := by
  have executes := execute_of_known (Opcode.ofByte?_eq_some_iff.mpr prints.symm) comparison m
  have refused (log : Array Log.Entry) :
      perform comparison .prn fetched.a fetched.b { m with log } = .error fault { m with log } := by
    simp only [perform, bind, EStateM.bind, getRegister, missing, settle]
  rw [refused] at executes
  rw [outcome_eq_of_error executes, after_eq_of_error executes]
  exact ⟨rfl, rfl⟩

theorem keeps_output_execute (silent : fetched.opcode ≠ Opcode.prn.byte) :
    Keeps (M := M) (W := Sink) (·.output) (execute comparison fetched) := by
  refine Keeps.execute comparison fetched (fun _ _ => rfl) (fun _ _ => rfl) fun opcode decoded => ?_
  apply keeps_output_perform
  rintro rfl
  exact silent (Opcode.ofByte?_eq_some_iff.mp decoded).symm

/-- What a step does to an output that does not fail: if it completes a print it writes the line of
what its register held, and otherwise nothing. -/
inductive Prints (comparison : Comparison) (m : Machine M Sink) : Option UInt8 → Prop where
  | line {fetched : Fetched} {value : UInt8} :
      outcome (step comparison) m = .ok (.instruction .prn) → outcome fetch m = .ok fetched →
      m.processor.registers.read fetched.a = .ok value →
      (after (step comparison) m).output.accepted.toList =
        m.output.accepted.toList ++ Text.utf8Encode (Text.decimal value.toNat ++ "\n") →
      Prints comparison m (some value)
  | nothing : outcome (step comparison) m ≠ .ok (.instruction .prn) →
      (after (step comparison) m).output = m.output → Prints comparison m none

theorem printed?_of_completed (completed : outcome (step comparison) m = .ok (.instruction .prn))
    (found : outcome fetch m = .ok fetched)
    (held : m.processor.registers.read fetched.a = .ok value) :
    printed? comparison m = some value := by
  simp only [printed?, completed, found, held, Except.toOption]

theorem printed?_of_other (other : outcome (step comparison) m ≠ .ok (.instruction .prn)) :
    printed? comparison m = none := by
  unfold printed?
  split
  · rename_i completed _
    exact absurd completed other
  · rfl

theorem output_of_refused (comparison : Comparison) {fault : Fault} {left : Machine M Sink}
    (refused : fetch { m with processor.state := .running } = .error fault left) :
    (after (step comparison) m).output = m.output := by
  have kept : (after fetch { m with processor.state := .running }).output = m.output :=
    Keeps.fetch (fun _ => Keeps.read fun _ _ _ => rfl) _
  rw [after_eq_of_error refused] at kept
  rwa [step, output_after_attempt, after_bind, refused]

/-- A step that has fetched something does to the output what executing that does. -/
theorem output_of_fetched (comparison : Comparison) {between : Machine M Sink}
    (fetching : fetch { m with processor.state := .running } = .ok fetched between) :
    between.output = m.output ∧
      (after (step comparison) m).output = (after (execute comparison fetched) between).output := by
  have output : (after fetch { m with processor.state := .running }).output = m.output :=
    Keeps.fetch (fun _ => Keeps.read fun _ _ _ => rfl) _
  rw [after_eq_of_ok fetching] at output
  refine ⟨output, ?_⟩
  rw [step, output_after_attempt, after_bind, fetching]

theorem outcome_execute_ne_prn (silent : fetched.opcode ≠ Opcode.prn.byte) :
    outcome (execute comparison fetched) m ≠ .ok (.instruction .prn) := by
  intro completed
  cases executes : execute comparison fetched m with
  | ok executed left =>
    cases (outcome_eq_of_ok executes).symm.trans completed
    exact silent ((executed_eq_instruction_iff executes).mp rfl)
  | error fault left => cases (outcome_eq_of_error executes).symm.trans completed

theorem prints_of_other (other : outcome (step comparison) m ≠ .ok (.instruction .prn))
    (kept : (after (step comparison) m).output = m.output) :
    Prints comparison m (printed? comparison m) := by
  rw [printed?_of_other other]
  exact .nothing other kept

theorem prints_of_prn {between : Machine M Sink}
    (fetching : fetch { m with processor.state := .running } = .ok fetched between)
    (found : outcome fetch m = .ok fetched)
    (executes : outcome (step comparison) m = outcome (execute comparison fetched) between)
    (prints : fetched.opcode = Opcode.prn.byte) (unfailing : m.output.Unfailing) :
    Prints comparison m (printed? comparison m) := by
  obtain ⟨output, left⟩ := output_of_fetched comparison fetching
  have registers : between.processor.registers = m.processor.registers := by
    rw [keeps_processor_fetch.of_ok fetching]
  cases held : m.processor.registers.read fetched.a with
  | ok value =>
    obtain ⟨completed, written⟩ :=
      execute_of_prints comparison prints (registers ▸ held) (output ▸ unfailing)
    rw [← executes] at completed
    rw [printed?_of_completed completed found held]
    apply Prints.line completed found held
    rw [left, written, output, unfailing.accepted_print]
  | error fault =>
    obtain ⟨failed, kept⟩ := execute_of_missing comparison prints (registers ▸ held)
    apply prints_of_other _ (left.trans (kept.trans output))
    simp [executes, failed]

/-- A step prints what it is said to print. -/
theorem prints_printed? (comparison : Comparison) (unfailing : m.output.Unfailing) :
    Prints comparison m (printed? comparison m) := by
  cases stepBegins comparison m with
  | refused refused _ ended =>
    apply prints_of_other _ (output_of_refused comparison refused)
    simp [ended]
  | @fetched fetched between fetching found executes =>
    by_cases prints : fetched.opcode = Opcode.prn.byte
    · exact prints_of_prn fetching found executes prints unfailing
    · obtain ⟨output, left⟩ := output_of_fetched comparison fetching
      apply prints_of_other
      case other =>
        rw [executes]
        exact outcome_execute_ne_prn prints
      case kept =>
        rw [left, ← output]
        exact keeps_output_execute prints between

theorem accepted_after_step (comparison : Comparison) (unfailing : m.output.Unfailing) :
    (after (step comparison) m).output.accepted.toList =
      m.output.accepted.toList ++ printedBytes comparison m := by
  have prints := prints_printed? comparison unfailing
  unfold printedBytes
  cases value : printed? comparison m with
  | some value =>
    rw [value] at prints
    cases prints with
    | line _ _ _ written =>
      rw [written]
      simp [printedText]
  | none =>
    rw [value] at prints
    cases prints with
    | nothing _ kept =>
      rw [kept]
      simp [printedText, Text.utf8Encode]

end Step

section Run

theorem stepped_prints (comparison : Comparison) (unfailing : m.output.Unfailing) (count : Nat) :
    (stepped comparison count m).output.Unfailing ∧
      (stepped comparison count m).output.accepted.toList =
        m.output.accepted.toList ++
          ((List.range count).map (stepped comparison · m)).flatMap (printedBytes comparison) := by
  apply view_stepped (P := fun m : Machine M Sink => m.output.Unfailing)
    (fun m : Machine M Sink => m.output.accepted.toList)
  case kept => exact fun _ => unfailing_step comparison
  case each => exact fun _ => accepted_after_step comparison
  case held => exact unfailing

theorem flatMap_printedBytes (machines : List (Machine M Sink)) :
    machines.flatMap (printedBytes comparison) =
      Text.utf8Encode (printedText (machines.filterMap (printed? comparison))) := by
  induction machines with
  | nil => rfl
  | cons before rest inductionHypothesis =>
    rw [List.flatMap_cons, inductionHypothesis, printedBytes, ← Text.utf8Encode_append,
      ← printedText_append]
    cases value : printed? comparison before <;> simp [value]

/-- A run writes the lines of the values that it prints. -/
theorem accepted_after_run (ends : Ends (step comparison) m) (unfailing : m.output.Unfailing) :
    (after (run comparison) m).output.accepted.toList =
      m.output.accepted.toList ++ Text.utf8Encode (printedText (printed comparison m)) := by
  rw [(coincide_after_run ends).2.2, (stepped_prints comparison unfailing _).2,
    ← runCourse_eq_stepped ends, flatMap_printedBytes, printed]

theorem unfailing_of_mem_runCourse (ends : Ends (step comparison) m)
    (unfailing : m.output.Unfailing) {before : Machine M Sink}
    (passed : before ∈ runCourse comparison m) : before.output.Unfailing := by
  rw [runCourse_eq_stepped ends, List.mem_map] at passed
  obtain ⟨count, -, rfl⟩ := passed
  exact (stepped_prints comparison unfailing count).1

/-- What a run writes to an output that does not fail, and how it is to be read. -/
structure PrintsInOrder (comparison : Comparison) (m : Machine M Sink) : Prop where
  /-- The steps of a run, one after the other. -/
  course : runCourse comparison m =
    (List.range (runCourse comparison m).length).map (stepped comparison · m)
  steps : ∀ before ∈ runCourse comparison m, Prints comparison before (printed? comparison before)
  written : (after (run comparison) m).output.accepted.toList =
    m.output.accepted.toList ++ Text.utf8Encode (printedText (printed comparison m))
  /-- There is a line for every value, with its numeral. -/
  numerals : List.Forall₂ (fun value line => Text.IsDecimalOf value.toNat line)
    (printed comparison m) (Text.lines (printedText (printed comparison m)).toList)
  readsBack : lineValues (printedText (printed comparison m)) =
    (printed comparison m).map UInt8.toNat
  /-- Whoever writes the same has printed the same values. -/
  unambiguous {N : Type} [Memory N] (comparison' : Comparison) (n : Machine N Sink)
    (bytes : List UInt8) : n.Confined → n.output.Unfailing →
    (after (run comparison) m).output.accepted.toList = m.output.accepted.toList ++ bytes →
    (after (run comparison') n).output.accepted.toList = n.output.accepted.toList ++ bytes →
      printed comparison m = printed comparison' n

theorem text_eq_of_accepted {bytes : List UInt8} (ends : Ends (step comparison) m)
    (unfailing : m.output.Unfailing)
    (written : (after (run comparison) m).output.accepted.toList =
      m.output.accepted.toList ++ bytes) :
    Text.utf8Encode (printedText (printed comparison m)) = bytes :=
  List.append_cancel_left ((accepted_after_run ends unfailing).symm.trans written)

/-- The output of a run tells which values it has printed, and in which order. -/
theorem run_prints_in_order (comparison : Comparison) (confined : m.Confined)
    (unfailing : m.output.Unfailing) : PrintsInOrder comparison m := by
  have ends : Ends (step comparison) m := confined.ends
  constructor
  case course => exact runCourse_eq_stepped ends
  case steps =>
    intro before passed
    exact prints_printed? comparison (unfailing_of_mem_runCourse ends unfailing passed)
  case written => exact accepted_after_run ends unfailing
  case numerals =>
    rw [lines_printedText, List.forall₂_map_right_iff, List.forall₂_same]
    exact fun value _ => Text.isDecimalOf_numeral value.toNat
  case readsBack => exact lineValues_printedText _
  case unambiguous =>
    intro N _ comparison' n bytes confined' unfailing' written written'
    have same := (text_eq_of_accepted ends unfailing written).trans
      (text_eq_of_accepted confined'.ends unfailing' written').symm
    exact printedText_injective (Text.utf8Encode_injective same)

/-- The third print names a register that does not exist. -/
theorem run_prints_in_order_third_missing :
    let image : List UInt8 := [0x82, 1, 255, 0x47, 1, 0x47, 0, 0x47, 9, 1]
    let m : Machine Ram Sink :=
      { memory := Bank.ofImagePrefix image, output := {}, diagnostics := {} }
    PrintsInOrder .contents m ∧ printed .contents m = [255, 0] ∧
      printedText [255, 0] = "255\n0\n" := by
  intro image m
  have unfailing : m.output.Unfailing := ⟨rfl, by simp [m]⟩
  refine ⟨run_prints_in_order .contents (Confined.ram m) unfailing, ?_, by decide +kernel⟩
  simp only [printed, runCourse, visited, course_ram]
  decide +kernel

end Run

end Machine

end ByteMachine
