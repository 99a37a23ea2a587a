import ByteMachine.Conformance.Suite
import ByteMachine.Proofs.AccessOrder
import ByteMachine.Proofs.Course
import ByteMachine.Proofs.ImageGrammar
import ByteMachine.Proofs.Truncation

/-!
# Counting the accesses

A step that succeeds reads the three bytes that it fetches; a pop reads one byte more, and a push
makes the only write. Main statement: a program of the conformance suite runs on its counting bus as
it does on the memory alone, and the bus has counted what its steps come to.
-/

namespace ByteMachine

open Machine

section Step

variable {M : Type} [Memory M] [PlainMemory M] {comparison : Comparison} {p : Processor}
  {memory : M} {m m' : Machine M Sink} {executed : Executed} {opcode : Opcode} {a b : UInt8}

theorem count_fetchAccesses {fetched : Fetched} (fetches : fetched? p memory = .ok fetched) :
    (fetchAccesses p memory).countP BusAccess.isRead = 3 ∧
      (fetchAccesses p memory).countP BusAccess.isWrite = 0 := by
  obtain ⟨first, second, third⟩ := fetched?_eq_ok_iff.mp fetches
  simp only [fetchAccesses, readsInTurn, first, second, third]
  exact ⟨rfl, rfl⟩

/-- An instruction that passes its checks makes at most one access of its own. -/
theorem count_stackAccesses {intended : Intent}
    (intends : intent comparison opcode a b p memory = .ok intended) :
    (stackAccesses opcode a p memory).countP BusAccess.isRead =
        (if opcode = .pop then 1 else 0) ∧
      (stackAccesses opcode a p memory).countP BusAccess.isWrite =
        if opcode = .push then 1 else 0 := by
  cases opcode with
  | push =>
    obtain ⟨value, found, -⟩ := Except.map_eq_ok_iff.mp intends
    obtain ⟨r, named, -⟩ := Except.map_eq_ok_iff.mp found
    simp [stackAccesses, named, BusAccess.isRead, BusAccess.isWrite]
  | pop =>
    obtain ⟨r, named, rest⟩ := Except.bind_eq_ok_iff.mp intends
    obtain ⟨value, held, -⟩ := Except.bind_eq_ok_iff.mp rest
    simp [stackAccesses, named, held, BusAccess.isRead, BusAccess.isWrite, Except.toOption]
  | _ => simp [stackAccesses]

/-- What a step that succeeds adds to the counts of reads and of writes. -/
theorem count_accessesOf (stepped : step comparison m = .ok executed m') :
    (accessesOf m.processor m.memory).countP BusAccess.isRead =
        3 + (if executed = .instruction .pop then 1 else 0) ∧
      (accessesOf m.processor m.memory).countP BusAccess.isWrite =
        if executed = .instruction .push then 1 else 0 := by
  obtain ⟨intended, plans⟩ := planned_of_step stepped
  cases executed with
  | unknown byte =>
    obtain ⟨fetched, fetches, unknown⟩ := unknown_of_planned plans
    obtain ⟨reads, writes⟩ := count_fetchAccesses fetches
    rw [accessesOf, fetches, List.countP_append, List.countP_append, reads, writes]
    simp [executeAccesses, unknown]
  | instruction opcode =>
    obtain ⟨fetched, fetches, known, intends⟩ := intent_of_planned plans
    obtain ⟨reads, writes⟩ := count_fetchAccesses fetches
    obtain ⟨ownReads, ownWrites⟩ := count_stackAccesses intends
    have own : executeAccesses fetched m.processor m.memory = stackAccesses opcode fetched.a
        { m.processor with state := .running } m.memory := by
      rw [executeAccesses, known]
      rfl
    rw [accessesOf, fetches, List.countP_append, List.countP_append, reads, writes]
    simp only [own, ownReads, ownWrites, Executed.instruction.injEq, Nat.zero_add, and_self]

end Step

namespace Machine

variable {M : Type} [Memory M] {comparison : Comparison} {m : Machine M Sink}

/-- How many steps of a run execute the instruction. -/
def executions (comparison : Comparison) (opcode : Opcode) (m : Machine M Sink) : Nat :=
  (visited comparison m).countP fun before =>
    (outcome (step comparison) before).toOption = some (.instruction opcode)

variable [PlainMemory M]

theorem count_steps (machines : List (Machine M Sink))
    (succeed : ∀ before ∈ machines, ∃ executed, outcome (step comparison) before = .ok executed) :
    (machines.flatMap fun before => accessesOf before.processor before.memory).countP
        BusAccess.isRead =
      3 * machines.length + machines.countP (fun before =>
        (outcome (step comparison) before).toOption = some (.instruction .pop)) ∧
    (machines.flatMap fun before => accessesOf before.processor before.memory).countP
        BusAccess.isWrite =
      machines.countP fun before =>
        (outcome (step comparison) before).toOption = some (.instruction .push) := by
  induction machines with
  | nil => exact ⟨rfl, rfl⟩
  | cons before later inductionHypothesis =>
    obtain ⟨reads, writes⟩ := inductionHypothesis fun _ passed =>
      succeed _ (List.mem_cons_of_mem before passed)
    obtain ⟨executed, succeeds⟩ := succeed before List.mem_cons_self
    cases stepped : step comparison before with
    | error fault left => cases (outcome_eq_of_error stepped).symm.trans succeeds
    | ok executed' left =>
      cases (outcome_eq_of_ok stepped).symm.trans succeeds
      obtain ⟨ownReads, ownWrites⟩ := count_accessesOf stepped
      simp only [List.flatMap_cons, List.countP_append, List.countP_cons, List.length_cons, reads,
        writes, ownReads, ownWrites, succeeds, Except.toOption, Option.some.injEq,
        decide_eq_true_eq]
      omega

theorem seen_after_run_plain (ends : Ends (step comparison) m)
    (running : m.processor.state ≠ .halted) :
    seen (after (run comparison) m.recorded) = (visited comparison m).flatMap fun before =>
      accessesOf before.processor before.memory := by
  simp only [seen_after_run ends running, ← stepAccesses_eq comparison]

end Machine

namespace Sink

theorem exists_text_bytes (lines : List String) : ∃ text, bytes lines = Text.utf8Encode text := by
  induction lines with
  | nil => exact ⟨"", rfl⟩
  | cons line rest inductionHypothesis =>
    obtain ⟨text, joined⟩ := inductionHypothesis
    refine ⟨line ++ text, ?_⟩
    rw [Text.utf8Encode_append, ← joined]
    rfl

/-- What lines make is text. -/
theorem exists_text_holding (lines : List String) :
    ∃ text, (holding lines).accepted.toList = Text.utf8Encode text ∧
      (holding lines).text? = some text := by
  obtain ⟨text, joined⟩ := exists_text_bytes lines
  refine ⟨text, joined, ?_⟩
  rw [text?, ← Text.utf8Decode?_utf8Encode text, ← joined]
  rfl

end Sink

namespace Conformance

variable {ram : Ram}

/-- A new machine on the memory alone. -/
def alone (ram : Ram) : Machine Ram Sink := { memory := ram, output := {}, diagnostics := {} }

theorem alone_running (ram : Ram) : (alone ram).processor.state ≠ .halted := nofun

theorem wraps_recorded_alone (ram : Ram) :
    Wraps Announced.memory (machine ram) (alone ram).recorded :=
  ⟨rfl, rfl, rfl⟩

theorem wraps_alone (ram : Ram) :
    Wraps (Recorded.memory ∘ Announced.memory) (machine ram) (alone ram) := ⟨rfl, rfl, rfl⟩

/-- The programs of the suite come to an end, as they do on the memory alone. -/
theorem ends_machine (ram : Ram) : Ends (step .contents) (machine ram) :=
  ((Transparent.announced.comp Transparent.recorded).ends_iff (wraps_alone ram)).mpr
    (ends_ram .contents (alone ram))

theorem matched_run_machine (ram : Ram) :
    Matched (Wraps (Recorded.memory ∘ Announced.memory)) unparted (run .contents (machine ram))
      (run .contents (alone ram)) :=
  (Transparent.announced.comp Transparent.recorded).matched_run (ends_machine ram) (wraps_alone ram)

/-- The bus of a run that halts has counted three reads for each instruction, one more for each pop,
and one write for each push. -/
theorem counts_of_halted (halts : outcome (run .contents) (alone ram) = .ok ()) :
    (after (run .contents) (machine ram)).memory.memory.reads =
        3 * (after (run .contents) (alone ram)).processor.executed +
          executions .contents .pop (alone ram) ∧
      (after (run .contents) (machine ram)).memory.memory.writes =
        executions .contents .push (alone ram) := by
  -- The machine whose memory records, though it does not announce, stands between the two.
  have outer : Wraps Announced.memory (after (run .contents) (machine ram))
      (after (run .contents) (alone ram).recorded) :=
    (Transparent.announced.matched_run (ends_machine ram) (wraps_recorded_alone ram)).after
  have ends : Ends (step .contents) (alone ram) := ends_ram .contents (alone ram)
  have aloneEnd := sameEnd_run ends (alone_running ram)
  have bus : (after (run .contents) (machine ram)).memory.memory.accesses.toList =
      (visited .contents (alone ram)).flatMap fun before =>
        accessesOf before.processor before.memory := by
    rw [outer.2.1]
    exact seen_after_run_plain ends (alone_running ram)
  rw [aloneEnd.outcome_eq] at halts
  have counted := length_visited ends
  rw [halts, ← aloneEnd.after.1] at counted
  have length : (visited .contents (alone ram)).length =
      (after (run .contents) (alone ram)).processor.executed := (Nat.zero_add _).symm.trans counted
  obtain ⟨reads, writes⟩ := count_steps (visited .contents (alone ram)) fun before passed =>
    outcome_of_mem_course ends passed halts
  rw [← bus, Array.countP_toList] at reads writes
  rw [length] at reads
  exact ⟨reads, writes⟩

/-- How a program of the suite fares, next to a run of it on the memory alone. -/
structure RunsAsAlone (name : String) (ram : Ram)
    (result : Except Failure String × List Log.Entry) : Prop where
  halts : (∃ out, result.1 = .ok out) ↔ outcome (run .contents) (alone ram) = .ok ()
  /-- The output is text, and all of it is there. -/
  printed : ∀ out, result.1 = .ok out →
    (after (run .contents) (alone ram)).output.accepted.toList = Text.utf8Encode out
  faults : ∀ text, (∃ failure, result.1 = .error failure ∧ failure.message = text) ↔
    ∃ fault, outcome (run .contents) (alone ram) = .error fault ∧
      text = fault.message ++ " (" ++
        (after (run .contents) (alone ram)).processor.describe ++ ")"
  counted : outcome (run .contents) (alone ram) = .ok () → ∃ final,
    run .contents (machine ram) = .ok () final ∧ result.2.getLast? = some (counts name final) ∧
      final.processor.executed = (after (run .contents) (alone ram)).processor.executed ∧
      final.memory.memory.reads =
        3 * final.processor.executed + executions .contents .pop (alone ram) ∧
      final.memory.memory.writes = executions .contents .push (alone ram)

/-- The result of a program that has been loaded, by how its run ends. -/
def resultOf (name : String) : EStateM.Result Fault (Machine Bus Sink) Unit →
    Except Failure String × List Log.Entry
  | .error fault m => (.error (.faulted fault m.processor), m.log.toList)
  | .ok _ m =>
    (match m.output.text? with
      | some text => .ok text
      | none => .error .notText,
    m.log.toList ++ [counts name m])

theorem execute_of_loaded {name image : String} {bytes : List UInt8}
    (parsed : Image.parse image = .ok bytes) (loaded : Bank.ofImage bytes = .ok ram) :
    execute name image = resultOf name (run .contents (machine ram)) := by
  simp only [execute, parsed, loaded]
  cases run .contents (machine ram) <;> rfl

/-- On the memory alone, a run prints lines. -/
theorem exists_text_of_run (ram : Ram) :
    ∃ text, (after (run .contents) (alone ram)).output.accepted.toList = Text.utf8Encode text ∧
      (after (run .contents) (alone ram)).output.text? = some text := by
  have ends : Ends (step .contents) (alone ram) := ends_ram .contents (alone ram)
  have held : (after (untilHalted (step .contents)) (alone ram)).output =
      .holding ((alone ram).lines .contents) := output_after_untilHalted (m := alone ram) ends
  rw [(sameEnd_run ends (alone_running ram)).after.2.2, held]
  exact Sink.exists_text_holding _

theorem runsAsAlone_of_halted {name : String} {final : Machine Bus Sink} {final' : Machine Ram Sink}
    (ran : run .contents (machine ram) = .ok () final)
    (ran' : run .contents (alone ram) = .ok () final')
    (processor : final.processor = final'.processor) (output : final.output = final'.output) :
    RunsAsAlone name ram (resultOf name (run .contents (machine ram))) := by
  have halts := outcome_eq_of_ok ran'
  obtain ⟨text, encoded, decoded⟩ := exists_text_of_run ram
  rw [after_eq_of_ok ran', ← output] at decoded
  have result : resultOf name (run .contents (machine ram)) =
      (.ok text, final.log.toList ++ [counts name final]) := by
    rw [ran, resultOf, decoded]
  rw [result]
  constructor
  case halts => exact iff_of_true ⟨text, rfl⟩ halts
  case printed =>
    rintro out ⟨⟩
    exact encoded
  case faults =>
    intro shown
    constructor
    · rintro ⟨failure, ⟨⟩, -⟩
    · rintro ⟨fault, faulted, -⟩
      cases faulted.symm.trans halts
  case counted =>
    intro _
    obtain ⟨reads, writes⟩ := counts_of_halted halts
    rw [after_eq_of_ok ran, after_eq_of_ok ran', ← processor] at reads
    rw [after_eq_of_ok ran] at writes
    rw [after_eq_of_ok ran']
    exact ⟨final, ran, List.getLast?_concat, congrArg _ processor, reads, writes⟩

theorem runsAsAlone_of_faulted {name : String} {fault : Fault} {final : Machine Bus Sink}
    {final' : Machine Ram Sink} (ran : run .contents (machine ram) = .error fault final)
    (ran' : run .contents (alone ram) = .error fault final')
    (processor : final.processor = final'.processor) :
    RunsAsAlone name ram (resultOf name (run .contents (machine ram))) := by
  have faulted := outcome_eq_of_error ran'
  have message : (Failure.faulted fault final.processor).message = fault.message ++ " (" ++
      (after (run .contents) (alone ram)).processor.describe ++ ")" := by
    rw [after_eq_of_error ran', ← processor, Failure.message]
  rw [ran, resultOf]
  constructor
  case halts =>
    constructor
    · rintro ⟨out, ⟨⟩⟩
    · intro halts
      cases halts.symm.trans faulted
  case printed => rintro out ⟨⟩
  case faults =>
    intro shown
    constructor
    · rintro ⟨failure, ⟨⟩, rfl⟩
      exact ⟨fault, faulted, message⟩
    · rintro ⟨fault', faulted', rfl⟩
      cases faulted.symm.trans faulted'
      exact ⟨_, rfl, message⟩
  case counted =>
    intro halts
    cases halts.symm.trans faulted

/-- A loaded program runs on its bus as it does on the memory alone. -/
theorem runsAsAlone (name : String) (ram : Ram) :
    RunsAsAlone name ram (resultOf name (run .contents (machine ram))) := by
  rcases (matched_run_machine ram).inv_unparted with ⟨⟨⟩, final, final', ran, ran', wraps⟩ |
    ⟨fault, final, final', ran, ran', wraps⟩
  · exact runsAsAlone_of_halted ran ran' wraps.1 wraps.2.2
  · exact runsAsAlone_of_faulted ran ran' wraps.1

theorem not_badImage_faulted (fault : Fault) (processor : Processor) :
    ¬"bad image: ".toList <+: (Failure.faulted fault processor).message.toList := by
  cases fault <;> simp [Failure.message, Fault.message, List.cons_prefix_cons]

/-- An image that is read fits into memory. -/
theorem exists_ram_of_parse {image : String} {bytes : List UInt8}
    (parsed : Image.parse image = .ok bytes) : ∃ ram : Ram, Bank.ofImage bytes = .ok ram :=
  ⟨_, Image.ofImage_of_parse parsed⟩

/-- The bus of a program changes nothing about how it runs, and counts its accesses. -/
theorem suite_program_runs_as_alone (name image : String) :
    ((∃ failure, (execute name image).1 = .error failure ∧
        "bad image: ".toList <+: failure.message.toList) ↔
      ∃ cause, Image.parse image = .error cause) ∧
    ∀ bytes, Image.parse image = .ok bytes →
      ∃ ram, Bank.ofImage bytes = .ok ram ∧ RunsAsAlone name ram (execute name image) := by
  cases parsed : Image.parse image with
  | error cause =>
    refine ⟨iff_of_true ⟨.badImage cause, ?_, ?_⟩ ⟨cause, rfl⟩, nofun⟩
    · simp only [execute, parsed]
    · rw [Failure.message, String.toList_append]
      exact List.prefix_append _ _
  | ok bytes =>
    obtain ⟨ram, loaded⟩ := exists_ram_of_parse parsed
    have executed : execute name image = resultOf name (run .contents (machine ram)) :=
      execute_of_loaded parsed loaded
    have runs := runsAsAlone name ram
    rw [executed]
    constructor
    · apply iff_of_false
      -- An error can only be the fault of the run, and no fault calls the image bad.
      · rintro ⟨failure, failed, badImage⟩
        obtain ⟨fault, -, message⟩ := (runs.faults failure.message).mp ⟨failure, failed, rfl⟩
        rw [message] at badImage
        exact not_badImage_faulted fault _ badImage
      · rintro ⟨cause, ⟨⟩⟩
    · rintro bytes' ⟨⟩
      exact ⟨ram, loaded, runs⟩

end Conformance

end ByteMachine
